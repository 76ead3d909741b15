import CannedReply.ReplyFile
/-!
# Filling a buffer

However a file is handed out, what comes are its first bytes, as many as are wanted.  The reading
fails just if one of the reads does that are made for them.  Main statements: `fill_eq_ok`,
`fill_eq_error_iff`.
-/

namespace CannedReply.Proofs.ReplyFile.Fill

open CannedReply.ReplyFile

section Fill

variable {pace : Nat → Except SysError Nat} {read wanted : Nat} {rest reply : Bytes}

/-- A read loop that does not fail hands out the first bytes of the file, whatever its pace. -/
theorem fill_eq_ok (h : fill pace read wanted rest = .ok reply) : reply = rest.take wanted := by
  fun_induction fill pace read wanted rest generalizing reply with
  | case1 read rest =>
    obtain rfl := Except.ok.inj h
    rfl
  | case2 => contradiction
  | case3 read wanted rest hwanted most hpace count =>
    rename_i hcount
    have hend : rest.length = 0 := by omega
    obtain rfl := Except.ok.inj h
    rw [List.eq_nil_of_length_eq_zero hend, List.take_nil]
  | case4 => contradiction
  | case5 read wanted rest hwanted most hpace count hcount more hmore =>
    rename_i ih
    have hle : count ≤ wanted := by omega
    obtain rfl := Except.ok.inj h
    rw [ih hmore, ← List.take_add, Nat.add_sub_cancel' hle]

end Fill

/-! ## The reads that are made -/

/-- After `calls` reads, each of which handed out some of the next bytes, `received` bytes have
come. -/
inductive Reads (pace : Nat → Except SysError Nat) (content : Bytes) (size : Nat) :
    Nat → Nat → Prop
  | start : Reads pace content size 0 0
  | next {calls received most : Nat} : Reads pace content size calls received →
      received < size → received < content.length → pace calls = .ok most →
      Reads pace content size (calls + 1)
        (received + min (max 1 most) (min (size - received) (content.length - received)))

/-- A read that is made fails with `e`. -/
def ReadFails (pace : Nat → Except SysError Nat) (content : Bytes) (size : Nat) (e : SysError) :
    Prop :=
  ∃ calls received, Reads pace content size calls received ∧ received < size ∧ pace calls = .error e

section Reads

variable {pace : Nat → Except SysError Nat} {content : Bytes} {size calls received : Nat}
  {e : SysError}

theorem fill_of_failed {wanted : Nat} (hwanted : 0 < wanted) (hpace : pace calls = .error e)
    (rest : Bytes) : fill pace calls wanted rest = .error e := by
  rw [fill, if_neg (Nat.ne_of_gt hwanted), hpace]

/-- A read that hands out bytes leaves the rest of them to the reads behind it. -/
theorem fill_of_read {wanted most : Nat} {rest : Bytes} (hwanted : 0 < wanted)
    (hrest : 0 < rest.length) (hpace : pace calls = .ok most) :
    fill pace calls wanted rest =
      (fill pace (calls + 1) (wanted - min (max 1 most) (min wanted rest.length))
        (rest.drop (min (max 1 most) (min wanted rest.length)))).map
          (rest.take (min (max 1 most) (min wanted rest.length)) ++ ·) := by
  have hcount : min (max 1 most) (min wanted rest.length) ≠ 0 := by omega
  rw [fill, if_neg (Nat.ne_of_gt hwanted), hpace]
  dsimp only
  rw [dif_neg hcount]
  cases fill pace (calls + 1) (wanted - min (max 1 most) (min wanted rest.length))
    (rest.drop (min (max 1 most) (min wanted rest.length))) with
  | error e => rfl
  | ok more => rfl

/-- What has been received are the first bytes of the file, and the reads that follow go on behind
them. -/
theorem fill_of_reads (h : Reads pace content size calls received) :
    fill pace 0 size content =
      (fill pace calls (size - received) (content.drop received)).map
        (content.take received ++ ·) := by
  induction h with
  | start =>
    rw [Nat.sub_zero, List.drop_zero, List.take_zero]
    cases fill pace 0 size content with
    | error e => rfl
    | ok reply => rfl
  | @next calls received most hreads hsize hlength hpace ih =>
    have hrest : 0 < (content.drop received).length := by
      rw [List.length_drop]
      omega
    rw [ih, fill_of_read (Nat.sub_pos_of_lt hsize) hrest hpace, List.length_drop]
    generalize min (max 1 most) (min (size - received) (content.length - received)) = count
    rw [List.drop_drop, Nat.sub_sub, List.take_add]
    cases fill pace (calls + 1) (size - (received + count)) (content.drop (received + count)) with
    | error e => rfl
    | ok more => simp [Except.map]

theorem fill_of_readFails (h : ReadFails pace content size e) :
    fill pace 0 size content = .error e := by
  obtain ⟨calls, received, hreads, hsize, hpace⟩ := h
  rw [fill_of_reads hreads, fill_of_failed (Nat.sub_pos_of_lt hsize) hpace]
  rfl

theorem readFails_of_fill (hreads : Reads pace content size calls received)
    (h : fill pace calls (size - received) (content.drop received) = .error e) :
    ReadFails pace content size e := by
  -- The induction is on the loop: what it still wants and has is what the reads so far have left.
  generalize hwanted : size - received = wanted at h
  generalize hrest : content.drop received = rest at h
  fun_induction fill pace calls wanted rest generalizing received with
  | case1 => contradiction
  | case2 calls wanted rest hne e' hpace =>
    obtain rfl := Except.error.inj h
    exact ⟨calls, received, hreads, by omega, hpace⟩
  | case3 => contradiction
  | case4 calls wanted rest hne most hpace count hcount e' hfails =>
    rename_i ih
    have hlength : rest.length = content.length - received := by rw [← hrest, List.length_drop]
    have hnext : Reads pace content size (calls + 1) (received + count) := by
      have hcount' : count = min (max 1 most) (min wanted rest.length) := rfl
      rw [hcount', ← hwanted, hlength]
      exact hreads.next (by omega) (by omega) hpace
    apply ih hnext
    · omega
    · rw [← hrest, List.drop_drop]
    · rw [hfails]
      exact h
  | case5 => contradiction

/-- The reading of a file fails just by a read that is made. -/
theorem fill_eq_error_iff : fill pace 0 size content = .error e ↔ ReadFails pace content size e :=
  ⟨fun h => readFails_of_fill .start h, fill_of_readFails⟩

/-- If no read fails, the first bytes of the file come, however they are handed out. -/
theorem fill_of_not_readFails (h : ∀ e, ¬ ReadFails pace content size e) :
    fill pace 0 size content = .ok (content.take size) := by
  cases hfill : fill pace 0 size content with
  | error e => exact absurd (fill_eq_error_iff.1 hfill) (h e)
  | ok reply => rw [fill_eq_ok hfill]

end Reads

end CannedReply.Proofs.ReplyFile.Fill
