import CannedReply.Framing.Message
import CannedReply.Proofs.Cut
/-!
# Framing of a growing buffer

The reader frames its whole buffer again after every receive.  A verdict is settled if more bytes
cannot change it: a complete message, or any error but that of a line whose end has not arrived.
Main statement: `message?_append`, a settled verdict on a buffer is the verdict on every buffer
that starts with it.
-/

namespace CannedReply.Proofs.Framing.Growth

open CannedReply.Framing CannedReply.Framing.Chunked
open CannedReply.Proofs.Cut

/-- The errors of a size line or trailer line that is too long while its end has not arrived. -/
def isOverlong : Error → Bool
  | .chunkSizeTooLong | .trailersTooLarge => true
  | _ => false

/-- A verdict that no further byte changes. -/
def Settled {α : Type} : Except Error (Option α) → Prop
  | .ok found => found.isSome
  | .error e => isOverlong e = false

@[simp] theorem settled_error {α : Type} (e : Error) :
    Settled (.error e : Except Error (Option α)) ↔ isOverlong e = false := Iff.rfl

@[simp] theorem settled_some {α : Type} (found : α) :
    Settled (.ok (some found) : Except Error (Option α)) := rfl

@[simp] theorem not_settled_none {α : Type} :
    ¬ Settled (.ok none : Except Error (Option α)) := nofun

/-- A verdict on a line whose end has not arrived. -/
private theorem not_settled_open {α : Type} {n : Nat} {e : Error} (he : isOverlong e = true) :
    ¬ Settled (if maxHeadBytes < n then .error e else .ok none : Except Error (Option α)) := by
  split <;> simp [he]

/-! ## The two loops -/

/-- What follows the data of a chunk and its line end, or `none` if they are not complete. -/
def afterData? (size : Nat) (rest : Bytes) : Except Error (Option Bytes) :=
  match rest.drop size with
  | [] => .ok none
  | [_] => .ok none
  | 13 :: 10 :: tail => .ok (some tail)
  | _ => .error .missingChunkEnd

theorem trailersFrom_eq (consumed : Nat) (s : Bytes) :
    trailersFrom consumed s =
      match Bytes.line? s with
      | none => if maxHeadBytes < s.length then .error .trailersTooLarge else .ok none
      | some ([], _) => .ok (some (consumed + 2))
      | some (line, rest) =>
        if line.contains 58 then trailersFrom (consumed + line.length + 2) rest
        else .error .malformedTrailer := by
  rw [trailersFrom]
  split <;> rename_i h <;> simp only [h]

theorem chunksFrom_eq (consumed decoded : Nat) (s : Bytes) :
    chunksFrom consumed decoded s =
      match Bytes.line? s with
      | none => if maxHeadBytes < s.length then .error .chunkSizeTooLong else .ok none
      | some (line, rest) =>
        match size? line with
        | .error e => .error e
        | .ok size =>
          if size = 0 then trailersFrom (consumed + line.length + 2) rest
          else if maxBodyBytes < decoded + size then .error .chunkedBodyTooLarge
          else
            match afterData? size rest with
            | .error e => .error e
            | .ok none => .ok none
            | .ok (some tail) =>
              chunksFrom (consumed + line.length + 2 + size + 2) (decoded + size) tail := by
  rw [chunksFrom]
  split
  · rename_i h
    rw [h]
  · rename_i line rest h
    rw [h]
    dsimp only
    cases size? line with
    | error e => rfl
    | ok size =>
      cases size with
      | zero => rfl
      | succ size =>
        show (if _ then _ else _) = _
        unfold afterData?
        split
        · simp [*]
        · split <;> simp [*]

theorem length_of_afterData? {size : Nat} {rest tail : Bytes}
    (h : afterData? size rest = .ok (some tail)) : rest.length = size + 2 + tail.length := by
  unfold afterData? at h
  split at h <;> simp only [Except.ok.injEq, Option.some.injEq, reduceCtorEq] at h
  rename_i found hdrop
  have hlen := congrArg List.length hdrop
  simp only [List.length_drop, List.length_cons] at hlen
  subst h
  omega

private theorem afterData?_of_drop {size : Nat} {rest tail : Bytes} {a b : UInt8}
    (h : rest.drop size = a :: b :: tail) :
    afterData? size rest =
      if a = 13 ∧ b = 10 then .ok (some tail) else .error .missingChunkEnd := by
  unfold afterData?
  rw [h]
  split <;> simp_all

theorem afterData?_append {size : Nat} {rest : Bytes} (h : Settled (afterData? size rest))
    (t : Bytes) :
    afterData? size (rest ++ t) = (afterData? size rest).map fun found => found.map (· ++ t) := by
  match hdrop : rest.drop size with
  | [] => simp [afterData?, hdrop] at h
  | [_] => simp [afterData?, hdrop] at h
  | a :: b :: tail =>
    have hlen := congrArg List.length hdrop
    simp only [List.length_drop, List.length_cons] at hlen
    have hgrown : (rest ++ t).drop size = a :: b :: (tail ++ t) := by
      rw [List.drop_append_of_le_length (by omega), hdrop]
      rfl
    rw [afterData?_of_drop hgrown, afterData?_of_drop hdrop]
    split <;> rfl

theorem trailersFrom_append {consumed : Nat} {s : Bytes} (h : Settled (trailersFrom consumed s))
    (t : Bytes) : trailersFrom consumed (s ++ t) = trailersFrom consumed s := by
  fun_induction trailersFrom consumed s with
  | case1 => simp [isOverlong] at h
  | case2 => simp at h
  | case3 consumed s rest hline => rw [trailersFrom_eq, Bytes.line?, cut?_append hline]
  | case4 consumed s line rest hne hline hcolon ih =>
    rw [trailersFrom_eq, Bytes.line?, cut?_append hline]
    simp only [hcolon, if_true]
    exact ih h
  | case5 consumed s line rest hne hline hcolon =>
    rw [trailersFrom_eq, Bytes.line?, cut?_append hline]
    simp only [hcolon]
    rfl

theorem chunksFrom_append {consumed decoded : Nat} {s : Bytes}
    (h : Settled (chunksFrom consumed decoded s)) (t : Bytes) :
    chunksFrom consumed decoded (s ++ t) = chunksFrom consumed decoded s := by
  induction hn : s.length using Nat.strongRecOn generalizing consumed decoded s with
  | ind n ih =>
    rw [chunksFrom_eq] at h
    rw [chunksFrom_eq, chunksFrom_eq consumed decoded s]
    cases hline : Bytes.line? s with
    | none =>
      rw [hline] at h
      exact absurd h (not_settled_open rfl)
    | some cut =>
      obtain ⟨line, rest⟩ := cut
      have hgrown : Bytes.line? (s ++ t) = some (line, rest ++ t) := cut?_append hline t
      simp only [hline, hgrown] at h ⊢
      cases hsize : size? line with
      | error e => rfl
      | ok size =>
        simp only [hsize] at h ⊢
        by_cases hzero : size = 0
        · rw [if_pos hzero] at h
          rw [if_pos hzero, if_pos hzero]
          exact trailersFrom_append h t
        rw [if_neg hzero] at h
        rw [if_neg hzero, if_neg hzero]
        by_cases hlimit : maxBodyBytes < decoded + size
        · rw [if_pos hlimit, if_pos hlimit]
        rw [if_neg hlimit] at h
        rw [if_neg hlimit, if_neg hlimit]
        cases hdata : afterData? size rest with
        | error e =>
          have hsettled : Settled (afterData? size rest) := by simpa [hdata] using h
          simp [afterData?_append hsettled t, hdata, Except.map]
        | ok found =>
          cases found with
          | none => simp [hdata] at h
          | some tail =>
            have hshort : tail.length < n := by
              have hdataLen := length_of_afterData? hdata
              have hlineLen := Bytes.length_lt_of_line? hline
              omega
            have hsettled : Settled (afterData? size rest) := by simp [hdata]
            simp only [hdata] at h
            simp only [afterData?_append hsettled t, hdata, Except.map, Option.map_some]
            exact ih _ hshort h rfl

/-! ## Lengths stay within the bytes that are there -/

theorem length_of_line? {s line rest : Bytes} (h : Bytes.line? s = some (line, rest)) :
    s.length = line.length + 2 + rest.length := by
  rw [Bytes.append_of_line? h]
  simp only [List.length_append, Bytes.crlf, List.length_cons, List.length_nil]
  omega

theorem trailersFrom_le {consumed n : Nat} {s : Bytes}
    (h : trailersFrom consumed s = .ok (some n)) : n ≤ consumed + s.length := by
  fun_induction trailersFrom consumed s with
  | case3 consumed s rest hline =>
    have hlen := length_of_line? hline
    simp only [Except.ok.injEq, Option.some.injEq] at h
    omega
  | case4 consumed s line rest hne hline hcolon ih =>
    have hlen := length_of_line? hline
    have hle := ih h
    omega
  | _ => simp at h

theorem chunksFrom_le {consumed decoded n : Nat} {s : Bytes}
    (h : chunksFrom consumed decoded s = .ok (some n)) : n ≤ consumed + s.length := by
  fun_induction chunksFrom consumed decoded s with
  | case4 consumed decoded s line rest hline hsize =>
    have hlen := length_of_line? hline
    have hle := trailersFrom_le h
    omega
  | case8 consumed decoded s line rest hline size hpos hsize hlimit tail hdrop ih =>
    have hlen := length_of_line? hline
    have htail := congrArg List.length hdrop
    have hle := ih h
    simp only [List.length_drop, List.length_cons] at htail
    omega
  | _ => simp at h

/-! ## Whole messages -/

theorem bodyLength?_eq (head rest : Bytes) :
    bodyLength? head rest =
      match Head.transferEncoding? head with
      | .error e => .error e
      | .ok encoding =>
        if (encoding.map isChunked).getD false then Chunked.length? rest
        else
          match Head.contentLength head with
          | .error e => .error e
          | .ok length =>
            if maxBodyBytes < length then .error .bodyTooLarge
            else if rest.length < length then .ok none
            else .ok (some length) := by
  unfold bodyLength?
  cases Head.transferEncoding? head with
  | error e => rfl
  | ok encoding =>
    simp only [bind, Except.bind]
    split
    · rfl
    · cases Head.contentLength head <;> rfl

theorem bodyLength?_le {head rest : Bytes} {n : Nat}
    (h : bodyLength? head rest = .ok (some n)) : n ≤ rest.length := by
  rw [bodyLength?_eq] at h
  split at h
  · contradiction
  · split at h
    · simpa using chunksFrom_le h
    · split at h
      · contradiction
      · split at h
        · contradiction
        · split at h
          · simp at h
          · simp only [Except.ok.injEq, Option.some.injEq] at h
            omega

theorem bodyLength?_append {head rest : Bytes} (h : Settled (bodyLength? head rest))
    (t : Bytes) : bodyLength? head (rest ++ t) = bodyLength? head rest := by
  rw [bodyLength?_eq] at h
  rw [bodyLength?_eq, bodyLength?_eq head rest]
  cases hencoding : Head.transferEncoding? head with
  | error e => rfl
  | ok encoding =>
    simp only [hencoding] at h ⊢
    split
    · rename_i hchunked
      rw [if_pos hchunked] at h
      exact chunksFrom_append h t
    · rename_i hplain
      rw [if_neg hplain] at h
      cases hlength : Head.contentLength head with
      | error e => rfl
      | ok length =>
        simp only [hlength] at h ⊢
        split
        · rfl
        · rename_i hlimit
          rw [if_neg hlimit] at h
          have hle : length ≤ rest.length := by
            rcases Nat.lt_or_ge rest.length length with hlt | hge
            · simp [hlt] at h
            · exact hge
          rw [if_neg (by simp; omega), if_neg (by omega)]

theorem message?_append {buffer : Bytes} (h : Settled (message? buffer)) (t : Bytes) :
    message? (buffer ++ t) = message? buffer := by
  unfold message? at h ⊢
  cases hcut : Delimiter.cut? Bytes.emptyLine buffer with
  | none =>
    simp only [hcut] at h ⊢
    have hlimit : maxHeadBytes < buffer.length := by
      rcases Nat.lt_or_ge maxHeadBytes buffer.length with hlt | hge
      · exact hlt
      · simp [Nat.not_lt.2 hge] at h
    rw [if_pos hlimit]
    cases hgrown : Delimiter.cut? Bytes.emptyLine (buffer ++ t) with
    | none =>
      have hlong : maxHeadBytes < (buffer ++ t).length := by
        rw [List.length_append]
        omega
      exact if_pos hlong
    | some cut =>
      -- An empty line that comes with `t` ends behind `buffer`, which is too long already.
      have hend := length_lt_of_cut?_append hcut hgrown
      simp only [Bytes.emptyLine, List.length_cons, List.length_nil] at hend
      exact if_pos (by omega)
  | some cut =>
    obtain ⟨head, rest⟩ := cut
    simp only [hcut, cut?_append hcut t] at h ⊢
    by_cases hlimit : maxHeadBytes < head.length + 4
    · rw [if_pos hlimit, if_pos hlimit]
    rw [if_neg hlimit] at h
    rw [if_neg hlimit, if_neg hlimit]
    have hsettled : Settled (bodyLength? head rest) := by
      revert h
      rcases bodyLength? head rest with e | _ | n <;> exact id
    rw [bodyLength?_append hsettled t]
    cases hbody : bodyLength? head rest with
    | error e => rfl
    | ok found =>
      cases found with
      | none => rfl
      | some n =>
        have hlen := congrArg List.length (Delimiter.append_of_cut? hcut)
        have hle := bodyLength?_le hbody
        simp only [List.length_append, Bytes.emptyLine, List.length_cons, List.length_nil] at hlen
        simp only [Except.map, Option.map_some]
        rw [List.take_append_of_le_length (by omega)]

theorem message?_eq_some_iff {buffer message : Bytes} :
    message? buffer = .ok (some message) ↔
      ∃ head body rest, Delimiter.cut? Bytes.emptyLine buffer = some (head, body ++ rest) ∧
        head.length + 4 ≤ maxHeadBytes ∧
        bodyLength? head (body ++ rest) = .ok (some body.length) ∧
        message = head ++ (Bytes.emptyLine ++ body) := by
  have htake : ∀ {head rest : Bytes} (n : Nat), buffer = head ++ (Bytes.emptyLine ++ rest) →
      buffer.take (head.length + 4 + n) = head ++ (Bytes.emptyLine ++ rest.take n) := by
    intro head rest n hbuffer
    have hfront : (head ++ Bytes.emptyLine).length = head.length + 4 := by
      simp [Bytes.emptyLine]
    rw [hbuffer, ← List.append_assoc, ← List.append_assoc, ← hfront, List.take_length_add_append]
  unfold message?
  constructor
  · intro h
    match hcut : Delimiter.cut? Bytes.emptyLine buffer with
    | none =>
      simp only [hcut] at h
      split at h <;> simp at h
    | some (head, tail) =>
      simp only [hcut] at h
      split at h
      · contradiction
      · rename_i hlimit
        match hbody : bodyLength? head tail with
        | .error e => simp [hbody, Except.map] at h
        | .ok none => simp [hbody, Except.map] at h
        | .ok (some n) =>
          have hle := bodyLength?_le hbody
          simp only [hbody, Except.map, Option.map_some, Except.ok.injEq, Option.some.injEq] at h
          refine ⟨head, tail.take n, tail.drop n, ?_, Nat.not_lt.1 hlimit, ?_, ?_⟩
          · rw [List.take_append_drop]
          · rw [List.take_append_drop, hbody, List.length_take, Nat.min_eq_left hle]
          · rw [← h, htake n (Delimiter.append_of_cut? hcut)]
  · rintro ⟨head, body, rest, hcut, hlimit, hbody, rfl⟩
    rw [hcut]
    dsimp only
    rw [if_neg (Nat.not_lt.2 hlimit), hbody]
    simp only [Except.map, Option.map_some]
    rw [htake body.length (Delimiter.append_of_cut? hcut), List.take_left]

/-- A message is the head that a buffer starts with, its empty line and some of the rest. -/
theorem eq_append_of_message? {buffer message : Bytes}
    (h : message? buffer = .ok (some message)) :
    ∃ head rest body, buffer = head ++ (Bytes.emptyLine ++ (body ++ rest)) ∧
      Delimiter.cut? Bytes.emptyLine buffer = some (head, body ++ rest) ∧
      message = head ++ (Bytes.emptyLine ++ body) := by
  obtain ⟨head, body, rest, hcut, -, -, hmessage⟩ := message?_eq_some_iff.1 h
  exact ⟨head, rest, body, Delimiter.append_of_cut? hcut, hcut, hmessage⟩

end CannedReply.Proofs.Framing.Growth
