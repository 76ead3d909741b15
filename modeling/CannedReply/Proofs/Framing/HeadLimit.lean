import CannedReply.Proofs.Framing.Growth
/-!
# The limit on a head

The framing looks at the head before anything else.  A head is too long if its empty line ends
behind the limit, or if there are more bytes than the limit and no empty line.  Main
statements: `message?_eq_headTooLarge_iff`, just these heads are refused for their length, and
`headTooLong_append`, more bytes do not change that once the framing has a verdict.
-/

namespace CannedReply.Proofs.Framing.HeadLimit

open CannedReply.Framing CannedReply.Framing.Chunked
open CannedReply.Proofs.Cut
open CannedReply.Proofs.Framing.Growth

/-! ## Where a head ends -/

/-- The first empty line of the stream is the one behind `head`. -/
structure EndsHead (head stream : Bytes) : Prop where
  starts : head ++ Bytes.emptyLine <+: stream
  first : ∀ front, front ++ Bytes.emptyLine <+: stream → head.length ≤ front.length

/-- No empty line is in the stream. -/
def HeadOpen (stream : Bytes) : Prop := ¬ Bytes.emptyLine <:+: stream

variable {head stream : Bytes}

theorem endsHead_iff :
    EndsHead head stream ↔ ∃ rest, Delimiter.cut? Bytes.emptyLine stream = some (head, rest) := by
  constructor
  · rintro ⟨⟨rest, hstream⟩, hfirst⟩
    rw [List.append_assoc] at hstream
    refine ⟨rest, cut?_eq_some_iff.2 ⟨hstream.symm, fun front more hsame => ?_⟩⟩
    exact hfirst front ⟨more, by rw [hsame, List.append_assoc]⟩
  · rintro ⟨rest, hcut⟩
    obtain ⟨hstream, hfirst⟩ := cut?_eq_some_iff.1 hcut
    refine ⟨⟨rest, by rw [hstream, List.append_assoc]⟩, ?_⟩
    rintro front ⟨more, hsame⟩
    exact hfirst front more (by rw [← hsame, List.append_assoc])

theorem headOpen_iff : HeadOpen stream ↔ Delimiter.cut? Bytes.emptyLine stream = none :=
  cut?_eq_none_iff_isInfix.symm

/-! ## Heads that are too long -/

/-- The head ends behind the limit, or does not end in more bytes than the limit. -/
def HeadTooLong (stream : Bytes) : Prop :=
  match Delimiter.cut? Bytes.emptyLine stream with
  | none => maxHeadBytes < stream.length
  | some (head, _) => maxHeadBytes < head.length + 4

theorem headTooLong_of_endsHead (h : EndsHead head stream) :
    HeadTooLong stream ↔ maxHeadBytes < head.length + 4 := by
  obtain ⟨rest, hcut⟩ := endsHead_iff.1 h
  rw [HeadTooLong, hcut]

theorem headTooLong_of_headOpen (h : HeadOpen stream) :
    HeadTooLong stream ↔ maxHeadBytes < stream.length := by
  rw [HeadTooLong, headOpen_iff.1 h]

/-! ## Errors of other kinds -/

section Errors

variable {e : Error}

theorem ne_headTooLarge_of_firstValue? {name : Bytes} {lines : List Bytes}
    (h : Head.firstValue? name lines = .error e) : e ≠ .headTooLarge := by
  fun_induction Head.firstValue? name lines with
  | case2 rest ih => exact ih h
  | case3 line rest hne hcut => simp [← Except.error.inj h]
  | case5 line rest hne key value hcut hname ih => exact ih h
  | _ => contradiction

theorem ne_headTooLarge_of_transferEncoding? (h : Head.transferEncoding? head = .error e) :
    e ≠ .headTooLarge := by
  unfold Head.transferEncoding? at h
  cases hfirst : Head.firstValue? Head.transferEncodingName (Head.fieldLines head) with
  | error e' =>
    rw [hfirst] at h
    rw [← Except.error.inj h]
    exact ne_headTooLarge_of_firstValue? hfirst
  | ok value? => simp [hfirst, Except.map] at h

theorem ne_headTooLarge_of_contentLength (h : Head.contentLength head = .error e) :
    e ≠ .headTooLarge := by
  unfold Head.contentLength at h
  split at h
  · rename_i e' hfirst
    rw [← Except.error.inj h]
    exact ne_headTooLarge_of_firstValue? hfirst
  · contradiction
  · split at h
    · simp [← Except.error.inj h]
    · split at h
      · simp [← Except.error.inj h]
      · contradiction

theorem ne_headTooLarge_of_size? {line : Bytes} (h : size? line = .error e) :
    e ≠ .headTooLarge := by
  unfold size? at h
  split at h
  · simp [← Except.error.inj h]
  · split at h
    · simp [← Except.error.inj h]
    · split at h
      · simp [← Except.error.inj h]
      · contradiction

theorem ne_headTooLarge_of_trailersFrom {consumed : Nat} {s : Bytes}
    (h : trailersFrom consumed s = .error e) : e ≠ .headTooLarge := by
  fun_induction trailersFrom consumed s with
  | case4 consumed s line rest hne hline hcolon ih => exact ih h
  | case1 | case5 => simp [← Except.error.inj h]
  | case2 | case3 => contradiction

theorem ne_headTooLarge_of_chunksFrom {consumed decoded : Nat} {s : Bytes}
    (h : chunksFrom consumed decoded s = .error e) : e ≠ .headTooLarge := by
  fun_induction chunksFrom consumed decoded s with
  | case3 consumed decoded s line rest hline e' hsize =>
    rw [← Except.error.inj h]
    exact ne_headTooLarge_of_size? hsize
  | case4 => exact ne_headTooLarge_of_trailersFrom h
  | case8 consumed decoded s line rest hline size hpos hsize hlimit tail hdrop ih => exact ih h
  | case1 | case5 | case9 => simp [← Except.error.inj h]
  | case2 | case6 | case7 => contradiction

theorem ne_headTooLarge_of_bodyLength? {rest : Bytes} (h : bodyLength? head rest = .error e) :
    e ≠ .headTooLarge := by
  rw [bodyLength?_eq] at h
  split at h
  · rename_i e' hencoding
    rw [← Except.error.inj h]
    exact ne_headTooLarge_of_transferEncoding? hencoding
  · split at h
    · exact ne_headTooLarge_of_chunksFrom h
    · split at h
      · rename_i e' hlength
        rw [← Except.error.inj h]
        exact ne_headTooLarge_of_contentLength hlength
      · split at h
        · simp [← Except.error.inj h]
        · split at h <;> contradiction

end Errors

/-! ## The verdict on a long head -/

/-- Just a head that is too long is refused for its length. -/
theorem message?_eq_headTooLarge_iff :
    message? stream = .error .headTooLarge ↔ HeadTooLong stream := by
  unfold message? HeadTooLong
  cases Delimiter.cut? Bytes.emptyLine stream with
  | none =>
    dsimp only
    split <;> simp [*]
  | some cut =>
    obtain ⟨head, rest⟩ := cut
    dsimp only
    by_cases hlimit : maxHeadBytes < head.length + 4
    · simp [hlimit]
    · rw [if_neg hlimit]
      cases hverdict : bodyLength? head rest with
      | error e =>
        have hother := ne_headTooLarge_of_bodyLength? hverdict
        simpa [Except.map, hlimit] using hother
      | ok length => simp [Except.map, hlimit]

/-- A stream that starts with a head that is too long has one itself. -/
theorem HeadTooLong.append (h : HeadTooLong stream) (t : Bytes) : HeadTooLong (stream ++ t) := by
  have hverdict := message?_eq_headTooLarge_iff.2 h
  have hsettled : Settled (message? stream) := by
    rw [hverdict]
    rfl
  exact message?_eq_headTooLarge_iff.1 ((message?_append hsettled t).trans hverdict)

/-- Once the framing has a verdict, more bytes do not make the head too long. -/
theorem headTooLong_append (h : message? stream ≠ .ok none) (t : Bytes) :
    HeadTooLong (stream ++ t) ↔ HeadTooLong stream := by
  refine ⟨fun hgrown => ?_, fun hlong => hlong.append t⟩
  cases hcut : Delimiter.cut? Bytes.emptyLine stream with
  | none =>
    rw [HeadTooLong, hcut]
    rw [message?, hcut] at h
    exact Decidable.byContradiction fun hshort => h (if_neg hshort)
  | some cut =>
    rw [HeadTooLong, cut?_append hcut t] at hgrown
    rwa [HeadTooLong, hcut]

end CannedReply.Proofs.Framing.HeadLimit
