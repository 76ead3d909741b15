import CannedReply.Proofs.Framing.Fields
import CannedReply.Proofs.Framing.HeadLimit
import CannedReply.Proofs.Reading.Receives
/-!
# The bounds of a reading

The reader asks for more only while its buffer is within the limits: an open head has at most the
longest length of a head, and what stands behind the end of a head is less than the declared
length.  Which heads are refused for their length depends on the bytes that are delivered and not
on the pieces they come in.  Main statement: `reading_bounded`.
-/

namespace CannedReply.Proofs.Reading.Bounds

open CannedReply.Framing CannedReply.Reading
open CannedReply.Proofs.Cut
open CannedReply.Proofs.Framing.Fields
open CannedReply.Proofs.Framing.Growth
open CannedReply.Proofs.Framing.HeadLimit
open CannedReply.Proofs.Reading.Receives

variable {start s s' : Socket} {buffer head : Bytes} {limit : Nat}

/-! ## What the reader holds -/

/-- The head announces a body in chunks. -/
def AnnouncesChunked (head : Bytes) : Prop :=
  ∃ encoding, Head.transferEncoding? head = .ok (some encoding) ∧ isChunked encoding = true

/-- How many bytes may be held when more are asked for. -/
structure WithinLimits (buffer : Bytes) : Prop where
  openHead : HeadOpen buffer → buffer.length ≤ maxHeadBytes
  openBody : ∀ head, EndsHead head buffer → ¬ AnnouncesChunked head →
    ∃ length, Head.contentLength head = .ok length ∧
      buffer.length < head.length + 4 + length ∧ buffer.length < maxHeadBytes + maxBodyBytes

/-- A body of declared length that is waited for is shorter than declared. -/
theorem exists_length_of_waiting {rest : Bytes} (hplain : ¬ AnnouncesChunked head)
    (h : bodyLength? head rest = .ok none) :
    ∃ length, Head.contentLength head = .ok length ∧ length ≤ maxBodyBytes ∧
      rest.length < length := by
  rw [bodyLength?_eq] at h
  cases hencoding : Head.transferEncoding? head with
  | error e => simp [hencoding] at h
  | ok encoding? =>
    have hunchunked : ¬ (encoding?.map isChunked).getD false = true := by
      intro hchunked
      cases encoding? with
      | none => simp at hchunked
      | some encoding => exact hplain ⟨encoding, hencoding, hchunked⟩
    simp only [hencoding, if_neg hunchunked] at h
    cases hlength : Head.contentLength head with
    | error e => simp [hlength] at h
    | ok length =>
      simp only [hlength] at h
      split at h
      · contradiction
      · rename_i hlimit
        split at h
        · rename_i hshort
          exact ⟨length, rfl, Nat.not_lt.1 hlimit, hshort⟩
        · simp at h

theorem withinLimits_of_open (h : message? buffer = .ok none) : WithinLimits buffer := by
  have hshort : ¬ HeadTooLong buffer := by
    rw [← message?_eq_headTooLarge_iff, h]
    simp
  constructor
  · intro hopen
    rw [headTooLong_of_headOpen hopen] at hshort
    exact Nat.not_lt.1 hshort
  · intro head hends hplain
    obtain ⟨rest, hcut⟩ := endsHead_iff.1 hends
    rw [headTooLong_of_endsHead hends] at hshort
    rw [message?, hcut] at h
    simp only [if_neg hshort] at h
    have hwaiting : bodyLength? head rest = .ok none := by
      cases hbody : bodyLength? head rest with
      | error e => simp [hbody, Except.map] at h
      | ok found =>
        cases found with
        | none => rfl
        | some n => simp [hbody, Except.map] at h
    obtain ⟨length, hlength, hlimit, hrest⟩ := exists_length_of_waiting hplain hwaiting
    have hcount := congrArg List.length (Delimiter.append_of_cut? hcut)
    simp only [List.length_append, Bytes.emptyLine, List.length_cons, List.length_nil] at hcount
    exact ⟨length, hlength, by omega, by omega⟩

/-- Every receive of a reading is one that the reader waits for. -/
theorem exists_waits_of_receives {n : Nat} (hlow : start.receives ≤ n)
    (hhigh : n < (readMessage start).2.receives) :
    ∃ buffer s, Waits start buffer s ∧ s.receives = n := by
  suffices hfrom : ∀ buffer s, (message? buffer = .ok none → Waits start buffer s) →
      s.receives ≤ n → n < (readFrom buffer s).2.receives →
      ∃ buffer s, Waits start buffer s ∧ s.receives = n from
    hfrom [] start (fun _ => .first) hlow hhigh
  intro buffer s
  fun_induction readFrom buffer s with
  | case1 buffer s | case2 buffer s =>
    intro _ hlow hhigh
    exact absurd hhigh (Nat.not_lt.2 hlow)
  | case7 buffer s hverdict b bs s' hreceive ih =>
    intro hwaits hlow hhigh
    rcases Nat.eq_or_lt_of_le hlow with rfl | hlater
    · exact ⟨buffer, s, hwaits hverdict, rfl⟩
    · have hcount := receives_le_of_receive hreceive
      refine ih (fun hnext => ?_) (by omega) hhigh
      exact .next (hwaits hverdict) hreceive (by simp) hnext
  | case3 buffer s hverdict s' hreceive | case4 buffer s hverdict e s' hreceive
  | case5 buffer s hverdict s' hreceive hempty | case6 buffer s hverdict s' hreceive hempty =>
    intro hwaits hlow hhigh
    have hcount := receives_le_of_receive hreceive
    exact ⟨buffer, s, hwaits hverdict, by dsimp only at hhigh; omega⟩

/-! ## What is delivered -/

/-- The bytes that arrive before a timeout, a fault or the end of the stream. -/
def arriving : List Arrival → Bytes
  | .data (b :: bs) :: rest => b :: bs ++ arriving rest
  | _ => []

/-- The bytes that receives hand out, one after the other, until one of them hands out none. -/
def delivered (s : Socket) : Bytes :=
  if s.closed then [] else s.pending ++ arriving s.arrivals

theorem delivered_of_piece {piece : Bytes} (h : s.receive limit = (.ok piece, s'))
    (hne : piece ≠ []) : delivered s = piece ++ delivered s' := by
  cases receive_turn h with
  | pending hopen => simp [delivered, hopen, ← List.append_assoc]
  | drained => contradiction
  | @arrived bytes rest hopen hpending harrivals =>
    obtain ⟨b, bs, rfl⟩ := List.exists_cons_of_ne_nil (l := bytes) (by rintro rfl; simp at hne)
    simp [delivered, hopen, hpending, harrivals, arriving, ← List.append_assoc]

theorem delivered_of_nil {piece : Bytes} (h : s.receive limit = (.ok piece, s'))
    (hpiece : piece = []) (hlimit : 0 < limit) : delivered s = [] := by
  cases receive_turn h with
  | pending hopen hpending => simp [hpending, Nat.ne_of_gt hlimit] at hpiece
  | drained hopen hpending harrivals => simp [delivered, hpending, harrivals, arriving]
  | @arrived bytes rest hopen hpending harrivals =>
    obtain rfl : bytes = [] := by simpa [Nat.ne_of_gt hlimit] using hpiece
    simp [delivered, hpending, harrivals, arriving]

theorem delivered_of_error {e : Socket.ReceiveError} (h : s.receive limit = (.error e, s')) :
    delivered s = [] := by
  cases receive_turn h with
  | closed hclosed => simp [delivered, hclosed]
  | late _ hpending harrivals => simp [delivered, hpending, harrivals, arriving]
  | failed _ hpending harrivals => simp [delivered, hpending, harrivals, arriving]

/-! ## Heads that are refused -/

/-- Whether a head is refused for its length is decided by all that is delivered. -/
theorem readFrom_eq_headTooLarge_iff (buffer : Bytes) (s : Socket) :
    (readFrom buffer s).1 = .error (.framing .headTooLarge) ↔
      HeadTooLong (buffer ++ delivered s) := by
  have hwaiting : ∀ {buffer : Bytes} {s : Socket}, message? buffer = .ok none →
      delivered s = [] → ¬ HeadTooLong (buffer ++ delivered s) := by
    intro buffer s hverdict hnone
    rw [hnone, List.append_nil, ← message?_eq_headTooLarge_iff, hverdict]
    simp
  fun_induction readFrom buffer s with
  | case1 buffer s e hverdict =>
    rw [headTooLong_append (by simp [hverdict]), ← message?_eq_headTooLarge_iff, hverdict]
    simp
  | case2 buffer s message hverdict =>
    rw [headTooLong_append (by simp [hverdict]), ← message?_eq_headTooLarge_iff, hverdict]
    simp
  | case3 buffer s hverdict s' hreceive =>
    simpa using hwaiting hverdict (delivered_of_error hreceive)
  | case4 buffer s hverdict e s' hreceive =>
    simpa using hwaiting hverdict (delivered_of_error hreceive)
  | case5 buffer s hverdict s' hreceive hempty =>
    simpa using hwaiting hverdict (delivered_of_nil hreceive rfl (by decide))
  | case6 buffer s hverdict s' hreceive hempty =>
    simpa using hwaiting hverdict (delivered_of_nil hreceive rfl (by decide))
  | case7 buffer s hverdict b bs s' hreceive ih =>
    rw [delivered_of_piece hreceive (by simp), ← List.append_assoc]
    exact ih

/-- The only error with the text for a head that is too long. -/
theorem message_eq_iff {e : Reading.Error} :
    e.message = "Headers exceeded MAX_HEADER_BYTES" ↔ e = .framing .headTooLarge := by
  cases e with
  | framing e => cases e <;> simp [Reading.Error.message, Framing.Error.message]
  | timedOut => simp [Reading.Error.message]
  | endedEarly => simp [Reading.Error.message]
  | lost e =>
    have hfirst : e.message.toList.head? = some '[' := by
      simp [SysError.message]
    simp only [Reading.Error.message, reduceCtorEq, iff_false]
    intro hsame
    rw [hsame] at hfirst
    simp at hfirst

/-- The reading ends with the text for a head that is too long. -/
def HeadersExceeded (start : Socket) : Prop :=
  ∃ e, (readMessage start).1 = .error e ∧ e.message = "Headers exceeded MAX_HEADER_BYTES"

theorem headersExceeded_iff : HeadersExceeded start ↔ HeadTooLong (delivered start) := by
  have hread := readFrom_eq_headTooLarge_iff [] start
  rw [List.nil_append] at hread
  rw [← hread]
  constructor
  · rintro ⟨e, hresult, htext⟩
    rwa [message_eq_iff.1 htext] at hresult
  · intro hresult
    exact ⟨_, hresult, message_eq_iff.2 rfl⟩

/-! ## Streams without a byte -/

/-- The peer ends the stream before its first byte. -/
structure EndsBeforeFirstByte (s : Socket) : Prop where
  opened : s.closed = false
  pending : s.pending = []
  ended : s.arrivals = [] ∨ ∃ rest, s.arrivals = .data [] :: rest

theorem endsAtOnce_iff : EndsAtOnce s ↔ EndsBeforeFirstByte s := by
  constructor
  · rintro ⟨s', h⟩
    generalize hpiece : ([] : Bytes) = piece at h
    cases receive_turn h with
    | pending _ hpending => simp [receiveLimit, hpending] at hpiece
    | drained hopen hpending harrivals => exact ⟨hopen, hpending, .inl harrivals⟩
    | @arrived bytes rest hopen hpending harrivals =>
      obtain rfl : bytes = [] := by simpa [receiveLimit] using hpiece
      exact ⟨hopen, hpending, .inr ⟨rest, harrivals⟩⟩
  · rintro ⟨hopen, hpending, harrivals | ⟨rest, harrivals⟩⟩
    · exact ⟨_, by simp [Socket.receive, hopen, hpending, harrivals]; rfl⟩
    · exact ⟨_, by simp [Socket.receive, Socket.takePending, hopen, hpending, harrivals]; rfl⟩

/-! ## All readings -/

/-- What holds of a reading at each of its receives, and of its result. -/
structure IsBounded (start : Socket) : Prop where
  /-- Every receive that is counted finds the reader with a buffer. -/
  waits : ∀ n, start.receives ≤ n → n < (readMessage start).2.receives →
    ∃ buffer s, Waits start buffer s ∧ s.receives = n
  /-- The buffer is within the limits at every receive. -/
  within : ∀ buffer s, Waits start buffer s → WithinLimits buffer
  ended : ∀ head, EndsHead head (delivered start) →
    (HeadersExceeded start ↔ maxHeadBytes < head.length + 4)
  unended : HeadOpen (delivered start) →
    (HeadersExceeded start ↔ maxHeadBytes < (delivered start).length)
  /-- However much of a stream is delivered, a head within the limit is not refused. -/
  spared : ∀ stream head, delivered start <+: stream → EndsHead head stream →
    head.length + 4 ≤ maxHeadBytes → ¬ HeadersExceeded start
  nothing : (readMessage start).1 = .ok [] ↔ EndsBeforeFirstByte start

/-- Every reading keeps its buffer within the limits, refuses just the heads that are too long,
and gives nothing just for a stream without a byte. -/
theorem reading_bounded (start : Socket) : IsBounded start where
  waits _ := exists_waits_of_receives
  within _ _ hwaits := withinLimits_of_open (message?_of_waits hwaits)
  ended _ hends := headersExceeded_iff.trans (headTooLong_of_endsHead hends)
  unended hopen := headersExceeded_iff.trans (headTooLong_of_headOpen hopen)
  spared stream head hstart hends hfits hexceeded := by
    obtain ⟨t, rfl⟩ := hstart
    have hlong := (headersExceeded_iff.1 hexceeded).append t
    rw [headTooLong_of_endsHead hends] at hlong
    omega
  nothing := readMessage_eq_nil_iff.trans endsAtOnce_iff

/-! ## An empty line in two pieces -/

theorem endsHead_line {line : Bytes} (h : Unbroken line) (rest : Bytes) :
    EndsHead line (line ++ (Bytes.emptyLine ++ rest)) := by
  refine ⟨⟨rest, List.append_assoc _ _ _⟩, ?_⟩
  rintro front ⟨more, hsame⟩
  rw [List.append_assoc, emptyLine_eq, emptyLine_eq] at hsame
  exact length_le_of_crlf h hsame.symm

/-- A request line of as many bytes, with the end of its empty line in a second piece. -/
def straddled (count : Nat) : Socket where
  arrivals := [.data (List.replicate count 71 ++ [13, 10, 13]), .data [10]]

theorem endsHead_straddled (count : Nat) :
    EndsHead (List.replicate count 71) (delivered (straddled count)) := by
  have hline : Unbroken (List.replicate count 71) := unbroken_of_not_mem (by simp)
  have hbytes : delivered (straddled count) =
      List.replicate count 71 ++ (Bytes.emptyLine ++ []) := by
    cases count with
    | zero => rfl
    | succ count =>
      simp [delivered, straddled, arriving, List.replicate_succ, Bytes.emptyLine]
  rw [hbytes]
  exact endsHead_line hline []

/-- The first byte behind the limit makes the difference, in whichever piece it comes. -/
theorem reading_bounded_straddled :
    HeadersExceeded (straddled 16381) ∧ ¬ HeadersExceeded (straddled 16380) := by
  have hlong := (reading_bounded (straddled 16381)).ended _ (endsHead_straddled 16381)
  have hshort := (reading_bounded (straddled 16380)).ended _ (endsHead_straddled 16380)
  rw [List.length_replicate] at hlong hshort
  exact ⟨hlong.2 (by decide), fun h => absurd (hshort.1 h) (by decide)⟩

end CannedReply.Proofs.Reading.Bounds
