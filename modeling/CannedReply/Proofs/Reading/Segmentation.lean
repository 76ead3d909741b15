import CannedReply.Proofs.Reading.Delivery
import Mathlib.Data.Nat.Find
/-!
# Cutting a stream into pieces

The reader frames what it has after every piece.  The pieces decide nothing unless one of them
ends inside a size line or trailer line that is already too long: the reader gives up there, and
goes on if the end of that line comes in the same piece.  Main statement: `cuttings_agree_iff`,
which streams read the same in all pieces.
-/

namespace CannedReply.Proofs.Reading.Segmentation

open CannedReply.Framing CannedReply.Reading
open CannedReply.Proofs.Cut
open CannedReply.Proofs.Framing.Growth
open CannedReply.Proofs.Reading.Receives
open CannedReply.Proofs.Reading.Delivery

/-! ## Streams that fit -/

theorem conclude_of_settled {buffer : Bytes} (h : Settled (message? buffer)) (rest : Bytes) :
    answer? (message? buffer) = some (conclude (buffer ++ rest)) := by
  rw [conclude, message?_append h]
  cases hverdict : message? buffer with
  | error e => rfl
  | ok verdict =>
    cases verdict with
    | some message => rfl
    | none => simp [hverdict] at h

/-- No prefix of the stream ends inside a line that is too long already. -/
def Fits (stream : Bytes) : Prop :=
  ∀ n e, message? (stream.take n) = .error e → isOverlong e = false

/-- The pieces decide nothing unless the reader gives up at a line that is too long. -/
theorem read_eq_conclude {rest : Bytes} {s : Socket} (h : Carries rest s) (buffer : Bytes)
    (hfit : Fits (buffer ++ rest)) :
    (readFrom buffer s).1 = conclude (buffer ++ rest) := by
  induction hn : rest.length using Nat.strongRecOn generalizing rest buffer s with
  | ind n ih =>
    obtain hanswer | ⟨hopen, ⟨rfl, hend⟩ | ⟨piece, rest', s', hne, -, rfl, hnext, hturn⟩⟩ :=
      readFrom_turn h buffer
    · have hsettled : Settled (message? buffer) := by
        match hverdict : message? buffer with
        | .error e => exact hfit buffer.length e (by simp [hverdict])
        | .ok (some message) => simp
        | .ok none => simp [hverdict, answer?] at hanswer
      rw [conclude_of_settled hsettled rest] at hanswer
      exact (Option.some.inj hanswer).symm
    · rw [hend, List.append_nil]
    · rw [← List.append_assoc] at hfit
      have hshort : rest'.length < n := by
        have hpos := List.length_pos_iff.2 hne
        rw [← hn, List.length_append]
        omega
      rw [hturn, ih _ hshort hnext (buffer ++ piece) hfit rfl, List.append_assoc]

/-- A stretch of the stream that no receive can pass over, where the reader gives up with `e` at
every byte, and no line before it that is too long in another way. -/
def Unavoidable (stream : Bytes) (e : Framing.Error) : Prop :=
  ∃ k ≤ stream.length,
    (∀ m, k ≤ m → m ≤ stream.length → m < k + receiveLimit →
      message? (stream.take m) = .error e) ∧
    ∀ m < k, ∀ e', message? (stream.take m) = .error e' → isOverlong e' = true → e' = e

theorem read_of_unavoidable {buffer rest : Bytes} {s : Socket} {e : Framing.Error} {k : Nat}
    (h : Carries rest s) (hk : k ≤ (buffer ++ rest).length)
    (hstretch : ∀ m, k ≤ m → m ≤ (buffer ++ rest).length → m < k + receiveLimit →
      message? ((buffer ++ rest).take m) = .error e)
    (hbefore : ∀ m < k, ∀ e', message? ((buffer ++ rest).take m) = .error e' →
      isOverlong e' = true → e' = e)
    (hbuffer : buffer.length < k + receiveLimit) :
    (readFrom buffer s).1 = .error (.framing e) := by
  induction hn : rest.length using Nat.strongRecOn generalizing rest buffer s with
  | ind n ih =>
    have hhere : (buffer ++ rest).take buffer.length = buffer := List.take_left
    have hwithin : buffer.length ≤ (buffer ++ rest).length := by simp
    rcases Nat.lt_or_ge buffer.length k with hlt | hge
    · have hgrown : (buffer ++ rest).take k = buffer ++ rest.take (k - buffer.length) := by
        rw [List.take_append, List.take_of_length_le (Nat.le_of_lt hlt)]
      have hat := hstretch k (Nat.le_refl k) hk (Nat.lt_add_of_pos_right (by decide))
      rw [hgrown] at hat
      by_cases hsettled : Settled (message? buffer)
      · rw [message?_append hsettled] at hat
        rw [readFrom_eq, hat]
      · match hverdict : message? buffer with
        | .error e' =>
          have hoverlong : isOverlong e' = true := by simpa [hverdict] using hsettled
          have hsame := hbefore buffer.length hlt e' (by rw [hhere, hverdict]) hoverlong
          rw [readFrom_eq, hverdict, hsame]
        | .ok (some message) => simp [hverdict] at hsettled
        | .ok none =>
          obtain hanswer | ⟨-, ⟨rfl, -⟩ | ⟨piece, rest', s', hne, hle, rfl, hnext, hturn⟩⟩ :=
            readFrom_turn h buffer
          · simp [hverdict, answer?] at hanswer
          · simp at hk
            omega
          · have hshort : rest'.length < n := by
              have hpos := List.length_pos_iff.2 hne
              rw [← hn, List.length_append]
              omega
            rw [← List.append_assoc] at hk hstretch hbefore
            rw [hturn]
            refine ih _ hshort hnext hk hstretch hbefore ?_ rfl
            rw [List.length_append]
            omega
    · have hverdict := hstretch buffer.length hge hwithin hbuffer
      rw [hhere] at hverdict
      rw [readFrom_eq, hverdict]

/-- A stream in which no line is ever too long, or one that is too long in every cutting. -/
theorem cuttings_agree {stream : Bytes}
    (h : Fits stream ∨ ∃ e, isOverlong e = true ∧ Unavoidable stream e) :
    ∃ result, ∀ pieces, IsCutting stream pieces → readPieces pieces = result := by
  rcases h with hfit | ⟨e, -, k, hk, hstretch, hbefore⟩
  · exact ⟨conclude stream, fun pieces hcut =>
      read_eq_conclude (carries_of_isCutting hcut) [] hfit⟩
  · refine ⟨.error (.framing e), fun pieces hcut => ?_⟩
    exact read_of_unavoidable (carries_of_isCutting hcut) (by simpa using hk) hstretch hbefore
      (by simp [receiveLimit])

/-- The reader comes to the first byte that ends its reading if the bytes arrive one by one. -/
theorem readFrom_singles {stream : Bytes} {e : Framing.Error} {n i : Nat}
    (hn : n ≤ stream.length) (hi : i ≤ n)
    (hopen : ∀ m, i ≤ m → m < n → message? (stream.take m) = .ok none)
    (hend : message? (stream.take n) = .error e) {s : Socket}
    (h : Delivers ((stream.drop i).map ([·])) s) (hpending : s.pending = []) :
    (readFrom (stream.take i) s).1 = .error (.framing e) := by
  induction hk : n - i generalizing i s with
  | zero =>
    obtain rfl : i = n := by omega
    rw [readFrom_eq, hend]
  | succ k ih =>
    have hlt : i < stream.length := by omega
    rw [List.drop_eq_getElem_cons hlt, List.map_cons] at h
    obtain ⟨s', hreceive, hnext, hleft⟩ := receive_whole h hpending (by simp [receiveLimit])
    rw [readFrom_of_piece (hopen i (Nat.le_refl i) (by omega)) hreceive (by simp),
      List.take_append_getElem hlt]
    exact ih (by omega) (fun m hm => hopen m (by omega)) hnext hleft (by omega)

/-- Past a byte that starts no unavoidable stretch, a receive can end where the reader does not
give up with `e`, and only such lines are too long on the way. -/
private theorem exists_landing {stream : Bytes} {e : Framing.Error} (h : ¬ Unavoidable stream e)
    {i : Nat} (hi : i < stream.length) (hopen : message? (stream.take i) = .ok none)
    (hbefore : ∀ m < i, ∀ e', message? (stream.take m) = .error e' → isOverlong e' = true →
      e' = e) :
    ∃ m, i < m ∧ m ≤ stream.length ∧ m ≤ i + receiveLimit ∧
      message? (stream.take m) ≠ .error e ∧
      ∀ m' < m, ∀ e', message? (stream.take m') = .error e' → isOverlong e' = true → e' = e := by
  classical
  have hthrough : ∀ m < i + 1, ∀ e', message? (stream.take m) = .error e' →
      isOverlong e' = true → e' = e := by
    intro m hm e' hverdict hoverlong
    rcases Nat.eq_or_lt_of_le (Nat.le_of_lt_succ hm) with rfl | hlt
    · simp [hopen] at hverdict
    · exact hbefore m hlt e' hverdict hoverlong
  have hexists : ∃ m, i < m ∧ m ≤ stream.length ∧ m ≤ i + receiveLimit ∧
      message? (stream.take m) ≠ .error e := by
    by_contra hnone
    refine h ⟨i + 1, hi, fun m him hm hle => ?_, hthrough⟩
    by_contra hverdict
    exact hnone ⟨m, him, hm, by omega, hverdict⟩
  -- The first such place: every byte before it is inside a line that `e` reports.
  have hspec := Nat.find_spec hexists
  have hmin := fun m hm => Nat.find_min (m := m) hexists hm
  generalize Nat.find hexists = m at hspec hmin
  obtain ⟨him, hm, hle, hverdict⟩ := hspec
  refine ⟨m, him, hm, hle, hverdict, fun m' hm' e' hverdict' hoverlong => ?_⟩
  rcases Nat.lt_or_ge m' (i + 1) with hlow | hhigh
  · exact hthrough m' hlow e' hverdict' hoverlong
  · by_contra hne
    refine hmin m' hm' ⟨hhigh, by omega, by omega, ?_⟩
    rw [hverdict']
    exact fun heq => hne (Except.error.inj heq)

/-- Where no stretch is unavoidable, some cutting passes over every line that is too long. -/
theorem exists_cutting_ne {stream : Bytes} {e : Framing.Error} (h : ¬ Unavoidable stream e)
    {i : Nat} (hi : i ≤ stream.length) (hopen : message? (stream.take i) = .ok none)
    (hbefore : ∀ m < i, ∀ e', message? (stream.take m) = .error e' → isOverlong e' = true →
      e' = e) :
    ∃ pieces, IsCutting (stream.drop i) pieces ∧ ∀ s, Delivers pieces s → s.pending = [] →
      (readFrom (stream.take i) s).1 ≠ .error (.framing e) := by
  induction hk : stream.length - i using Nat.strongRecOn generalizing i with
  | ind k ih =>
    rcases Nat.eq_or_lt_of_le hi with rfl | hlt
    · refine ⟨[], ⟨by simp, by simp⟩, fun s hdelivers hpending => ?_⟩
      obtain ⟨s', hreceive⟩ :=
        receive_of_carries_nil ⟨[], hdelivers, by simp [hpending]⟩ receiveLimit
      rw [readFrom_eq, hopen, hreceive]
      dsimp only
      split <;> simp
    · obtain ⟨m, him, hm, hle, hne, hbefore'⟩ := exists_landing h hlt hopen hbefore
      have hbehind : ∃ pieces, IsCutting (stream.drop m) pieces ∧ ∀ s, Delivers pieces s →
          s.pending = [] → (readFrom (stream.take m) s).1 ≠ .error (.framing e) := by
        match hverdict : message? (stream.take m) with
        | .ok none => exact ih _ (by omega) hm hverdict hbefore' rfl
        | .ok (some message) =>
          refine ⟨_, isCutting_singles _, fun s _ _ => ?_⟩
          simp [readFrom_eq, hverdict]
        | .error e' =>
          refine ⟨_, isCutting_singles _, fun s _ _ => ?_⟩
          rw [hverdict] at hne
          simpa [readFrom_eq, hverdict] using fun heq => hne (congrArg Except.error heq)
      obtain ⟨pieces, hcut, hread⟩ := hbehind
      have hjoin : stream.take i ++ (stream.drop i).take (m - i) = stream.take m := by
        rw [← List.take_add, Nat.add_sub_cancel' (Nat.le_of_lt him)]
      have hrest : (stream.drop i).take (m - i) ++ stream.drop m = stream.drop i := by
        have hdrop : stream.drop m = (stream.drop i).drop (m - i) := by
          rw [List.drop_drop, Nat.add_sub_cancel' (Nat.le_of_lt him)]
        rw [hdrop, List.take_append_drop]
      have hpiece : (stream.drop i).take (m - i) ≠ [] := by
        simp; omega
      refine ⟨(stream.drop i).take (m - i) :: pieces, ⟨?_, ?_⟩, fun s hdelivers hpending => ?_⟩
      · rw [List.flatten_cons, hcut.flatten, hrest]
      · simpa [hpiece] using hcut.nonempty
      · obtain ⟨s', hreceive, hnext, hleft⟩ := receive_whole hdelivers hpending (by simp; omega)
        rw [readFrom_of_piece hopen hreceive hpiece, hjoin]
        exact hread s' hnext hleft

/-- The first byte that ends the reading of a stream with a line that is too long. -/
private theorem exists_first_overlong {stream : Bytes} (h : ¬ Fits stream) :
    ∃ n ≤ stream.length, ∃ e, message? (stream.take n) = .error e ∧ isOverlong e = true ∧
      ∀ m < n, message? (stream.take m) = .ok none := by
  classical
  simp only [Fits, not_forall, Bool.not_eq_false] at h
  obtain ⟨k, e, hverdict, hoverlong⟩ := h
  have hexists : ∃ n, message? (stream.take n) ≠ .ok none := ⟨k, by simp [hverdict]⟩
  have hspec := Nat.find_spec hexists
  have hmin := fun m hm => Nat.find_min (m := m) hexists hm
  have hle := Nat.find_min' hexists (m := k) (by simp [hverdict])
  generalize Nat.find hexists = n at hspec hmin hle
  have hopen : ∀ m < n, message? (stream.take m) = .ok none := fun m hm => by
    simpa using hmin m hm
  have hn : n ≤ stream.length := by
    by_contra hlt
    have hwhole := hopen stream.length (by omega)
    rw [List.take_length, ← List.take_of_length_le (by omega : stream.length ≤ n)] at hwhole
    exact hspec hwhole
  -- A verdict that is settled here would still be the verdict on the longer prefix.
  have hgrown : stream.take k = stream.take n ++ (stream.drop n).take (k - n) := by
    rw [← List.take_add, Nat.add_sub_cancel' hle]
  have hunsettled : ¬ Settled (message? (stream.take n)) := by
    intro hsettled
    rw [hgrown, message?_append hsettled] at hverdict
    rw [hverdict, settled_error, hoverlong] at hsettled
    contradiction
  match hfirst : message? (stream.take n) with
  | .ok none => exact absurd hfirst hspec
  | .ok (some message) => simp [hfirst] at hunsettled
  | .error e' => exact ⟨n, hn, e', hfirst, by simpa [hfirst] using hunsettled, hopen⟩

/-- A stream reads the same in all pieces exactly if none of its lines is ever too long, or if
one is too long over such a stretch that every cutting meets it. -/
theorem cuttings_agree_iff (stream : Bytes) :
    (∀ pieces pieces', IsCutting stream pieces → IsCutting stream pieces' →
        readPieces pieces = readPieces pieces') ↔
      Fits stream ∨ ∃ e, isOverlong e = true ∧ Unavoidable stream e := by
  constructor
  · intro hagree
    by_cases hfit : Fits stream
    · exact .inl hfit
    · obtain ⟨n, hn, e, hverdict, hoverlong, hopen⟩ := exists_first_overlong hfit
      refine .inr ⟨e, hoverlong, ?_⟩
      by_contra havoid
      have hsingles := isCutting_singles stream
      have hgives : readPieces (stream.map ([·])) = .error (.framing e) :=
        readFrom_singles hn (Nat.zero_le n) (fun m _ hm => hopen m hm) hverdict
          ⟨rfl, rfl, hsingles.nonempty⟩ rfl
      obtain ⟨pieces, hcut, hpasses⟩ :=
        exists_cutting_ne havoid (Nat.zero_le stream.length) rfl (fun m hm => absurd hm (by omega))
      refine hpasses { arrivals := pieces.map .data } ⟨rfl, rfl, hcut.nonempty⟩ rfl ?_
      exact (hagree pieces _ hcut hsingles).trans hgives
  · intro h pieces pieces' hcut hcut'
    obtain ⟨result, hresult⟩ := cuttings_agree h
    rw [hresult pieces hcut, hresult pieces' hcut']

/-! ## A line that is too long only in pieces -/

/-- The head of a message in chunks. -/
def chunkedHead : Bytes := Bytes.ofText "POST / HTTP/1.1\r\nTransfer-Encoding: chunked"

/-- A last size line with an extension of the given length. -/
def lastSizeLine (count : Nat) : Bytes := 48 :: 59 :: List.replicate count 120

theorem line?_lastSizeLine (count : Nat) : Bytes.line? (lastSizeLine count) = none :=
  line?_eq_none (by simp [lastSizeLine])

theorem size?_lastSizeLine (count : Nat) : Chunked.size? (lastSizeLine count) = .ok 0 := by
  have htoken :
      Delimiter.trim Bytes.isBlank (Delimiter.before [59] (lastSizeLine count)) = [48] := rfl
  have hdigits : Numeral.digits? Bytes.hexDigit? (Numeral.dropHexMark [48]) = some [0] := rfl
  simp [Chunked.size?, htoken, Numeral.hexadecimal?, Numeral.sign, hdigits, Numeral.value,
    Numeral.signed]

theorem message?_chunkedHead (rest : Bytes) :
    message? (chunkedHead ++ (Bytes.emptyLine ++ rest)) =
      (Chunked.length? rest).map fun length => length.map fun n =>
        (chunkedHead ++ (Bytes.emptyLine ++ rest)).take (chunkedHead.length + 4 + n) := by
  have hcut : Delimiter.cut? Bytes.emptyLine (chunkedHead ++ Bytes.emptyLine) =
      some (chunkedHead, []) := rfl
  have hencoding : Head.transferEncoding? chunkedHead = .ok (some (Bytes.ofText "chunked")) := rfl
  have hchunked : isChunked (Bytes.ofText "chunked") = true := rfl
  rw [← List.append_assoc, message?, cut?_append hcut rest]
  dsimp only [List.nil_append]
  rw [if_neg (by decide), bodyLength?_eq, hencoding]
  simp only [Option.map_some, Option.getD_some, hchunked, if_true]

theorem message?_open_size_line {count : Nat} (h : maxHeadBytes < count + 2) :
    message? (chunkedHead ++ (Bytes.emptyLine ++ lastSizeLine count)) =
      .error .chunkSizeTooLong := by
  rw [message?_chunkedHead, Chunked.length?, chunksFrom_eq, line?_lastSizeLine]
  simp [lastSizeLine, h, Except.map]

theorem message?_ended_size_line (count : Nat) :
    message? (chunkedHead ++ (Bytes.emptyLine ++ (lastSizeLine count ++ Bytes.emptyLine))) =
      .ok (some (chunkedHead ++
        (Bytes.emptyLine ++ (lastSizeLine count ++ Bytes.emptyLine)))) := by
  have hline : Bytes.line? (lastSizeLine count ++ Bytes.emptyLine) =
      some (lastSizeLine count, Bytes.crlf) :=
    line?_append (line?_lastSizeLine count) Bytes.crlf
  have hend : Bytes.line? Bytes.crlf = some ([], []) := rfl
  have hlength : Chunked.length? (lastSizeLine count ++ Bytes.emptyLine) =
      .ok (some (0 + (lastSizeLine count).length + 2 + 2)) := by
    rw [Chunked.length?, chunksFrom_eq, hline]
    simp only [size?_lastSizeLine, if_true]
    rw [trailersFrom_eq, hend]
  rw [message?_chunkedHead, hlength]
  simp only [Except.map, Option.map_some, Except.ok.injEq, Option.some.injEq]
  exact List.take_of_length_le (by simp [Bytes.emptyLine]; omega)

/-- A message up to a last size line whose end is still to come. -/
def untilSizeLine (count : Nat) : Bytes :=
  chunkedHead ++ (Bytes.emptyLine ++ lastSizeLine count)

/-- A size line that is too long is accepted if its end comes with it, and refused otherwise. -/
theorem cut_decides_size_line (count : Nat) (hlong : maxHeadBytes < count + 2)
    (hfits : chunkedHead.length + count + 10 ≤ receiveLimit) :
    IsCutting (untilSizeLine count ++ Bytes.emptyLine)
        [untilSizeLine count ++ Bytes.emptyLine] ∧
      IsCutting (untilSizeLine count ++ Bytes.emptyLine)
        [untilSizeLine count, Bytes.emptyLine] ∧
      readPieces [untilSizeLine count ++ Bytes.emptyLine] =
        .ok (untilSizeLine count ++ Bytes.emptyLine) ∧
      readPieces [untilSizeLine count, Bytes.emptyLine] =
        .error (.framing .chunkSizeTooLong) := by
  have hfront : untilSizeLine count ≠ [] := by simp [untilSizeLine, lastSizeLine]
  have hback : Bytes.emptyLine ≠ [] := by simp [Bytes.emptyLine]
  have hlen : (untilSizeLine count).length = chunkedHead.length + count + 6 := by
    simp [untilSizeLine, lastSizeLine, Bytes.emptyLine]
    omega
  refine ⟨⟨by simp, by simp [hfront]⟩, ⟨by simp, by simp [hfront, hback]⟩, ?_, ?_⟩
  · refine readPieces_whole (by simp [hfront]) (by simp) ?_ ?_
    · rw [List.length_append, hlen]
      simpa [Bytes.emptyLine] using hfits
    · rw [untilSizeLine, List.append_assoc, List.append_assoc, message?_ended_size_line]
      rfl
  · refine readPieces_whole hfront (by simp [hback]) (by omega) ?_
    rw [untilSizeLine, message?_open_size_line hlong]
    rfl

theorem cut_decides_long_size_line :
    IsCutting (untilSizeLine 16383 ++ Bytes.emptyLine)
        [untilSizeLine 16383 ++ Bytes.emptyLine] ∧
      IsCutting (untilSizeLine 16383 ++ Bytes.emptyLine)
        [untilSizeLine 16383, Bytes.emptyLine] ∧
      readPieces [untilSizeLine 16383 ++ Bytes.emptyLine] ≠
        readPieces [untilSizeLine 16383, Bytes.emptyLine] := by
  obtain ⟨hwhole, hcut, haccepted, hrefused⟩ :=
    cut_decides_size_line 16383 (by decide) (by decide)
  refine ⟨hwhole, hcut, ?_⟩
  rw [haccepted, hrefused]
  simp

end CannedReply.Proofs.Reading.Segmentation
