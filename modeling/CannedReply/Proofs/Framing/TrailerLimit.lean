import CannedReply.Proofs.Framing.Fields
/-!
# The limit on trailers

The reader measures the trailers from the line that it has come to, not from where they start: an
unfinished line that is too long is refused, but short lines can go on without end.  Main
statement: `trailer_limit_kept_iff`.
-/

namespace CannedReply.Proofs.Framing.TrailerLimit

open CannedReply.Framing CannedReply.Framing.Chunked
open CannedReply.Proofs.Cut
open CannedReply.Proofs.Framing.ChunkGrammar
open CannedReply.Proofs.Framing.Fields
open CannedReply.Proofs.Framing.Growth

/-! ## Where trailers start -/

/-- All of a chunked body in front of its trailers. -/
structure Opening where
  chunks : List Chunk
  last : Bytes

namespace Opening

def bytes (o : Opening) : Bytes := o.chunks.flatMap Chunk.bytes ++ (o.last ++ Bytes.crlf)

/-- How much data the chunks hold. -/
def size (o : Opening) : Nat := (o.chunks.flatMap Chunk.data).length

structure Formed (o : Opening) : Prop where
  chunks : ∀ c ∈ o.chunks, c.Formed
  unbroken : Unbroken o.last
  last : IsSizeLine o.last 0

end Opening

theorem chunksFrom_tooLarge {c : Chunk} (hc : c.Formed) {decoded : Nat}
    (hlarge : maxBodyBytes < decoded + c.data.length) (consumed : Nat) (rest : Bytes) :
    chunksFrom consumed decoded (c.bytes ++ rest) = .error .chunkedBodyTooLarge := by
  have hbytes : c.bytes ++ rest =
      c.sizeLine ++ (Bytes.crlf ++ (c.data ++ (Bytes.crlf ++ rest))) := by
    simp [Chunk.bytes]
  have hpos : c.data.length ≠ 0 := by simp [hc.nonempty]
  rw [chunksFrom_eq, hbytes, line?_eq_some_iff.2 ⟨rfl, hc.unbroken⟩]
  dsimp only
  rw [size?_eq_ok_iff.2 hc.size]
  dsimp only
  rw [if_neg hpos, if_pos hlarge]

theorem chunksFrom_opening {o : Opening} (ho : o.Formed) {decoded : Nat}
    (hdecoded : decoded ≤ maxBodyBytes) (consumed : Nat) (t : Bytes) :
    chunksFrom consumed decoded (o.bytes ++ t) =
      if decoded + o.size ≤ maxBodyBytes then trailersFrom (consumed + o.bytes.length) t
      else .error .chunkedBodyTooLarge := by
  obtain ⟨chunks, last⟩ := o
  induction chunks generalizing consumed decoded with
  | nil =>
    have hbytes : Opening.bytes ⟨[], last⟩ ++ t = last ++ (Bytes.crlf ++ t) := by
      simp [Opening.bytes]
    have hlen : (Opening.bytes ⟨[], last⟩).length = last.length + 2 := by
      simp [Opening.bytes, Bytes.crlf]
    rw [if_pos (by simpa [Opening.size] using hdecoded), hbytes,
      chunksFrom_last ho.unbroken ho.last, hlen, Nat.add_assoc]
  | cons c chunks ih =>
    obtain ⟨hc, hchunks⟩ := List.forall_mem_cons.1 ho.chunks
    have hrest : Opening.Formed ⟨chunks, last⟩ := ⟨hchunks, ho.unbroken, ho.last⟩
    have hbytes : Opening.bytes ⟨c :: chunks, last⟩ =
        c.bytes ++ Opening.bytes ⟨chunks, last⟩ := by
      simp [Opening.bytes]
    have hsize : Opening.size ⟨c :: chunks, last⟩ =
        c.data.length + Opening.size ⟨chunks, last⟩ := by
      simp [Opening.size]
    rw [hbytes, hsize, List.append_assoc, List.length_append, ← Nat.add_assoc, ← Nat.add_assoc]
    by_cases hfits : decoded + c.data.length ≤ maxBodyBytes
    · rw [chunksFrom_chunk hc hfits, ih hfits _ hrest]
    · rw [chunksFrom_tooLarge hc (Nat.not_le.1 hfits), if_neg (by omega)]

theorem length?_opening {o : Opening} (ho : o.Formed) (t : Bytes) :
    length? (o.bytes ++ t) =
      if o.size ≤ maxBodyBytes then trailersFrom o.bytes.length t
      else .error .chunkedBodyTooLarge := by
  rw [length?, chunksFrom_opening ho (Nat.zero_le _), Nat.zero_add, Nat.zero_add]

/-! ## What the reader does with trailers -/

variable {lines : List Bytes} {tail : Bytes}

/-- Finished trailer lines are passed over, and leave no trace but the number of their bytes. -/
theorem trailersFrom_lines (h : ∀ l ∈ lines, IsColonLine l) (consumed : Nat) (tail : Bytes) :
    trailersFrom consumed (Body.trailerBytes lines ++ tail) =
      trailersFrom (consumed + (Body.trailerBytes lines).length) tail := by
  induction lines generalizing consumed with
  | nil => rfl
  | cons l lines ih =>
    obtain ⟨hl, hlines⟩ := List.forall_mem_cons.1 h
    have hbytes : Body.trailerBytes (l :: lines) =
        l ++ (Bytes.crlf ++ Body.trailerBytes lines) := by
      simp [Body.trailerBytes]
    have hlen : (Body.trailerBytes (l :: lines)).length =
        l.length + 2 + (Body.trailerBytes lines).length := by
      rw [hbytes]
      simp [Bytes.crlf]
      omega
    rw [hlen, hbytes, List.append_assoc, List.append_assoc, trailersFrom_trailer hl, ih hlines,
      Nat.add_assoc, Nat.add_assoc, Nat.add_assoc]

/-- A line that is no trailer. -/
def IsStray (line : Bytes) : Prop := Unbroken line ∧ line ≠ [] ∧ 58 ∉ line

/-- What can stand behind finished trailer lines. -/
inductive Stops : Bytes → Prop where
  | closed (rest : Bytes) : Stops (Bytes.crlf ++ rest)
  | unfinished {tail : Bytes} : Unbroken tail → Stops tail
  | stray {line : Bytes} (rest : Bytes) : IsStray line → Stops (line ++ (Bytes.crlf ++ rest))

theorem exists_lines_of_trailers (t : Bytes) : ∃ lines tail,
    t = Body.trailerBytes lines ++ tail ∧ (∀ l ∈ lines, IsColonLine l) ∧ Stops tail := by
  induction hlen : t.length using Nat.strong_induction_on generalizing t with
  | _ n ih =>
    subst hlen
    cases hline : Bytes.line? t with
    | none => exact ⟨[], t, rfl, by simp, .unfinished (line?_eq_none_iff.1 hline)⟩
    | some cut =>
      obtain ⟨line, rest⟩ := cut
      obtain ⟨rfl, hunbroken⟩ := line?_eq_some_iff.1 hline
      by_cases hcolon : 58 ∈ line
      · obtain ⟨lines, tail, rfl, hlines, hstops⟩ := ih _ (Bytes.length_lt_of_line? hline) rest rfl
        refine ⟨line :: lines, tail, by simp [Body.trailerBytes], ?_, hstops⟩
        exact List.forall_mem_cons.2 ⟨⟨hunbroken, hcolon⟩, hlines⟩
      · refine ⟨[], _, rfl, by simp, ?_⟩
        by_cases hempty : line = []
        · subst hempty
          exact .closed rest
        · exact .stray rest ⟨hunbroken, hempty, hcolon⟩

theorem trailersFrom_unfinished (h : Unbroken tail) (consumed : Nat) :
    trailersFrom consumed tail =
      if maxHeadBytes < tail.length then .error .trailersTooLarge else .ok none := by
  rw [trailersFrom_eq, line?_eq_none_iff.2 h]

theorem trailersFrom_stray {line : Bytes} (h : IsStray line) (consumed : Nat) (rest : Bytes) :
    trailersFrom consumed (line ++ (Bytes.crlf ++ rest)) = .error .malformedTrailer := by
  obtain ⟨hunbroken, hne, hcolon⟩ := h
  obtain ⟨b, line, rfl⟩ := List.exists_cons_of_ne_nil hne
  have hcontains : ¬ (b :: line).contains 58 = true := fun h => hcolon (List.contains_iff_mem.1 h)
  rw [trailersFrom_eq, line?_eq_some_iff.2 ⟨rfl, hunbroken⟩]
  dsimp only
  rw [if_neg hcontains]

/-! ## Empty lines -/

/-- Trailers that are not closed: no empty line has come, neither at their start nor behind one of
their lines. -/
def Unclosed (t : Bytes) : Prop := ¬ Bytes.crlf <+: t ∧ ¬ Bytes.emptyLine <:+: t

theorem unclosed_unfinished (h : Unbroken tail) : Unclosed tail :=
  ⟨fun hstart => h hstart.isInfix, fun hempty => h (.trans ⟨[], Bytes.crlf, rfl⟩ hempty)⟩

theorem unclosed_line {l t : Bytes} (hl : IsColonLine l) :
    Unclosed (l ++ (Bytes.crlf ++ t)) ↔ Unclosed t := by
  constructor
  · rintro ⟨-, hinside⟩
    refine ⟨?_, fun hempty => hinside (hempty.trans ⟨l ++ Bytes.crlf, [], by simp⟩)⟩
    rintro ⟨rest, rfl⟩
    exact hinside ⟨l, rest, by simp [Bytes.emptyLine, Bytes.crlf]⟩
  · rintro ⟨hstart, hinside⟩
    refine ⟨?_, ?_⟩
    · rintro ⟨rest, hsame⟩
      have hempty : l.length ≤ ([] : Bytes).length := length_le_of_crlf hl.1 hsame.symm
      obtain rfl : l = [] := by simpa using hempty
      exact absurd hl.2 (by simp)
    · rintro ⟨front, rest, hsame⟩
      rw [List.append_assoc, emptyLine_eq] at hsame
      have hle : l.length ≤ front.length := length_le_of_crlf hl.1 hsame.symm
      obtain ⟨more, rfl⟩ : l <+: front :=
        List.prefix_of_prefix_length_le ⟨_, rfl⟩ ⟨_, hsame⟩ hle
      rw [List.append_assoc, List.append_cancel_left_eq] at hsame
      obtain _ | ⟨b, _ | ⟨c, more⟩⟩ := more
      · exact hstart ⟨rest, by simpa using hsame⟩
      · simp [Bytes.crlf] at hsame
      · simp only [Bytes.crlf, List.cons_append, List.nil_append, List.cons.injEq] at hsame
        exact hinside ⟨more, rest, by rw [List.append_assoc]; exact hsame.2.2⟩

theorem unclosed_lines (h : ∀ l ∈ lines, IsColonLine l) :
    Unclosed (Body.trailerBytes lines ++ tail) ↔ Unclosed tail := by
  induction lines with
  | nil => rfl
  | cons l lines ih =>
    obtain ⟨hl, hlines⟩ := List.forall_mem_cons.1 h
    have hbytes : Body.trailerBytes (l :: lines) ++ tail =
        l ++ (Bytes.crlf ++ (Body.trailerBytes lines ++ tail)) := by
      simp [Body.trailerBytes]
    rw [hbytes, unclosed_line hl, ih hlines]

/-! ## The limit -/

/-- Wherever the trailers of `s` start, a body that is complete has no more than the limit of
them, and trailers that have passed the limit without being closed are refused. -/
structure KeepsTrailerLimit (s : Bytes) : Prop where
  complete : ∀ (o : Opening) (t : Bytes), o.Formed → s = o.bytes ++ t →
    ∀ n, length? s = .ok (some n) → n ≤ o.bytes.length + maxHeadBytes
  refused : ∀ (o : Opening) (t : Bytes), o.Formed → s = o.bytes ++ t → Unclosed t →
    maxHeadBytes < t.length → ∃ e, length? s = .error e

/-- The finished trailer lines of `s` leave room below the limit for what the reader does not
refuse behind them: the empty line, or an unfinished line within the limit. -/
def LeavesRoom (s : Bytes) : Prop :=
  ∀ (o : Opening) (lines : List Bytes) (tail : Bytes), o.Formed → o.size ≤ maxBodyBytes →
    (∀ l ∈ lines, IsColonLine l) → s = o.bytes ++ (Body.trailerBytes lines ++ tail) →
    (Bytes.crlf <+: tail → (Body.trailerBytes lines).length + 2 ≤ maxHeadBytes) ∧
    (Unbroken tail → tail.length ≤ maxHeadBytes →
      (Body.trailerBytes lines).length + tail.length ≤ maxHeadBytes)

section Verdicts

variable {o : Opening}

theorem length?_lines (ho : o.Formed) (hfits : o.size ≤ maxBodyBytes)
    (hlines : ∀ l ∈ lines, IsColonLine l) (tail : Bytes) :
    length? (o.bytes ++ (Body.trailerBytes lines ++ tail)) =
      trailersFrom (o.bytes.length + (Body.trailerBytes lines).length) tail := by
  rw [length?_opening ho, if_pos hfits, trailersFrom_lines hlines]

theorem size_le_of_length? {n : Nat} {t : Bytes} (ho : o.Formed)
    (h : length? (o.bytes ++ t) = .ok (some n)) : o.size ≤ maxBodyBytes := by
  rw [length?_opening ho] at h
  by_contra hlarge
  rw [if_neg hlarge] at h
  contradiction

/-- An unfinished line that is not too long is waited for, however many bytes stand before it. -/
theorem length?_of_unfinished (ho : o.Formed) (hfits : o.size ≤ maxBodyBytes)
    (hlines : ∀ l ∈ lines, IsColonLine l) (htail : Unbroken tail)
    (hle : tail.length ≤ maxHeadBytes) :
    length? (o.bytes ++ (Body.trailerBytes lines ++ tail)) = .ok none := by
  rw [length?_lines ho hfits hlines, trailersFrom_unfinished htail, if_neg (Nat.not_lt.2 hle)]

/-- An empty line ends the body, however many bytes stand before it. -/
theorem length?_of_closed (ho : o.Formed) (hfits : o.size ≤ maxBodyBytes)
    (hlines : ∀ l ∈ lines, IsColonLine l) (rest : Bytes) :
    length? (o.bytes ++ (Body.trailerBytes lines ++ (Bytes.crlf ++ rest))) =
      .ok (some (o.bytes.length + (Body.trailerBytes lines).length + 2)) := by
  rw [length?_lines ho hfits hlines, trailersFrom_end]

end Verdicts

theorem leavesRoom_of_keeps {s : Bytes} (h : KeepsTrailerLimit s) : LeavesRoom s := by
  rintro o lines tail ho hfits hlines rfl
  constructor
  · rintro ⟨rest, rfl⟩
    have hle := h.complete o _ ho rfl _ (length?_of_closed ho hfits hlines rest)
    omega
  · intro hunbroken hle
    by_contra hlarge
    have hunclosed := (unclosed_lines hlines).2 (unclosed_unfinished hunbroken)
    obtain ⟨e, he⟩ := h.refused o _ ho rfl hunclosed (by rw [List.length_append]; omega)
    rw [length?_of_unfinished ho hfits hlines hunbroken hle] at he
    contradiction

theorem keeps_of_leavesRoom {s : Bytes} (h : LeavesRoom s) : KeepsTrailerLimit s := by
  constructor
  · rintro o t ho rfl n hn
    have hfits := size_le_of_length? ho hn
    obtain ⟨lines, tail, rfl, hlines, hstops⟩ := exists_lines_of_trailers t
    have hroom := h o lines tail ho hfits hlines rfl
    rw [length?_lines ho hfits hlines] at hn
    cases hstops with
    | closed rest =>
      have hle := hroom.1 ⟨rest, rfl⟩
      rw [trailersFrom_end] at hn
      obtain rfl := Option.some.inj (Except.ok.inj hn)
      omega
    | unfinished hunbroken =>
      rw [trailersFrom_unfinished hunbroken] at hn
      split at hn <;> simp at hn
    | stray rest hstray =>
      rw [trailersFrom_stray hstray] at hn
      contradiction
  · rintro o t ho rfl hunclosed hlarge
    by_cases hfits : o.size ≤ maxBodyBytes
    · obtain ⟨lines, tail, rfl, hlines, hstops⟩ := exists_lines_of_trailers t
      have hroom := h o lines tail ho hfits hlines rfl
      rw [length?_lines ho hfits hlines]
      cases hstops with
      | closed rest => exact absurd ⟨rest, rfl⟩ ((unclosed_lines hlines).1 hunclosed).1
      | unfinished hunbroken =>
        rw [List.length_append] at hlarge
        have hlong : maxHeadBytes < tail.length := by
          by_contra hle
          have hlimit := hroom.2 hunbroken (Nat.not_lt.1 hle)
          omega
        exact ⟨_, by rw [trailersFrom_unfinished hunbroken, if_pos hlong]⟩
      | stray rest hstray => exact ⟨_, trailersFrom_stray hstray _ rest⟩
    · exact ⟨_, by rw [length?_opening ho, if_neg hfits]⟩

/-- The limit holds for just those bodies whose finished trailer lines leave room below it. -/
theorem trailer_limit_kept_iff (s : Bytes) : KeepsTrailerLimit s ↔ LeavesRoom s :=
  ⟨leavesRoom_of_keeps, keeps_of_leavesRoom⟩

/-! ## Trailers without end -/

/-- The last size line and nothing in front of it. -/
def bareOpening : Opening := ⟨[], Bytes.ofText "0"⟩

theorem formed_bareOpening : bareOpening.Formed where
  chunks := by simp [bareOpening]
  unbroken := unbroken_of_not_mem (by decide)
  last := isSizeLine_hexText ⟨.inl rfl, unbroken_of_not_mem (by simp)⟩ 0

/-- As many trailers of two bytes. -/
def briefTrailers (count : Nat) : List Bytes := List.replicate count (Bytes.ofText "a:")

theorem isColonLine_of_mem_briefTrailers {count : Nat} {l : Bytes} (h : l ∈ briefTrailers count) :
    IsColonLine l := by
  rw [(List.mem_replicate.1 h).2]
  exact ⟨unbroken_of_not_mem (by decide), by decide⟩

theorem length_briefTrailers (count : Nat) :
    (Body.trailerBytes (briefTrailers count)).length = count * 4 := by
  rw [Body.trailerBytes, briefTrailers, List.length_flatMap, List.map_replicate, List.sum_replicate]
  rfl

/-- Twenty thousand bytes of trailers are waited for, and are taken with their empty line. -/
theorem many_trailers_pass_the_limit :
    (length? (bareOpening.bytes ++ Body.trailerBytes (briefTrailers 5000)) = .ok none ∧
      ¬ KeepsTrailerLimit (bareOpening.bytes ++ Body.trailerBytes (briefTrailers 5000))) ∧
    length? (bareOpening.bytes ++ (Body.trailerBytes (briefTrailers 5000) ++ Bytes.crlf)) =
        .ok (some 20005) ∧
      ¬ KeepsTrailerLimit
        (bareOpening.bytes ++ (Body.trailerBytes (briefTrailers 5000) ++ Bytes.crlf)) := by
  have hlines : ∀ l ∈ briefTrailers 5000, IsColonLine l := fun _ =>
    isColonLine_of_mem_briefTrailers
  have hlength := length_briefTrailers 5000
  have hempty : Unbroken [] := unbroken_of_not_mem (by simp)
  have hwaits := length?_of_unfinished formed_bareOpening (by decide) hlines hempty (by simp)
  have htaken := length?_of_closed formed_bareOpening (by decide) hlines []
  have hbytes : bareOpening.bytes.length = 3 := rfl
  rw [List.append_nil] at hwaits htaken
  rw [hlength, hbytes] at htaken
  refine ⟨⟨hwaits, fun hkeeps => ?_⟩, htaken, fun hkeeps => ?_⟩
  · have hunclosed := (unclosed_lines hlines).2 (unclosed_unfinished hempty)
    rw [List.append_nil] at hunclosed
    obtain ⟨e, he⟩ := hkeeps.refused _ _ formed_bareOpening rfl hunclosed (by rw [hlength]; decide)
    rw [hwaits] at he
    cases he
  · have hle := hkeeps.complete _ _ formed_bareOpening rfl _ htaken
    rw [hbytes] at hle
    exact absurd hle (by decide)

end CannedReply.Proofs.Framing.TrailerLimit
