import CannedReply.Bytes
/-!
# First occurrences

What a cut finds, as a statement about lists: the front holds no earlier occurrence of the
delimiter, and no cut means no occurrence at all.  A cut that is found in a list stays where it
is however the list goes on.
-/

namespace CannedReply.Proofs.Cut

open Delimiter

private theorem cutFrom_eq_map {α : Type} [BEq α] (delimiter passed s : List α) :
    cutFrom delimiter passed s =
      (cutFrom delimiter [] s).map fun cut => (passed.reverse ++ cut.1, cut.2) := by
  induction s generalizing passed with
  | nil =>
    unfold cutFrom
    split <;> simp
  | cons x s ih =>
    unfold cutFrom
    split
    · simp
    · rw [ih (x :: passed), ih [x], Option.map_map]
      simp [Function.comp_def]

theorem cut?_nil {α : Type} [BEq α] (delimiter : List α) :
    cut? delimiter [] = if delimiter.isEmpty then some ([], []) else none :=
  rfl

theorem cut?_cons {α : Type} [BEq α] (delimiter : List α) (x : α) (s : List α) :
    cut? delimiter (x :: s) =
      if delimiter.isPrefixOf (x :: s) then some ([], (x :: s).drop delimiter.length)
      else (cut? delimiter s).map fun cut => (x :: cut.1, cut.2) := by
  rw [cut?, cutFrom, cutFrom_eq_map delimiter [x] s]
  rfl

/-- An occurrence that ends within `s` is an occurrence in `s`. -/
private theorem eq_append_of_append_eq {α : Type} {delimiter front rest s t : List α}
    (h : s ++ t = front ++ (delimiter ++ rest))
    (hle : front.length + delimiter.length ≤ s.length) :
    ∃ rest', s = front ++ (delimiter ++ rest') ∧ rest = rest' ++ t := by
  rw [← List.append_assoc] at h
  obtain ⟨more, hshort, ht⟩ | ⟨rest', hs, hrest⟩ := List.append_eq_append_iff.1 h
  · have hlen := congrArg List.length hshort
    simp only [List.length_append] at hlen
    obtain rfl : more = [] := List.eq_nil_of_length_eq_zero (by omega)
    exact ⟨[], by simpa using hshort.symm, by simpa using ht.symm⟩
  · exact ⟨rest', by rw [hs, List.append_assoc], hrest⟩

variable {α : Type} [BEq α] [LawfulBEq α] {delimiter front rest s t : List α}

theorem cut?_eq_none_iff :
    cut? delimiter s = none ↔ ∀ front rest, s ≠ front ++ (delimiter ++ rest) := by
  induction s with
  | nil =>
    rw [cut?_nil]
    cases delimiter <;> simp
  | cons x s ih =>
    rw [cut?_cons]
    constructor
    · intro h front rest hs
      split at h
      · contradiction
      · rename_i hprefix
        cases front with
        | nil => exact hprefix (List.isPrefixOf_iff_prefix.2 ⟨rest, hs.symm⟩)
        | cons y front =>
          obtain ⟨-, hs⟩ := List.cons.inj hs
          exact ih.1 (Option.map_eq_none_iff.1 h) front rest hs
    · intro h
      rw [if_neg, Option.map_eq_none_iff, ih]
      · intro front rest hs
        exact h (x :: front) rest (congrArg (x :: ·) hs)
      · intro hprefix
        obtain ⟨rest, hs⟩ := List.isPrefixOf_iff_prefix.1 hprefix
        exact h [] rest hs.symm

theorem cut?_eq_none_iff_isInfix : cut? delimiter s = none ↔ ¬ delimiter <:+: s := by
  rw [cut?_eq_none_iff]
  constructor
  · rintro h ⟨front, rest, hs⟩
    exact h front rest (by rw [← hs, List.append_assoc])
  · intro h front rest hs
    exact h ⟨front, rest, by rw [hs, List.append_assoc]⟩

/-- No occurrence of the delimiter starts before the one that a cut finds. -/
theorem length_le_of_cut? (h : cut? delimiter s = some (front, rest))
    {front' rest' : List α} (hs : s = front' ++ (delimiter ++ rest')) :
    front.length ≤ front'.length := by
  induction s generalizing front front' with
  | nil =>
    obtain ⟨rfl, -⟩ := List.append_eq_nil_iff.1 (append_of_cut? h).symm
    exact Nat.zero_le _
  | cons x s ih =>
    rw [cut?_cons] at h
    split at h
    · simp only [Option.some.injEq, Prod.mk.injEq] at h
      simp [← h.1]
    · rename_i hprefix
      obtain ⟨⟨found, _⟩, hcut, heq⟩ := Option.map_eq_some_iff.1 h
      simp only [Prod.mk.injEq] at heq
      cases front' with
      | nil => exact absurd (List.isPrefixOf_iff_prefix.2 ⟨rest', hs.symm⟩) hprefix
      | cons y front' =>
        have hfound : cut? delimiter s = some (found, rest) := heq.2 ▸ hcut
        have hle := ih hfound (List.cons.inj hs).2
        simp only [← heq.1, List.length_cons]
        omega

theorem cut?_eq_some_iff :
    cut? delimiter s = some (front, rest) ↔
      s = front ++ (delimiter ++ rest) ∧
        ∀ front' rest', s = front' ++ (delimiter ++ rest') → front.length ≤ front'.length := by
  constructor
  · intro h
    exact ⟨append_of_cut? h, fun _ _ hs => length_le_of_cut? h hs⟩
  · rintro ⟨hs, hfirst⟩
    cases hcut : cut? delimiter s with
    | none => exact absurd hs (cut?_eq_none_iff.1 hcut front rest)
    | some cut =>
      obtain ⟨found, tail⟩ := cut
      have hsame : found.length = front.length :=
        Nat.le_antisymm (length_le_of_cut? hcut hs) (hfirst _ _ (append_of_cut? hcut))
      have happend := (append_of_cut? hcut).symm.trans hs
      obtain ⟨rfl, htail⟩ := List.append_inj happend hsame
      rw [List.append_cancel_left htail]

theorem cut?_append (h : cut? delimiter s = some (front, rest)) (t : List α) :
    cut? delimiter (s ++ t) = some (front, rest ++ t) := by
  have hs := append_of_cut? h
  refine cut?_eq_some_iff.2 ⟨by rw [hs]; simp, fun front' rest' hgrown => ?_⟩
  have hlen := congrArg List.length hs
  simp only [List.length_append] at hlen
  rcases Nat.le_total front.length front'.length with hle | hlt
  · exact hle
  · obtain ⟨tail, hs', -⟩ := eq_append_of_append_eq hgrown (by omega)
    exact length_le_of_cut? h hs'

/-- A delimiter that comes with the rest of a list ends behind what was there before. -/
theorem length_lt_of_cut?_append (hnone : cut? delimiter s = none)
    (h : cut? delimiter (s ++ t) = some (front, rest)) :
    s.length < front.length + delimiter.length := by
  rcases Nat.lt_or_ge s.length (front.length + delimiter.length) with hlt | hle
  · exact hlt
  · obtain ⟨tail, hs, -⟩ := eq_append_of_append_eq (append_of_cut? h) hle
    exact absurd hs (cut?_eq_none_iff.1 hnone front tail)

/-- A list that ends before the first delimiter does holds none. -/
theorem cut?_of_short (h : cut? delimiter (s ++ t) = some (front, rest))
    (hshort : s.length < front.length + delimiter.length) : cut? delimiter s = none := by
  cases hcut : cut? delimiter s with
  | none => rfl
  | some cut =>
    obtain ⟨found, tail⟩ := cut
    have hlen := congrArg List.length (append_of_cut? hcut)
    rw [cut?_append hcut t] at h
    obtain ⟨rfl, -⟩ := Prod.mk.inj (Option.some.inj h)
    simp only [List.length_append] at hlen
    omega

/-! ## Single elements -/

theorem cut?_singleton_eq_some_iff {α : Type} [BEq α] [LawfulBEq α] {x : α}
    {s front rest : List α} :
    cut? [x] s = some (front, rest) ↔ s = front ++ x :: rest ∧ x ∉ front := by
  rw [cut?_eq_some_iff]
  constructor
  · rintro ⟨rfl, hfirst⟩
    refine ⟨rfl, fun hmem => ?_⟩
    obtain ⟨front', more, rfl⟩ := List.append_of_mem hmem
    have hle := hfirst front' (more ++ ([x] ++ rest)) (by simp)
    simp only [List.length_append, List.length_cons] at hle
    omega
  · rintro ⟨rfl, hnot⟩
    refine ⟨rfl, fun front' rest' hsame => ?_⟩
    obtain ⟨more, rfl, -⟩ | ⟨more, rfl, hrest⟩ := List.append_eq_append_iff.1 hsame
    · simp
    · cases more with
      | nil => simp
      | cons y more =>
        obtain ⟨rfl, -⟩ := List.cons.inj hrest
        simp at hnot

theorem cut?_singleton_eq_none_iff {α : Type} [BEq α] [LawfulBEq α] {x : α} {s : List α} :
    cut? [x] s = none ↔ x ∉ s := by
  rw [cut?_eq_none_iff]
  constructor
  · intro hnone hmem
    obtain ⟨front, rest, rfl⟩ := List.append_of_mem hmem
    exact hnone front rest rfl
  · rintro hnot front rest rfl
    simp at hnot

theorem before_singleton_eq_iff {α : Type} [BEq α] [LawfulBEq α] {x : α} {s front : List α} :
    before [x] s = front ↔ x ∉ front ∧ (s = front ∨ ∃ rest, s = front ++ x :: rest) := by
  unfold before
  cases hcut : cut? [x] s with
  | none =>
    have hnot := cut?_singleton_eq_none_iff.1 hcut
    constructor
    · rintro rfl
      exact ⟨hnot, .inl rfl⟩
    · rintro ⟨-, rfl | ⟨rest, rfl⟩⟩
      · rfl
      · simp at hnot
  | some cut =>
    obtain ⟨first, tail⟩ := cut
    obtain ⟨rfl, hnot⟩ := cut?_singleton_eq_some_iff.1 hcut
    constructor
    · rintro rfl
      exact ⟨hnot, .inr ⟨tail, rfl⟩⟩
    · rintro ⟨hfront, rfl | ⟨rest, hsame⟩⟩
      · simp at hfront
      · have hcut' := cut?_singleton_eq_some_iff.2 ⟨hsame, hfront⟩
        rw [hcut] at hcut'
        exact congrArg Prod.fst (Option.some.inj hcut')

/-! ## Lines -/

/-- A line that holds no CR LF ends at the next one, also if it ends in CR itself. -/
theorem line?_append {line : Bytes} (h : Bytes.line? line = none) (rest : Bytes) :
    Bytes.line? (line ++ (Bytes.crlf ++ rest)) = some (line, rest) := by
  refine cut?_eq_some_iff.2 ⟨rfl, fun front rest' hsame => ?_⟩
  obtain ⟨more, rfl, -⟩ | ⟨more, hline, htail⟩ := List.append_eq_append_iff.1 hsame
  · simp
  · match more with
    | [] => simp [hline]
    | [b] => simp [Bytes.crlf] at htail
    | b :: c :: more =>
      simp only [Bytes.crlf, List.cons_append, List.nil_append, List.cons.injEq] at htail
      obtain ⟨rfl, rfl, -⟩ := htail
      exact absurd hline (cut?_eq_none_iff.1 h front more)

/-- Bytes that hold no CR LF. -/
def Unbroken (line : Bytes) : Prop := ¬ Bytes.crlf <:+: line

theorem line?_eq_none_iff {line : Bytes} : Bytes.line? line = none ↔ Unbroken line :=
  cut?_eq_none_iff_isInfix

theorem line?_eq_some_iff {s line rest : Bytes} :
    Bytes.line? s = some (line, rest) ↔ s = line ++ (Bytes.crlf ++ rest) ∧ Unbroken line := by
  constructor
  · intro h
    have hs := Bytes.append_of_line? h
    refine ⟨hs, ?_⟩
    rintro ⟨front, more, rfl⟩
    have hearlier : front ++ Bytes.crlf ++ more ++ (Bytes.crlf ++ rest) =
        front ++ (Bytes.crlf ++ (more ++ (Bytes.crlf ++ rest))) := by
      simp
    have hle := length_le_of_cut? h (hs.trans hearlier)
    simp only [List.length_append, Bytes.crlf, List.length_cons] at hle
    omega
  · rintro ⟨rfl, hline⟩
    exact line?_append (line?_eq_none_iff.2 hline) rest

/-- A CR LF behind bytes without CR lies behind them as a whole. -/
theorem unbroken_append {front line : Bytes} (hfront : 13 ∉ front) (hline : Unbroken line) :
    Unbroken (front ++ line) := by
  rintro ⟨before, after, hsame⟩
  rw [List.append_assoc] at hsame
  obtain ⟨more, hfront', hmore⟩ | ⟨more, -, hmore⟩ := List.append_eq_append_iff.1 hsame
  · cases more with
    | nil => exact hline ⟨[], after, by simpa using hmore⟩
    | cons b more =>
      obtain ⟨rfl, -⟩ := List.cons.inj hmore
      simp [hfront'] at hfront
  · exact hline ⟨more, after, by rw [hmore, List.append_assoc]⟩

/-- Nothing but a CR or an LF can make two unbroken parts into broken bytes. -/
theorem unbroken_append_cons {s t : Bytes} {b : UInt8} (hs : Unbroken s) (ht : Unbroken t)
    (hcr : b ≠ 13) (hlf : b ≠ 10) : Unbroken (s ++ b :: t) := by
  rintro ⟨front, rest, hsame⟩
  rw [List.append_assoc] at hsame
  obtain ⟨more, hfront, hmore⟩ | ⟨more, -, hmore⟩ := List.append_eq_append_iff.1 hsame
  · match more with
    | [] => simp_all [Bytes.crlf]
    | [c] => simp_all [Bytes.crlf]
    | c :: d :: more =>
      simp only [Bytes.crlf, List.cons_append, List.nil_append, List.cons.injEq] at hmore
      obtain ⟨rfl, rfl, -⟩ := hmore
      exact hs ⟨front, more, by rw [hfront, List.append_assoc]; rfl⟩
  · cases more with
    | nil => simp_all [Bytes.crlf]
    | cons c more =>
      simp only [List.cons_append, List.cons.injEq] at hmore
      exact ht ⟨more, rest, by rw [hmore.2, List.append_assoc]⟩

theorem Unbroken.of_isInfix {part line : Bytes} (h : Unbroken line) (hpart : part <:+: line) :
    Unbroken part :=
  fun hbreak => h (hbreak.trans hpart)

theorem line?_eq_none {line : Bytes} (h : 13 ∉ line) : Bytes.line? line = none := by
  refine cut?_eq_none_iff.2 fun front rest hline => h ?_
  simp [hline, Bytes.crlf]

theorem unbroken_of_not_mem {s : Bytes} (h : 13 ∉ s) : Unbroken s :=
  line?_eq_none_iff.1 (line?_eq_none h)

end CannedReply.Proofs.Cut
