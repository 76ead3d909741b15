/-!
# Cutting lists at delimiters

The first occurrence of a delimiter in a list, and what stands before and after it. The search
keeps what it has passed in an accumulator, so it needs no stack however long the list is. Main
statement: `append_of_cut?`, a cut loses nothing but the delimiter.
-/

namespace CannedReply.Delimiter

variable {α : Type} [BEq α]

/-- The search behind `cut?`; `passed` holds the elements already passed, last first. -/
@[specialize] def cutFrom (delimiter passed : List α) : List α → Option (List α × List α)
  | [] => if delimiter.isEmpty then some (passed.reverse, []) else none
  | x :: rest =>
    if delimiter.isPrefixOf (x :: rest) then
      some (passed.reverse, (x :: rest).drop delimiter.length)
    else cutFrom delimiter (x :: passed) rest

/-- What stands before and after the first occurrence of `delimiter`. -/
def cut? (delimiter s : List α) : Option (List α × List α) :=
  cutFrom delimiter [] s

/-- What stands before the first occurrence of `delimiter`; all of `s` if there is none. -/
def before (delimiter s : List α) : List α :=
  match cut? delimiter s with
  | some (front, _) => front
  | none => s

/-- Whether `part` occurs in `s`. -/
def occursIn (part s : List α) : Bool := (cut? part s).isSome

/-- Drops the elements that satisfy `blank` from both ends. -/
def trim {α : Type} (blank : α → Bool) (s : List α) : List α :=
  ((s.dropWhile blank).reverse.dropWhile blank).reverse

private theorem length_lt_of_cutFrom {delimiter passed s front rest : List α}
    (hd : delimiter ≠ []) (h : cutFrom delimiter passed s = some (front, rest)) :
    rest.length < s.length := by
  induction s generalizing passed with
  | nil => simp [cutFrom, hd] at h
  | cons x s ih =>
    rw [cutFrom] at h
    split at h
    · simp only [Option.some.injEq, Prod.mk.injEq] at h
      have := List.length_pos_iff.2 hd
      simp only [← h.2, List.length_drop, List.length_cons]
      omega
    · exact Nat.lt_succ_of_lt (ih h)

/-- A cut loses nothing but the delimiter. -/
private theorem append_of_cutFrom [LawfulBEq α] {delimiter passed s front rest : List α}
    (h : cutFrom delimiter passed s = some (front, rest)) :
    passed.reverse ++ s = front ++ (delimiter ++ rest) := by
  induction s generalizing passed with
  | nil =>
    rw [cutFrom] at h
    split at h
    · rename_i hd
      simp only [Option.some.injEq, Prod.mk.injEq] at h
      rw [List.isEmpty_iff.1 hd, ← h.1, ← h.2, List.nil_append]
    · contradiction
  | cons x s ih =>
    rw [cutFrom] at h
    split at h
    · rename_i hp
      simp only [Option.some.injEq, Prod.mk.injEq] at h
      obtain ⟨tail, ht⟩ := List.isPrefixOf_iff_prefix.1 hp
      rw [← ht, List.drop_left] at h
      rw [← h.1, ← h.2, ht]
    · rw [← ih h, List.reverse_cons, List.append_assoc, List.singleton_append]

theorem append_of_cut? [LawfulBEq α] {delimiter s front rest : List α}
    (h : cut? delimiter s = some (front, rest)) : s = front ++ (delimiter ++ rest) :=
  append_of_cutFrom h

theorem length_lt_of_cut? {delimiter s front rest : List α} (hd : delimiter ≠ [])
    (h : cut? delimiter s = some (front, rest)) : rest.length < s.length :=
  length_lt_of_cutFrom hd h

end CannedReply.Delimiter
