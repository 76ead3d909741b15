import CannedReply.Port
import CannedReply.Proofs.Numeral.Grammar
/-!
# What a port argument says

An argument spells a number by an optional sign and digits.  The reader takes those numbers that are
ports, and refuses every other text, except that a number of too many digits makes it break off.
-/

namespace CannedReply.Proofs.Port

open CannedReply.Port
open CannedReply.Proofs.Numeral.Grammar

/-- One or more ASCII digits. -/
def IsDigits (digits : List Char) : Prop := digits ≠ [] ∧ digits.all Char.isDigit

def natural (digits : List Char) : Nat := Nat.ofDigitChars 10 digits 0

/-- The text is an optional sign and digits, and its decimal value is `port`. -/
inductive Spells : List Char → List Char → Int → Prop where
  | bare {digits : List Char} : IsDigits digits → Spells digits digits (natural digits)
  | plus {digits : List Char} : IsDigits digits → Spells ('+' :: digits) digits (natural digits)
  | minus {digits : List Char} : IsDigits digits → Spells ('-' :: digits) digits (-natural digits)

def InRange (port : Int) : Prop := 0 ≤ port ∧ port ≤ 65535

instance (port : Int) : Decidable (InRange port) := inferInstanceAs (Decidable (_ ∧ _))

variable {text : String} {cs digits : List Char} {port : Int}

/-! ## Digits -/

theorem isDigit_eq (c : Char) : isDigit c = c.isDigit := by
  simp only [isDigit, Char.isDigit, Char.le_def]

theorem value_eq_natural (digits : List Char) : value digits = natural digits :=
  value_eq_ofDigitChars digits

theorem isDigits_iff : IsDigits digits ↔ (digits.isEmpty || !digits.all isDigit) = false := by
  simp [IsDigits, isDigit_eq]

theorem sign_of_isDigits (h : IsDigits digits) : sign digits = (false, digits) := by
  obtain ⟨hne, hdigits⟩ := h
  obtain ⟨c, cs, rfl⟩ := List.exists_cons_of_ne_nil hne
  have hc := List.all_eq_true.1 hdigits c (by simp)
  unfold sign
  split
  · exact absurd hc (by simp_all)
  · exact absurd hc (by simp_all)
  · rfl

/-- A text spells a number if nothing but digits stands behind its sign. -/
theorem spells_iff : Spells cs digits port ↔
    ∃ negative, sign cs = (negative, digits) ∧ IsDigits digits ∧
      port = Numeral.signed negative (natural digits) := by
  constructor
  · intro h
    cases h with
    | bare hdigits => exact ⟨false, sign_of_isDigits hdigits, hdigits, rfl⟩
    | plus hdigits => exact ⟨false, rfl, hdigits, rfl⟩
    | minus hdigits => exact ⟨true, rfl, hdigits, rfl⟩
  · rintro ⟨negative, hsign, hdigits, rfl⟩
    unfold sign at hsign
    split at hsign
    all_goals obtain ⟨rfl, rfl⟩ := Prod.mk.inj hsign
    · exact .plus hdigits
    · exact .minus hdigits
    · exact .bare hdigits

theorem length_le_of_spells (h : Spells cs digits port) : digits.length ≤ cs.length := by
  cases h with
  | bare => exact Nat.le_refl _
  | plus => exact Nat.le_succ _
  | minus => exact Nat.le_succ _

/-! ## Reading -/

/-- The verdict on a text that spells a number. -/
def verdict (digits : List Char) (port : Int) : Except Error Nat :=
  if Numeral.maxDecimalDigits < digits.length then .error (.tooManyDigits digits.length)
  else if InRange port then .ok port.toNat
  else .error .outOfRange

theorem inRange_signed (negative : Bool) (n : Nat) :
    InRange (Numeral.signed negative n) ↔ ¬ ((negative && n ≠ 0) || 65535 < n) = true := by
  unfold InRange Numeral.signed
  cases negative with
  | false => simp
  | true =>
    simp
    omega

theorem toNat_signed {negative : Bool} {n : Nat} (h : InRange (Numeral.signed negative n)) :
    (Numeral.signed negative n).toNat = n := by
  unfold InRange Numeral.signed at *
  cases negative with
  | false => simp
  | true =>
    simp at *
    omega

theorem parse_of_spells (h : Spells text.toList digits port) :
    parse text = verdict digits port := by
  obtain ⟨negative, hsign, hdigits, rfl⟩ := spells_iff.1 h
  unfold parse verdict
  rw [hsign]
  dsimp only
  rw [isDigits_iff.1 hdigits, if_neg (by simp), value_eq_natural]
  congr 1
  by_cases hrange : InRange (Numeral.signed negative (natural digits))
  · rw [if_pos hrange, if_neg ((inRange_signed negative _).1 hrange), toNat_signed hrange]
  · rw [if_neg hrange, if_pos (not_not.1 (mt (inRange_signed negative _).2 hrange))]

/-- What stands behind the sign of a text that spells no number is no run of digits. -/
theorem parse_of_unspelled (h : ∀ digits port, ¬ Spells text.toList digits port) :
    parse text = .error .notANumeral := by
  have hnot : ¬ IsDigits (sign text.toList).2 := fun hdigits =>
    h _ _ (spells_iff.2 ⟨(sign text.toList).1, rfl, hdigits, rfl⟩)
  rw [isDigits_iff, Bool.not_eq_false] at hnot
  unfold parse
  exact if_pos hnot

end CannedReply.Proofs.Port
