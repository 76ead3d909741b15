import CannedReply.HttpDate
import CannedReply.Proofs.Decimal
import CannedReply.Proofs.Text.Plain
import Mathlib.Algebra.Group.Nat.Defs
/-!
# Date texts

The date of every time that has one fits on a line, and is short.
-/

namespace CannedReply.Proofs.HttpDate

open CannedReply.HttpDate
open CannedReply.Proofs.Decimal
open CannedReply.Proofs.Text.Plain

/-! ## Parts of a date -/

theorem isPlain_padded (width n : Nat) : IsPlain (padded width n) :=
  isPlain_ofList fun _ hc => isDigit_of_mem_padded hc

theorem length_padded_le {width n k : Nat} (hwidth : width ≤ k) (hk : 0 < k) (hn : n < 10 ^ k) :
    (padded width n).length ≤ k := by
  have hdigits : (Decimal.digits n).length ≤ k :=
    (Nat.length_toDigits_le_iff (by decide) hk).2 hn
  rw [padded, String.length_ofList, Decimal.padded, List.length_append, List.length_replicate]
  omega

/-- What holds of every name and of no name holds of a name that is looked up. -/
theorem getD_of_forall {P : String → Prop} {names : List String} (hnone : P "")
    (h : ∀ name ∈ names, P name) (i : Nat) : P (names.getD i "") := by
  rw [List.getD_eq_getElem?_getD]
  cases hname : names[i]? with
  | none => exact hnone
  | some name => exact h name (List.mem_of_getElem? hname)

/-! ## Whole dates -/

theorem isPlain_text (civil : Civil) (second : Nat) : IsPlain (text civil second) := by
  have hweekday : IsPlain (weekdayNames.getD civil.weekday "") :=
    getD_of_forall (by decide) (by decide) _
  have hmonth : IsPlain (monthNames.getD (civil.month - 1) "") :=
    getD_of_forall (by decide) (by decide) _
  have hcomma : IsPlain ", " := by decide
  have hspace : IsPlain " " := by decide
  have hcolon : IsPlain ":" := by decide
  have hzone : IsPlain " GMT" := by decide
  simp only [text, isPlain_append, isPlain_padded, hweekday, hmonth, hcomma, hspace, hcolon,
    hzone, and_self]

/-- The day of a month has far fewer digits than this, but more is not needed. -/
theorem day_ofDays_lt (days : Int) : (ofDays days).day < 10 ^ 6 := by
  simp only [ofDays]
  omega

theorem length_text_le {civil : Civil} {second : Nat} (hday : civil.day < 10 ^ 6)
    (hyear : civil.year.toNat < 10 ^ 4) (hsecond : second < 86400) :
    (text civil second).length ≤ 42 := by
  have hweekday : (weekdayNames.getD civil.weekday "").length ≤ 3 :=
    getD_of_forall (P := fun name => name.length ≤ 3) (by decide) (by decide) _
  have hmonth : (monthNames.getD (civil.month - 1) "").length ≤ 3 :=
    getD_of_forall (P := fun name => name.length ≤ 3) (by decide) (by decide) _
  have hday' : (padded 2 civil.day).length ≤ 6 :=
    length_padded_le (by decide) (by decide) hday
  have hyear' : (padded 4 civil.year.toNat).length ≤ 4 :=
    length_padded_le (by decide) (by decide) hyear
  have hhour : (padded 2 (second / 3600)).length ≤ 5 :=
    length_padded_le (by decide) (by decide) (by omega)
  have hminute : (padded 2 (second / 60 % 60)).length ≤ 5 :=
    length_padded_le (by decide) (by decide) (by omega)
  have hrest : (padded 2 (second % 60)).length ≤ 5 :=
    length_padded_le (by decide) (by decide) (by omega)
  simp only [text, String.length_append]
  have hcomma : ", ".length = 2 := rfl
  have hspace : " ".length = 1 := rfl
  have hcolon : ":".length = 1 := rfl
  have hzone : " GMT".length = 4 := rfl
  omega

/-- A date stays on its line and takes little of it. -/
theorem isPlain_of_ofUnix {time : Int} {date : String} (h : ofUnix time = .ok date) :
    IsPlain date ∧ date.length ≤ 42 := by
  unfold ofUnix at h
  split at h
  · contradiction
  · dsimp only at h
    split at h
    · contradiction
    · split at h
      · contradiction
      · rename_i hyears
        obtain rfl := Except.ok.inj h
        have hyear : (ofDays (time / 86400)).year ≤ 9999 := by
          simp only [Bool.or_eq_true, decide_eq_true_eq] at hyears
          omega
        refine ⟨isPlain_text _ _, length_text_le (day_ofDays_lt _) ?_ ?_⟩
        · omega
        · omega

end CannedReply.Proofs.HttpDate
