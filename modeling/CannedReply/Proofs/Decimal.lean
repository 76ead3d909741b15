import CannedReply.Decimal
import Mathlib.Algebra.Order.Field.Power
import Mathlib.Data.Rat.Floor
import Mathlib.Tactic.Linarith
import Mathlib.Tactic.Positivity
/-!
# Shortest decimals

The search for the shortest decimal of a number that is not zero never comes out at zero, so its
digits never start with one.  The search may also give up after seventeen digits; then it is the
leading exponent, which is never too large, that keeps a digit in front of the point.  Main
statements: `shortest_eq`, `head?_digits`.
-/

namespace CannedReply.Proofs.Decimal

open CannedReply.Decimal

/-! ## Digits -/

theorem digits_ne_nil (n : Nat) : digits n ≠ [] := Nat.toDigits_ne_nil

theorem isDigit_of_mem_digits {n : Nat} {c : Char} (h : c ∈ digits n) : c.isDigit = true :=
  Nat.isDigit_of_mem_toDigits (by decide) (by decide) h

theorem isDigit_of_mem_padded {width n : Nat} {c : Char} (h : c ∈ padded width n) :
    c.isDigit = true := by
  obtain hzero | hdigit := List.mem_append.1 h
  · rw [(List.mem_replicate.1 hzero).2]
    rfl
  · exact isDigit_of_mem_digits hdigit

theorem padded_ne_nil (width n : Nat) : padded width n ≠ [] := by
  simp [padded, digits_ne_nil]

theorem digits_eq (n : Nat) :
    digits n = if n < 10 then [Nat.digitChar n] else digits (n / 10) ++ [Nat.digitChar (n % 10)] :=
  Nat.toDigits_eq_if (by decide)

/-- The digits of a number that is not zero do not start with a zero. -/
theorem head?_digits {n : Nat} (h : n ≠ 0) : (digits n).head? ≠ some '0' := by
  induction n using Nat.strongRecOn with
  | ind n ih =>
    rw [digits_eq]
    split
    · rename_i hsmall
      have hnonzero : ∀ d < 10, d ≠ 0 → Nat.digitChar d ≠ '0' := by decide
      simpa using hnonzero n hsmall h
    · rename_i hlarge
      rw [List.head?_append_of_ne_nil _ (digits_ne_nil (n / 10))]
      exact ih (n / 10) (by omega) (by omega)

/-! ## Powers of ten -/

theorem powerOfTen_eq (e : Int) : powerOfTen e = (10 : Rat) ^ e := by
  unfold powerOfTen
  split
  · rename_i hnonneg
    have hpow : ((Nat.pow 10 e.toNat : Nat) : Rat) = 10 ^ e.toNat := by
      exact_mod_cast rfl
    rw [hpow, ← zpow_natCast, Int.toNat_of_nonneg hnonneg]
  · rename_i hneg
    have hpow : ((Nat.pow 10 (-e).toNat : Nat) : Rat) = 10 ^ (-e).toNat := by
      exact_mod_cast rfl
    rw [hpow, ← zpow_natCast, Int.toNat_of_nonneg (by omega), zpow_neg, one_div, inv_inv]

theorem powerOfTen_pos (e : Int) : 0 < powerOfTen e := by
  rw [powerOfTen_eq]
  positivity

theorem powerOfTen_mono {e f : Int} (h : e ≤ f) : powerOfTen e ≤ powerOfTen f := by
  rw [powerOfTen_eq, powerOfTen_eq]
  exact zpow_le_zpow_right₀ (by norm_num) h

/-- A number is at least the power of ten with one digit fewer behind its first. -/
theorem pow_le_of_ne_zero {n : Nat} (h : n ≠ 0) : 10 ^ ((digits n).length - 1) ≤ n := by
  by_cases hone : (digits n).length - 1 = 0
  · rw [hone]
    omega
  · have hiff : (digits n).length ≤ (digits n).length - 1 ↔ n < 10 ^ ((digits n).length - 1) :=
      Nat.length_toDigits_le_iff (by decide) (by omega)
    omega

theorem lt_pow_length (n : Nat) : n < 10 ^ (digits n).length :=
  (Nat.length_toDigits_le_iff (by decide) Nat.length_toDigits_pos).1 (Nat.le_refl _)

theorem powerOfTen_leadingExponent_le {q : Rat} (h : 0 < q) :
    powerOfTen (leadingExponent q) ≤ q := by
  unfold leadingExponent
  dsimp only
  split
  · -- The quotient of the two numbers of digits is at most one too large.
    have hnum : q.num.natAbs ≠ 0 := by
      have hpos : 0 < q.num := Rat.num_pos.2 h
      omega
    have hlength : 0 < (digits q.num.natAbs).length := Nat.length_toDigits_pos
    have hlow : (10 : Rat) ^ ((digits q.num.natAbs).length - 1) ≤ q.num.natAbs := by
      exact_mod_cast pow_le_of_ne_zero hnum
    have hhigh : (q.den : Rat) ≤ 10 ^ (digits q.den).length := by
      exact_mod_cast (lt_pow_length q.den).le
    have hden : (0 : Rat) < q.den := by exact_mod_cast q.den_pos
    have hexponent : ((digits q.num.natAbs).length : Int) - (digits q.den).length - 1 =
        ((digits q.num.natAbs).length - 1 : Nat) - ((digits q.den).length : Nat) := by
      omega
    have hq : (q.num.natAbs : Rat) / q.den = q := by
      rw [Nat.cast_natAbs, abs_of_pos (Rat.num_pos.2 h), Rat.num_div_den]
    calc powerOfTen (((digits q.num.natAbs).length : Int) - (digits q.den).length - 1)
        = 10 ^ ((digits q.num.natAbs).length - 1) / 10 ^ (digits q.den).length := by
          rw [powerOfTen_eq, hexponent, zpow_sub₀ (by norm_num), zpow_natCast, zpow_natCast]
      _ ≤ q.num.natAbs / q.den := by gcongr
      _ = q := hq
  · rename_i hfits
    exact not_lt.1 hfits

/-! ## The search -/

variable {q : Rat}

theorem nearestInt_nonneg (h : 0 ≤ q) : 0 ≤ Binary64.nearestInt q := by
  have hfloor : 0 ≤ q.floor := Rat.le_floor_iff.2 (by simpa using h)
  unfold Binary64.nearestInt
  dsimp only
  split
  · omega
  · split
    · omega
    · split
      · omega
      · omega

/-- Zero is not read back as anything else. -/
theorem toNat_ne_zero_of_reads (hq : 0 < q) {n : Int} (hn : 0 ≤ n) {e : Int}
    (h : (Binary64.round ((n : Rat) * powerOfTen e) == q) = true) : n.toNat ≠ 0 := by
  intro hzero
  obtain rfl : n = 0 := by omega
  have hround : Binary64.round (((0 : Int) : Rat) * powerOfTen e) = 0 := by
    simp [Binary64.round]
  rw [hround, beq_iff_eq] at h
  exact absurd h hq.ne

theorem readsBackAt?_ne_zero (hq : 0 < q) {e : Int} {n : Nat} (h : readsBackAt? q e = some n) :
    n ≠ 0 := by
  have hscaled : 0 ≤ q / powerOfTen e := div_nonneg hq.le (powerOfTen_pos e).le
  have hnear := nearestInt_nonneg hscaled
  have hlow : 0 ≤ (q / powerOfTen e).floor := Rat.le_floor_iff.2 (by simpa using hscaled)
  have hfar : 0 ≤ if Binary64.nearestInt (q / powerOfTen e) = (q / powerOfTen e).floor then
      (q / powerOfTen e).floor + 1 else (q / powerOfTen e).floor := by
    split
    · omega
    · omega
  unfold readsBackAt? at h
  dsimp only at h
  generalize (if Binary64.nearestInt (q / powerOfTen e) = (q / powerOfTen e).floor then
    (q / powerOfTen e).floor + 1 else (q / powerOfTen e).floor) = far at h hfar
  split at h
  · rename_i hreads
    rw [← Option.some.inj h]
    exact toNat_ne_zero_of_reads hq hnear hreads
  · split at h
    · rename_i hreads
      rw [← Option.some.inj h]
      exact toNat_ne_zero_of_reads hq hfar hreads
    · contradiction

/-- With an exponent that is not too large, also the last try keeps a digit. -/
theorem shortestFrom_ne_zero (hq : 0 < q) {first : Int} (hfirst : powerOfTen first ≤ q)
    (fuel count : Nat) : (shortestFrom q first fuel count).1 ≠ 0 := by
  induction fuel generalizing count with
  | zero =>
    have hpower : powerOfTen (first - count) ≤ q := by
      calc powerOfTen (first - count) ≤ powerOfTen first := powerOfTen_mono (by omega)
        _ ≤ q := hfirst
    have hone : 1 ≤ (q / powerOfTen (first - count)).floor := by
      rw [Rat.le_floor_iff, Int.cast_one, le_div_iff₀ (powerOfTen_pos _), one_mul]
      exact hpower
    unfold shortestFrom
    dsimp only
    omega
  | succ fuel ih =>
    unfold shortestFrom
    cases hread : readsBackAt? q (first - count) with
    | some n => exact readsBackAt?_ne_zero hq hread
    | none => exact ih (count + 1)

theorem dropZeros_ne_zero (fuel : Nat) {p : Nat × Int} (h : p.1 ≠ 0) :
    (dropZeros fuel p).1 ≠ 0 := by
  induction fuel generalizing p with
  | zero => exact h
  | succ fuel ih =>
    obtain ⟨n, e⟩ := p
    unfold dropZeros
    split
    · rename_i hmore
      simp only [Bool.and_eq_true, decide_eq_true_eq] at hmore
      apply ih
      dsimp only
      omega
    · exact h

theorem magnitude_pos (h : q ≠ 0) : 0 < magnitude q := by
  unfold magnitude
  split
  · rename_i hneg
    exact neg_pos.2 hneg
  · rename_i hnonneg
    exact lt_of_le_of_ne (not_lt.1 hnonneg) h.symm

theorem minus_cases (q : Rat) : minus q = [] ∨ minus q = ['-'] := by
  unfold minus
  split
  · exact .inr rfl
  · exact .inl rfl

/-- The digits and the exponent that a number other than zero is written with. -/
theorem shortest_eq (h : q ≠ 0) :
    ∃ n e, n ≠ 0 ∧ (shortest q = minus q ++ positional (digits n) e ∨
      ∃ exponent, shortest q = minus q ++ exponential (digits n) exponent) := by
  have hsize := magnitude_pos h
  have hfound := dropZeros_ne_zero 20
    (shortestFrom_ne_zero hsize (powerOfTen_leadingExponent_le hsize) 17 0)
  unfold shortest
  rw [if_neg h]
  dsimp only
  -- Twenty and seventeen bound the loops; nothing depends on what they are.
  generalize dropZeros 20 (shortestFrom (magnitude q) (leadingExponent (magnitude q)) 17 0) = p
    at hfound ⊢
  refine ⟨p.1, p.2, hfound, ?_⟩
  split
  · exact .inl rfl
  · exact .inr ⟨_, rfl⟩

end CannedReply.Proofs.Decimal
