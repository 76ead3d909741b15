import CannedReply.Proofs.Target.Forms
/-!
# Cleaned targets

What cleaning leaves of a target.  Behind its first solid byte a target loses just its tabs and
line breaks, and what stands together in the cleaned target comes from one run of the target.
-/

namespace CannedReply.Proofs.Target.Cleaning

open CannedReply.Target
open CannedReply.Proofs.Target.Forms

/-- Whether a byte is left wherever it stands: every byte but TAB, LF and CR. -/
def stays (b : UInt8) : Bool := b != 9 && b != 10 && b != 13

theorem cleaned_eq (target : Bytes) :
    cleaned target = (target.dropWhile (· ≤ 32)).filter stays :=
  rfl

theorem stays_eq_false_iff {b : UInt8} : stays b = false ↔ b ∈ Bytes.ofText "\t\r\n" := by
  have hbreaks : Bytes.ofText "\t\r\n" = [9, 13, 10] := rfl
  rw [hbreaks]
  simp only [stays, bne, Bool.and_eq_false_iff, Bool.not_eq_false', beq_iff_eq, List.mem_cons,
    List.not_mem_nil, or_false]
  tauto

theorem stays_iff {b : UInt8} : stays b = true ↔ b ∉ Bytes.ofText "\t\r\n" := by
  rw [← stays_eq_false_iff, Bool.not_eq_false]

theorem stays_of_solid {b : UInt8} (h : 32 < b) : stays b = true := by
  have hne : ∀ c : UInt8, c ≤ 32 → b ≠ c := by
    rintro c hc rfl
    exact absurd h (UInt8.not_lt.2 hc)
  simp [stays, hne 9 (by decide), hne 10 (by decide), hne 13 (by decide)]

/-- Nothing is left out in front of a solid byte. -/
theorem cleaned_cons {b : UInt8} (h : 32 < b) (rest : Bytes) :
    cleaned (b :: rest) = b :: rest.filter stays := by
  rw [cleaned_eq, List.dropWhile_cons_of_neg (by simpa using h),
    List.filter_cons_of_pos (stays_of_solid h)]

theorem solid_of_isLetter {b : UInt8} (h : Bytes.isLetter b = true) : 32 < b := by
  simp only [Bytes.isLetter, Bool.or_eq_true, Bool.and_eq_true, decide_eq_true_eq,
    UInt8.le_iff_toNat_le] at h
  rw [UInt8.lt_iff_toNat_lt]
  simp only [UInt8.reduceToNat] at h ⊢
  omega

theorem solid_of_isSchemeByte {b : UInt8} (h : isSchemeByte b = true) : 32 < b := by
  simp only [isSchemeByte, Bytes.isDigit, Bool.or_eq_true, Bool.and_eq_true, decide_eq_true_eq,
    beq_iff_eq] at h
  obtain (((hletter | hdigit) | rfl) | rfl) | rfl := h
  · exact solid_of_isLetter hletter
  · rw [UInt8.lt_iff_toNat_lt]
    simp only [UInt8.le_iff_toNat_le, UInt8.reduceToNat] at hdigit ⊢
    omega
  · decide
  · decide
  · decide

/-- What stands together once bytes are left out comes from one run. -/
theorem exists_run {α : Type} {p : α → Bool} {part s : List α} (h : part <:+: s.filter p) :
    ∃ run, run <:+: s ∧ run.filter p = part := by
  obtain ⟨front, back, hsplit⟩ := h
  obtain ⟨start, tail, rfl, hstart, -⟩ := List.filter_eq_append_iff.1 hsplit.symm
  obtain ⟨before, run, rfl, -, hrun⟩ := List.filter_eq_append_iff.1 hstart
  exact ⟨run, ⟨before, tail, rfl⟩, hrun⟩

end CannedReply.Proofs.Target.Cleaning
