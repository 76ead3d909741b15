import CannedReply.Latin1
import CannedReply.Proofs.Cut
import Mathlib.Data.List.TakeWhile
import Mathlib.Tactic.Tauto
/-!
# Texts that fit on a line

A plain text is Latin-1 and holds no line end, so writing it never fails and never ends a line.
Numbers are plain.
-/

namespace CannedReply.Proofs.Text.Plain

open CannedReply.Proofs.Cut

def IsLatin1 (text : String) : Prop := ∀ c ∈ text.toList, c.toNat < 256

/-- Latin-1 without CR and LF. -/
def IsPlain (text : String) : Prop :=
  IsLatin1 text ∧ '\r' ∉ text.toList ∧ '\n' ∉ text.toList

instance (text : String) : Decidable (IsLatin1 text) :=
  List.decidableBAll (fun c : Char => c.toNat < 256) text.toList

instance (text : String) : Decidable (IsPlain text) :=
  inferInstanceAs (Decidable (_ ∧ _))

variable {s t : String}

/-! ## Writing -/

theorem encode_of_isLatin1 (h : IsLatin1 s) : Latin1.encode s = .ok (Bytes.ofText s) := by
  have hfits : ∀ c ∈ s.toList, Latin1.fits c = true := fun c hc => decide_eq_true (h c hc)
  have hfront : s.toList.takeWhile Latin1.fits = s.toList := List.takeWhile_eq_self_iff.2 hfits
  have hrest : s.toList.dropWhile Latin1.fits = [] := List.dropWhile_eq_nil_iff.2 hfits
  rw [Latin1.encode, hfront, hrest]
  rfl

/-- Of the Latin-1 characters only one is written as a given byte. -/
theorem mem_of_mem_ofText (h : IsLatin1 s) {b : UInt8} (hb : b ∈ Bytes.ofText s) :
    Char.ofNat b.toNat ∈ s.toList := by
  obtain ⟨c, hc, rfl⟩ := List.mem_map.1 hb
  rwa [UInt8.toNat_ofNat_of_lt' (h c hc), Char.ofNat_toNat]

theorem unbroken_ofText (h : IsPlain s) : Unbroken (Bytes.ofText s) :=
  unbroken_of_not_mem fun hmem => h.2.1 (mem_of_mem_ofText h.1 hmem)

theorem ofText_append (s t : String) :
    Bytes.ofText (s ++ t) = Bytes.ofText s ++ Bytes.ofText t := by
  simp [Bytes.ofText]

/-! ## Putting texts together -/

theorem isLatin1_append : IsLatin1 (s ++ t) ↔ IsLatin1 s ∧ IsLatin1 t := by
  simp only [IsLatin1, String.toList_append, List.mem_append, or_imp, forall_and]

theorem isPlain_append : IsPlain (s ++ t) ↔ IsPlain s ∧ IsPlain t := by
  unfold IsPlain
  rw [isLatin1_append, String.toList_append, List.mem_append, List.mem_append]
  tauto

theorem isLatin1_intercalate {separator : String} {parts : List String}
    (hseparator : IsLatin1 separator) (hparts : ∀ part ∈ parts, IsLatin1 part) :
    IsLatin1 (separator.intercalate parts) := by
  induction parts with
  | nil => simp [IsLatin1]
  | cons part parts ih =>
    obtain ⟨hpart, hrest⟩ := List.forall_mem_cons.1 hparts
    cases parts with
    | nil => rwa [String.intercalate_singleton]
    | cons next parts =>
      rw [String.intercalate_cons_cons, isLatin1_append, isLatin1_append]
      exact ⟨⟨hpart, hseparator⟩, ih hrest⟩

theorem ofText_intercalate (separator : String) (parts : List String) :
    Bytes.ofText (separator.intercalate parts) =
      (Bytes.ofText separator).intercalate (parts.map Bytes.ofText) := by
  induction parts with
  | nil => simp [Bytes.ofText]
  | cons part parts ih =>
    cases parts with
    | nil => simp
    | cons next parts =>
      simp only [String.intercalate_cons_cons, ofText_append, ih, List.map_cons,
        List.intercalate_cons_cons]

/-! ## Numbers -/

theorem isPlain_ofList {cs : List Char} (h : ∀ c ∈ cs, c.isDigit) : IsPlain (.ofList cs) := by
  unfold IsPlain IsLatin1
  rw [String.toList_ofList]
  refine ⟨fun c hc => ?_, fun hmem => ?_, fun hmem => ?_⟩
  · have hdigit := (Char.isDigit_iff_toNat.1 (h c hc)).2
    exact Nat.lt_of_le_of_lt hdigit (by decide)
  · exact absurd (h _ hmem) (by decide)
  · exact absurd (h _ hmem) (by decide)

theorem isPlain_toString_nat (n : Nat) : IsPlain (toString n) :=
  isPlain_ofList fun _ hc => Nat.isDigit_of_mem_toDigits (by decide) (by decide) hc

theorem isPlain_toString_int (n : Int) : IsPlain (toString n) := by
  cases n with
  | ofNat n => exact isPlain_toString_nat n
  | negSucc n => exact isPlain_append.2 ⟨by decide, isPlain_toString_nat (n + 1)⟩

end CannedReply.Proofs.Text.Plain
