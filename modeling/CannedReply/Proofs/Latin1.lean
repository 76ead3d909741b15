import CannedReply.Latin1
import CannedReply.Proofs.Cut
import Mathlib.Data.List.DropRight
/-!
# Trimmed names in small letters

Trimming a text twice is trimming it once, small letters stay small, and neither of the two brings
a colon or a line end into a text.  Different bytes are different texts.
-/

namespace CannedReply.Proofs.Latin1

open CannedReply.Latin1
open CannedReply.Proofs.Cut

/-! ## Trimming -/

section Trim

variable {α : Type} {blank : α → Bool} {s part : List α}

theorem trim_eq_rdropWhile (blank : α → Bool) (s : List α) :
    Delimiter.trim blank s = (s.dropWhile blank).rdropWhile blank :=
  rfl

theorem trim_isInfix (blank : α → Bool) (s : List α) : Delimiter.trim blank s <:+: s := by
  rw [trim_eq_rdropWhile]
  apply (List.rdropWhile_prefix _ _).isInfix.trans
  exact (List.dropWhile_suffix _).isInfix

/-- What starts without a blank keeps its start. -/
theorem dropWhile_eq_self_of_isPrefix (h : part <+: s.dropWhile blank) :
    part.dropWhile blank = part := by
  obtain ⟨rest, hpart⟩ := h
  cases part with
  | nil => rfl
  | cons a part =>
    have hhead := List.head?_dropWhile_not blank s
    rw [← hpart] at hhead
    exact List.dropWhile_cons_of_neg (by simpa using hhead)

theorem trim_trim (blank : α → Bool) (s : List α) :
    Delimiter.trim blank (Delimiter.trim blank s) = Delimiter.trim blank s := by
  rw [trim_eq_rdropWhile, trim_eq_rdropWhile,
    dropWhile_eq_self_of_isPrefix (List.rdropWhile_prefix blank (s.dropWhile blank)),
    List.rdropWhile_idempotent]

theorem trim_cons {a : α} (h : blank a = true) (s : List α) :
    Delimiter.trim blank (a :: s) = Delimiter.trim blank s := by
  unfold Delimiter.trim
  rw [List.dropWhile_cons_of_pos h]

/-- Nothing is left of a text just if all of it is blank. -/
theorem all_blank_iff : Delimiter.trim blank s = [] ↔ ∀ a ∈ s, blank a = true := by
  unfold Delimiter.trim
  rw [List.reverse_eq_nil_iff, List.dropWhile_eq_nil_iff]
  constructor
  · intro h a ha
    rw [← List.takeWhile_append_dropWhile (p := blank) (l := s)] at ha
    obtain hfront | hrest := List.mem_append.1 ha
    · exact List.mem_takeWhile_imp hfront
    · exact h a (List.mem_reverse.2 hrest)
  · intro h a ha
    exact h a ((List.dropWhile_suffix _).subset (List.mem_reverse.1 ha))

end Trim

/-! ## Small letters -/

private theorem forall_byte {P : UInt8 → Prop} (h : ∀ n : Fin 256, P (.ofFin n)) (b : UInt8) :
    P b :=
  h b.toFin

theorem isBlank_lower (b : UInt8) : isBlank (lower b) = isBlank b := by
  revert b
  apply forall_byte
  decide +kernel

theorem lower_lower (b : UInt8) : lower (lower b) = lower b := by
  revert b
  apply forall_byte
  decide +kernel

/-- No capital has a line end or a colon for its small letter. -/
theorem eq_of_lower {b c : UInt8} (hc : c = 13 ∨ c = 10 ∨ c = 58) : lower b = c → b = c := by
  obtain rfl | rfl | rfl := hc
  all_goals
    revert b
    apply forall_byte
    decide +kernel

theorem lowerAll_lowerAll (s : Bytes) : lowerAll (lowerAll s) = lowerAll s := by
  unfold lowerAll
  rw [List.map_map]
  apply List.map_congr_left
  intro b _
  exact lower_lower b

theorem trim_lowerAll (s : Bytes) : trim (lowerAll s) = lowerAll (trim s) := by
  have hblank : isBlank ∘ lower = isBlank := funext isBlank_lower
  unfold trim lowerAll Delimiter.trim
  rw [List.dropWhile_map, hblank, ← List.map_reverse, List.dropWhile_map, hblank, List.map_reverse]

theorem colon_not_mem_lowerAll {s : Bytes} (h : 58 ∉ s) : 58 ∉ lowerAll s := by
  intro hmem
  obtain ⟨b, hb, hlower⟩ := List.mem_map.1 hmem
  obtain rfl := eq_of_lower (by simp) hlower
  exact h hb

theorem unbroken_lowerAll {s : Bytes} (h : Unbroken s) : Unbroken (lowerAll s) := by
  rintro ⟨front, rest, hsame⟩
  obtain ⟨start, back, rfl, hstart, -⟩ := List.map_eq_append_iff.1 hsame.symm
  obtain ⟨before, mid, rfl, -, hmid⟩ := List.map_eq_append_iff.1 hstart
  obtain ⟨b, tail, rfl, hb, htail⟩ := List.map_eq_cons_iff.1 hmid
  obtain ⟨c, tail, rfl, hc, hnil⟩ := List.map_eq_cons_iff.1 htail
  obtain rfl := eq_of_lower (by simp) hb
  obtain rfl := eq_of_lower (by simp) hc
  obtain rfl := List.map_eq_nil_iff.1 hnil
  exact h ⟨before, back, rfl⟩

/-! ## Texts -/

theorem decode_inj {s t : Bytes} : decode s = decode t ↔ s = t := by
  constructor
  · intro h
    have hencode := congrArg encode h
    rw [encode_decode, encode_decode] at hencode
    exact Except.ok.inj hencode
  · exact congrArg decode

/-- A character that has been read from a byte. -/
theorem mem_of_mem_decode {c : Char} {s : Bytes} (h : c ∈ (decode s).toList) : byteOf c ∈ s := by
  rw [decode, String.toList_ofList] at h
  obtain ⟨b, hb, rfl⟩ := List.mem_map.1 h
  rwa [byteOf_ofUInt8]

end CannedReply.Proofs.Latin1
