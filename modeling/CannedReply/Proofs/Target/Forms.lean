import CannedReply.Proofs.Cut
import CannedReply.Target.Path
import Mathlib.Data.List.TakeDrop
import Mathlib.Data.List.TakeWhile
/-!
# The forms of a target

The absolute form as a statement about the bytes of a target, and the path of every target: one
equation for the origin form, one for the absolute form, and one for what is neither.
-/

namespace CannedReply.Proofs.Target.Forms

open CannedReply.Target
open CannedReply.Proofs.Cut

/-- A letter, and then bytes that may follow it in the name of a scheme. -/
def IsScheme (s : Bytes) : Prop :=
  ∃ b rest, s = b :: rest ∧ Bytes.isLetter b = true ∧ ∀ c ∈ rest, isSchemeByte c = true

theorem colon_not_mem {s : Bytes} (h : IsScheme s) : 58 ∉ s := by
  obtain ⟨b, rest, rfl, hletter, hrest⟩ := h
  intro hmem
  obtain rfl | hmem := List.mem_cons.1 hmem
  · exact absurd hletter (by decide)
  · exact absurd (hrest 58 hmem) (by decide)

theorem splitScheme_of_isScheme {scheme rest : Bytes} (h : IsScheme scheme) :
    splitScheme (scheme ++ 58 :: rest) = (scheme, rest) := by
  unfold splitScheme
  rw [cut?_singleton_eq_some_iff.2 ⟨rfl, colon_not_mem h⟩]
  obtain ⟨b, tail, rfl, hletter, htail⟩ := h
  dsimp only
  rw [if_pos (by simpa [hletter] using htail)]

theorem isScheme_of_splitScheme {url scheme rest : Bytes}
    (h : splitScheme url = (scheme, rest)) (hne : scheme ≠ []) :
    IsScheme scheme ∧ url = scheme ++ 58 :: rest := by
  unfold splitScheme at h
  split at h
  · rename_i b tail rest' hcut
    obtain ⟨hurl, -⟩ := cut?_singleton_eq_some_iff.1 hcut
    split at h
    · rename_i hbytes
      obtain ⟨rfl, rfl⟩ := Prod.mk.inj h
      simp only [Bool.and_eq_true, List.all_eq_true] at hbytes
      exact ⟨⟨b, tail, rfl, hbytes⟩, hurl⟩
    · exact absurd (Prod.mk.inj h).1.symm hne
  · exact absurd (Prod.mk.inj h).1.symm hne

theorem splitAuthority_slashes (s : Bytes) :
    splitAuthority (47 :: 47 :: s) = s.span fun b => !endsAuthority b :=
  rfl

theorem splitAuthority_of_slashes {authority rest : Bytes}
    (hauthority : ∀ b ∈ authority, endsAuthority b = false)
    (hrest : ∀ b ∈ rest.head?, endsAuthority b = true) :
    splitAuthority (47 :: 47 :: (authority ++ rest)) = (authority, rest) := by
  have hpass : ∀ b ∈ authority, (!endsAuthority b) = true := by
    intro b hb
    rw [hauthority b hb, Bool.not_false]
  rw [splitAuthority_slashes, List.span_eq_takeWhile_dropWhile, List.takeWhile_append_of_pos hpass,
    List.dropWhile_append_of_pos hpass]
  cases rest with
  | nil => simp
  | cons b rest =>
    have hends : endsAuthority b = true := hrest b rfl
    rw [List.takeWhile_cons_of_neg (by simp [hends]), List.dropWhile_cons_of_neg (by simp [hends]),
      List.append_nil]

theorem slashes_of_splitAuthority {url authority rest : Bytes}
    (h : splitAuthority url = (authority, rest)) (hne : authority ≠ []) :
    url = 47 :: 47 :: (authority ++ rest) ∧ (∀ b ∈ authority, endsAuthority b = false) ∧
      ∀ b ∈ rest.head?, endsAuthority b = true := by
  unfold splitAuthority at h
  split at h
  · rename_i tail
    rw [List.span_eq_takeWhile_dropWhile] at h
    obtain ⟨rfl, rfl⟩ := Prod.mk.inj h
    refine ⟨by rw [List.takeWhile_append_dropWhile], ?_, ?_⟩
    · intro b hb
      simpa using List.mem_takeWhile_imp hb
    · intro b hb
      have hnot := List.head?_dropWhile_not (fun b => !endsAuthority b) tail
      rw [Option.mem_def.1 hb] at hnot
      simpa using hnot
  · exact absurd (Prod.mk.inj h).1.symm hne

/-! ## The form of a target -/

/-- A target that starts with no slash and reads, once cleaned, as a scheme, an authority, a path
and a query. -/
structure AbsoluteForm (target scheme authority path query : Bytes) : Prop where
  relative : target.head? ≠ some 47
  spelled : cleaned target = scheme ++ 58 :: 47 :: 47 :: (authority ++ (path ++ query))
  scheme : IsScheme scheme
  authority : authority ≠ [] ∧ ∀ b ∈ authority, endsAuthority b = false
  path : 63 ∉ path ∧ ∀ b ∈ path.head?, endsAuthority b = true
  query : query = [] ∨ query.head? = some 63

variable {target scheme authority path query : Bytes}

/-- The bytes that are checked for brackets. -/
def authorityOf (target : Bytes) : Bytes :=
  (splitAuthority (splitScheme (cleaned target)).2).1

theorem path_of_slash (h : target.head? = some 47) :
    Target.path target = .ok (beforeQuery target) := by
  obtain ⟨tail, rfl⟩ := List.head?_eq_some_iff.1 h
  rfl

theorem path_of_no_slash (h : target.head? ≠ some 47) :
    Target.path target = absolutePath target := by
  unfold Target.path
  split
  · exact absurd rfl h
  · rfl

/-- Without brackets there is nothing to refuse. -/
theorem bracket_of_check_error {e : Target.Error} (h : Authority.check authority = .error e) :
    91 ∈ authority ∨ 93 ∈ authority := by
  rw [← List.contains_iff_mem, ← List.contains_iff_mem]
  unfold Authority.check at h
  cases hopen : authority.contains 91 with
  | true => exact .inl rfl
  | false =>
    cases hclose : authority.contains 93 with
    | true => exact .inr rfl
    | false =>
      rw [hopen, hclose] at h
      contradiction

theorem cleaned_subset (target : Bytes) : cleaned target ⊆ target := fun _ hb =>
  (List.dropWhile_suffix _).subset (List.mem_filter.1 hb).1

theorem AbsoluteForm.beforeQuery_eq (h : AbsoluteForm target scheme authority path query) :
    beforeQuery (path ++ query) = path := by
  unfold beforeQuery
  refine before_singleton_eq_iff.2 ⟨h.path.1, ?_⟩
  obtain hquery | hquery := h.query
  · exact .inl (by rw [hquery, List.append_nil])
  · obtain ⟨tail, hquery⟩ := List.head?_eq_some_iff.1 hquery
    exact .inr ⟨tail, by rw [hquery]⟩

theorem AbsoluteForm.head?_ends (h : AbsoluteForm target scheme authority path query) :
    ∀ b ∈ (path ++ query).head?, endsAuthority b = true := by
  intro b hb
  cases hpath : path with
  | nil =>
    rw [hpath, List.nil_append] at hb
    obtain hquery | hquery := h.query
    · simp [hquery] at hb
    · rw [hquery] at hb
      obtain rfl := Option.some.inj hb
      decide
  | cons c tail =>
    rw [hpath] at hb
    exact h.path.2 b (by rw [hpath]; exact hb)

/-- The path of a target in absolute form. -/
theorem AbsoluteForm.path_eq (h : AbsoluteForm target scheme authority path query) :
    Target.path target =
      (Authority.check authority).map fun _ => if path = [] then [47] else path := by
  have hscheme : splitScheme (cleaned target) =
      (scheme, 47 :: 47 :: (authority ++ (path ++ query))) := by
    rw [h.spelled]
    exact splitScheme_of_isScheme h.scheme
  have hauthority := splitAuthority_of_slashes h.authority.2 h.head?_ends
  have hne : scheme ≠ [] := by
    obtain ⟨b, rest, hb, -⟩ := h.scheme
    simp [hb]
  rw [path_of_no_slash h.relative]
  unfold absolutePath
  rw [hscheme]
  dsimp only
  rw [hauthority]
  dsimp only
  rw [h.beforeQuery_eq]
  congr 1
  funext _
  rw [if_neg (by simp [hne, h.authority.1])]
  cases path <;> simp

theorem exists_absoluteForm {rest rest' : Bytes} (hrelative : target.head? ≠ some 47)
    (hscheme : splitScheme (cleaned target) = (scheme, rest)) (hne : scheme ≠ [])
    (hauthority : splitAuthority rest = (authority, rest')) (hne' : authority ≠ []) :
    ∃ path query, AbsoluteForm target scheme authority path query := by
  obtain ⟨his, hcleaned⟩ := isScheme_of_splitScheme hscheme hne
  obtain ⟨rfl, hpass, hends⟩ := slashes_of_splitAuthority hauthority hne'
  obtain ⟨hpath, hquery⟩ := before_singleton_eq_iff.1 (rfl : beforeQuery rest' = beforeQuery rest')
  obtain hall | ⟨query, hsplit⟩ := hquery
  · refine ⟨beforeQuery rest', [], hrelative, ?_, his, ⟨hne', hpass⟩, ⟨hpath, ?_⟩, .inl rfl⟩
    · rw [List.append_nil, ← hall, hcleaned]
    · rwa [← hall]
  · refine ⟨beforeQuery rest', 63 :: query, hrelative, ?_, his, ⟨hne', hpass⟩, ⟨hpath, ?_⟩,
      .inr rfl⟩
    · rw [← hsplit, hcleaned]
    · intro b hb
      refine hends b ?_
      rw [hsplit, List.head?_append, hb]
      rfl

/-- The path of a target in neither form is the target. -/
theorem path_of_no_form (hrelative : target.head? ≠ some 47)
    (hform : ∀ scheme authority path query, ¬ AbsoluteForm target scheme authority path query) :
    Target.path target = (Authority.check (authorityOf target)).map fun _ => target := by
  rw [path_of_no_slash hrelative]
  unfold absolutePath authorityOf
  cases hscheme : splitScheme (cleaned target) with
  | mk scheme rest =>
    dsimp only
    cases hauthority : splitAuthority rest with
    | mk authority rest =>
      dsimp only
      congr 1
      funext _
      refine if_pos ?_
      by_cases hempty : scheme = [] ∨ authority = []
      · simpa using hempty
      · obtain ⟨hscheme', hauthority'⟩ := not_or.1 hempty
        obtain ⟨path, query, hform'⟩ := exists_absoluteForm hrelative hscheme hscheme' hauthority
          hauthority'
        exact absurd hform' (hform scheme authority path query)

/-- All that the path of a target can be. -/
theorem path_cases {result : Bytes} (h : Target.path target = .ok result) :
    target.head? = some 47 ∧ result = beforeQuery target ∨
      target.head? ≠ some 47 ∧
        ((∃ scheme authority path query, AbsoluteForm target scheme authority path query ∧
            result = if path = [] then [47] else path) ∨
          result = target) := by
  have hmap {e : Except Target.Error Unit} {found : Bytes} (hfound : (e.map fun _ => found) =
      .ok result) : result = found := by
    cases e with
    | error => contradiction
    | ok => exact (Except.ok.inj hfound).symm
  by_cases hslash : target.head? = some 47
  · rw [path_of_slash hslash] at h
    exact .inl ⟨hslash, (Except.ok.inj h).symm⟩
  · refine .inr ⟨hslash, ?_⟩
    by_cases hform : ∃ scheme authority path query, AbsoluteForm target scheme authority path query
    · obtain ⟨scheme, authority, path, query, hform⟩ := hform
      rw [hform.path_eq] at h
      exact .inl ⟨scheme, authority, path, query, hform, hmap h⟩
    · rw [path_of_no_form hslash fun scheme authority path query his =>
        hform ⟨scheme, authority, path, query, his⟩] at h
      exact .inr (hmap h)

/-! ## The bytes of a path -/

theorem beforeQuery_isInfix (target : Bytes) : beforeQuery target <:+: target := by
  obtain ⟨-, hall | ⟨query, hquery⟩⟩ :=
    before_singleton_eq_iff.1 (rfl : beforeQuery target = beforeQuery target)
  · exact ⟨[], [], by rw [List.append_nil, List.nil_append, ← hall]⟩
  · exact ⟨[], 63 :: query, hquery.symm⟩

theorem isInfix_cleaned (h : AbsoluteForm target scheme authority path query) :
    path <:+: cleaned target := by
  refine ⟨scheme ++ 58 :: 47 :: 47 :: authority, query, ?_⟩
  rw [h.spelled]
  simp

/-- A path is made of bytes of its target, but for the slash of a target that has none. -/
theorem mem_of_path {result : Bytes} (h : Target.path target = .ok result) {b : UInt8}
    (hb : b ∈ result) : b ∈ target ∨ b = 47 := by
  obtain ⟨-, rfl⟩ | ⟨-, ⟨scheme, authority, path, query, hform, rfl⟩ | rfl⟩ := path_cases h
  · exact .inl ((beforeQuery_isInfix target).subset hb)
  · split at hb
    · exact .inr (List.mem_singleton.1 hb)
    · exact .inl (cleaned_subset target ((isInfix_cleaned hform).subset hb))
  · exact .inl hb

end CannedReply.Proofs.Target.Forms
