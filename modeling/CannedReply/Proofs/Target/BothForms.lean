import CannedReply.Proofs.Target.Cleaning
/-!
# One target in both forms

A scheme and an authority in front of a target in origin form do not change its path, and with no
path behind them they have the path of the root.  Main statement: `absolute_form_routes_alike`.
-/

namespace CannedReply.Proofs.Target.BothForms

open CannedReply.Target
open CannedReply.Proofs.Cut
open CannedReply.Proofs.Target.Cleaning
open CannedReply.Proofs.Target.Forms

/-- A target behind a scheme and an authority. -/
def behind (scheme authority target : Bytes) : Bytes :=
  scheme ++ (Bytes.ofText "://" ++ (authority ++ target))

variable {scheme authority : Bytes}

theorem cleaned_behind (hscheme : IsScheme scheme) (hstays : ∀ b ∈ authority, stays b = true)
    (target : Bytes) :
    cleaned (behind scheme authority target) =
      scheme ++ 58 :: 47 :: 47 :: (authority ++ target.filter stays) := by
  obtain ⟨b, rest, rfl, hletter, hrest⟩ := hscheme
  have hscheme' : rest.filter stays = rest :=
    List.filter_eq_self.2 fun c hc => stays_of_solid (solid_of_isSchemeByte (hrest c hc))
  have hslashes : (Bytes.ofText "://").filter stays = [58, 47, 47] := rfl
  rw [behind, List.cons_append, cleaned_cons (solid_of_isLetter hletter), List.filter_append,
    List.filter_append, List.filter_append, hscheme', hslashes, List.filter_eq_self.2 hstays]
  rfl

/-- A target with a scheme and an authority is in absolute form, whatever cleaning leaves out of
its path and its query. -/
theorem absoluteForm_behind (hscheme : IsScheme scheme) (hne : authority ≠ [])
    (hauthority : ∀ b ∈ authority, endsAuthority b = false ∧ stays b = true)
    {target path query : Bytes} (htarget : target.filter stays = path ++ query)
    (hpath : 63 ∉ path ∧ ∀ b ∈ path.head?, endsAuthority b = true)
    (hquery : query = [] ∨ query.head? = some 63) :
    AbsoluteForm (behind scheme authority target) scheme authority path query where
  relative := by
    obtain ⟨b, rest, rfl, hletter, -⟩ := hscheme
    intro hslash
    obtain rfl : b = 47 := by simpa [behind] using hslash
    contradiction
  spelled := by rw [cleaned_behind hscheme fun b hb => (hauthority b hb).2, htarget]
  scheme := hscheme
  authority := ⟨hne, fun b hb => (hauthority b hb).1⟩
  path := hpath
  query := hquery

theorem check_of_no_bracket (h : 91 ∉ authority ∧ 93 ∉ authority) :
    Authority.check authority = .ok () := by
  cases hcheck : Authority.check authority with
  | ok => rfl
  | error e =>
    obtain hopen | hclose := bracket_of_check_error hcheck
    · exact absurd hopen h.1
    · exact absurd hclose h.2

theorem plain_of_not_mem {b : UInt8} (h : b ∉ Bytes.ofText "/?#[]\t\r\n") :
    endsAuthority b = false ∧ stays b = true := by
  have hends : ∀ c, endsAuthority c = true → c ∈ Bytes.ofText "/?#[]\t\r\n" := by
    intro c hc
    simp only [endsAuthority, Bool.or_eq_true, beq_iff_eq] at hc
    obtain (rfl | rfl) | rfl := hc
    all_goals decide
  have hbytes : Bytes.ofText "/?#[]\t\r\n" = Bytes.ofText "/?#[]" ++ Bytes.ofText "\t\r\n" := rfl
  refine ⟨Bool.eq_false_iff.2 fun hb => h (hends b hb), stays_iff.2 fun hb => h ?_⟩
  rw [hbytes]
  exact List.mem_append_right _ hb

/-! ## Paths and queries -/

/-- What stands before the query is all that stands before the first question mark. -/
theorem beforeQuery_eq_takeWhile (target : Bytes) :
    beforeQuery target = target.takeWhile (· != 63) := by
  obtain ⟨hnot, hsplit⟩ := before_singleton_eq_iff.1 (rfl : beforeQuery target = beforeQuery target)
  have hpass : ∀ b ∈ beforeQuery target, (b != 63) = true := by
    intro b hb
    rw [bne_iff_ne]
    rintro rfl
    exact hnot hb
  obtain hall | ⟨query, hquery⟩ := hsplit
  · calc
      beforeQuery target = (beforeQuery target).takeWhile (· != 63) :=
        (List.takeWhile_eq_self_iff.2 hpass).symm
      _ = target.takeWhile (· != 63) := by rw [← hall]
  · calc
      beforeQuery target = (beforeQuery target ++ 63 :: query).takeWhile (· != 63) := by
        rw [List.takeWhile_append_of_pos hpass, List.takeWhile_cons_of_neg (by simp),
          List.append_nil]
      _ = target.takeWhile (· != 63) := by rw [← hquery]

/-- A target in origin form is its path and a query. -/
theorem exists_query {target : Bytes} (h : target.head? = some 47) :
    ∃ query, target = beforeQuery target ++ query ∧ 63 ∉ beforeQuery target ∧
      (beforeQuery target).head? = some 47 ∧ (query = [] ∨ query.head? = some 63) := by
  obtain ⟨hnot, hsplit⟩ := before_singleton_eq_iff.1 (rfl : beforeQuery target = beforeQuery target)
  have hhead : (beforeQuery target).head? = some 47 := by
    obtain ⟨tail, rfl⟩ := List.head?_eq_some_iff.1 h
    rw [beforeQuery_eq_takeWhile, List.takeWhile_cons_of_pos (by decide)]
    rfl
  obtain hall | ⟨query, hquery⟩ := hsplit
  · exact ⟨[], by rw [List.append_nil, ← hall], hnot, hhead, .inl rfl⟩
  · exact ⟨63 :: query, hquery, hnot, hhead, .inr rfl⟩

/-! ## The two forms -/

/-- Behind a scheme and an authority a target in origin form keeps its path. -/
theorem path_behind_of_slash (hscheme : IsScheme scheme) (hne : authority ≠ [])
    (hplain : ∀ b ∈ authority, endsAuthority b = false ∧ stays b = true)
    (hcheck : Authority.check authority = .ok ()) {target : Bytes} (hslash : target.head? = some 47)
    (hstays : ∀ b ∈ target, stays b = true) :
    Target.path (behind scheme authority target) = .ok (beforeQuery target) := by
  obtain ⟨query, htarget, hnot, hhead, hquery⟩ := exists_query hslash
  have hkept : target.filter stays = beforeQuery target ++ query := by
    rw [List.filter_eq_self.2 hstays, ← htarget]
  have hends : ∀ b ∈ (beforeQuery target).head?, endsAuthority b = true := by
    intro b hb
    obtain rfl : 47 = b := by simpa [hhead] using hb
    decide
  have hne' : beforeQuery target ≠ [] := by
    intro hempty
    simp [hempty] at hhead
  have hform := absoluteForm_behind hscheme hne hplain hkept ⟨hnot, hends⟩ hquery
  rw [hform.path_eq, hcheck, Except.map, if_neg hne']

/-- A scheme and an authority alone have the path of the root, whatever the query is. -/
theorem path_behind_of_no_path (hscheme : IsScheme scheme) (hne : authority ≠ [])
    (hplain : ∀ b ∈ authority, endsAuthority b = false ∧ stays b = true)
    (hcheck : Authority.check authority = .ok ()) {target : Bytes}
    (hquery : target = [] ∨ target.head? = some 63) :
    Target.path (behind scheme authority target) = .ok [47] := by
  have hkept : target.filter stays = [] ∨ (target.filter stays).head? = some 63 := by
    obtain rfl | hquery := hquery
    · exact .inl rfl
    · obtain ⟨tail, rfl⟩ := List.head?_eq_some_iff.1 hquery
      exact .inr (by rw [List.filter_cons_of_pos (by decide), List.head?_cons])
  have hform := absoluteForm_behind hscheme hne hplain (List.nil_append (target.filter stays)).symm
    ⟨by simp, by simp⟩ hkept
  rw [hform.path_eq, hcheck, Except.map, if_pos rfl]

/-- A target is routed alike in origin form and behind any scheme and authority: by all that
stands before its query, as it stands there.  Without a path it is routed by a slash. -/
theorem absolute_form_routes_alike (hscheme : IsScheme scheme) (hne : authority ≠ [])
    (hauthority : ∀ b ∈ authority, b ∉ Bytes.ofText "/?#[]\t\r\n") :
    (∀ target : Bytes, target.head? = some 47 → (∀ b ∈ target, b ∉ Bytes.ofText "\t\r\n") →
      Target.path (behind scheme authority target) = Target.path target ∧
        Target.path target = .ok (target.takeWhile (· != 63))) ∧
      ∀ target : Bytes, target = [] ∨ target.head? = some 63 →
        Target.path (behind scheme authority target) = .ok [47] := by
  have hplain : ∀ b ∈ authority, endsAuthority b = false ∧ stays b = true :=
    fun b hb => plain_of_not_mem (hauthority b hb)
  have hcheck : Authority.check authority = .ok () :=
    check_of_no_bracket ⟨fun h => hauthority _ h (by decide), fun h => hauthority _ h (by decide)⟩
  refine ⟨fun target hslash hkept => ?_, fun target => path_behind_of_no_path hscheme hne hplain
    hcheck⟩
  have hstays : ∀ b ∈ target, stays b = true := fun b hb => stays_iff.2 (hkept b hb)
  rw [path_behind_of_slash hscheme hne hplain hcheck hslash hstays, path_of_slash hslash,
    beforeQuery_eq_takeWhile]
  exact ⟨rfl, rfl⟩

/-- Doubled slashes, dot segments, escapes and a number sign are all kept, and the query is cut
off. -/
theorem absolute_form_routes_alike_unnormalized :
    Target.path (Bytes.ofText "x-9+a://u:p@mock:80//a/../%2E/#b?c=/d") =
        .ok (Bytes.ofText "//a/../%2E/#b") ∧
      Target.path (Bytes.ofText "x-9+a://u:p@mock:80?c=/\td") = .ok (Bytes.ofText "/") := by
  have hscheme : IsScheme (Bytes.ofText "x-9+a") :=
    ⟨_, _, rfl, by decide, List.all_eq_true.1 rfl⟩
  have hauthority : ∀ b ∈ Bytes.ofText "u:p@mock:80", b ∉ Bytes.ofText "/?#[]\t\r\n" := by
    have hnone : ((Bytes.ofText "u:p@mock:80").all fun b =>
        !(Bytes.ofText "/?#[]\t\r\n").contains b) = true := rfl
    simpa using hnone
  have hkept : ∀ b ∈ Bytes.ofText "//a/../%2E/#b?c=/d", b ∉ Bytes.ofText "\t\r\n" :=
    fun b hb => stays_iff.1 (List.all_eq_true.1 rfl b hb)
  have halike := absolute_form_routes_alike hscheme (by decide) hauthority
  have horigin := halike.1 (Bytes.ofText "//a/../%2E/#b?c=/d") rfl hkept
  exact ⟨horigin.1.trans horigin.2, halike.2 (Bytes.ofText "?c=/\td") (.inr rfl)⟩

end CannedReply.Proofs.Target.BothForms
