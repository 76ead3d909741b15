import CannedReply.Proofs.OrderedMap
import CannedReply.Routes
/-!
# Filled route tables

A table that is filled from a list of valid routes holds each method and path once, with the
handler that was added last for the two.
-/

namespace CannedReply.Proofs.Routes.Filling

open CannedReply.Routes
open CannedReply.Proofs.OrderedMap

/-- A method and a path, and the handler for the two. -/
abbrev Route := (String × String) × Handler

/-- A table that takes the routes one after the other, up to the first that it refuses. -/
def fill (routes : List Route) : Except Routes.Error Routes :=
  routes.foldlM (fun table route => table.add route.1.1 route.1.2 route.2) .empty

/-- The method is not blank, and the path starts with a slash. -/
structure IsValid (method path : String) : Prop where
  method : ∃ c ∈ method.toList, Text.isBlank c = false
  path : path.toList.head? = some '/'

instance (method path : String) : Decidable (IsValid method path) :=
  decidable_of_iff
    (method.toList.any (fun c => !Text.isBlank c) = true ∧ path.toList.head? = some '/')
    ⟨fun h => ⟨by simpa using h.1, h.2⟩, fun h => ⟨by simpa using h.method, h.path⟩⟩

/-- The value that comes last for a key. -/
def last? {κ ν : Type} [DecidableEq κ] (key : κ) (entries : List (κ × ν)) : Option ν :=
  entries.reverse.lookup key

theorem add_of_isValid {method path : String} (h : IsValid method path) (table : Routes)
    (handler : Handler) :
    table.add method path handler = .ok ⟨table.table.insert (method, path) handler⟩ := by
  obtain ⟨c, hc, hsolid⟩ := h.method
  have hmethod : ¬ method.toList.all Text.isBlank = true := by
    intro hblank
    rw [List.all_eq_true.1 hblank c hc] at hsolid
    contradiction
  rw [add, if_neg hmethod, if_neg (by simp [h.path])]

theorem foldlM_add {routes : List Route} (h : ∀ route ∈ routes, IsValid route.1.1 route.1.2)
    (table : Routes) :
    routes.foldlM (fun table route => table.add route.1.1 route.1.2 route.2) table =
      .ok ⟨insertAll table.table routes⟩ := by
  induction routes generalizing table with
  | nil => rfl
  | cons route routes ih =>
    obtain ⟨hroute, hroutes⟩ := List.forall_mem_cons.1 h
    rw [List.foldlM_cons, add_of_isValid hroute]
    exact ih hroutes _

/-- Valid routes fill a table. -/
theorem fill_of_isValid {routes : List Route}
    (h : ∀ route ∈ routes, IsValid route.1.1 route.1.2) :
    fill routes = .ok ⟨.ofList routes⟩ :=
  foldlM_add h .empty

theorem resolve?_filled (routes : List Route) (method path : String) :
    (Routes.mk (.ofList routes)).resolve? method path = last? (method, path) routes :=
  get?_ofList routes (method, path)

/-- Only a table that took no route is empty. -/
theorem size_filled_eq_zero_iff (routes : List Route) :
    (Routes.mk (.ofList routes)).size = 0 ↔ routes = [] := by
  have hsize : (Routes.mk (.ofList routes)).size = (OrderedMap.ofList routes).keys.length :=
    (List.length_map _).symm
  rw [hsize, keys_ofList]
  cases routes with
  | nil => simp
  | cons route routes => simp [List.eraseDups_cons]

end CannedReply.Proofs.Routes.Filling
