import CannedReply.Proofs.Latin1
import CannedReply.Proofs.Routes.Filling
import Mathlib.Data.Finset.Card
import Mathlib.Data.Finset.Insert
/-!
# The history of a route table

Whatever is added to a table and looked up in it, it answers as a finite map from pairs of a method
and a path to handlers: by the last of the additions that were successful, pair by pair.  Main
statement: `table_acts_as_map`.
-/

namespace CannedReply.Proofs.Routes.History

open CannedReply.Routes
open CannedReply.Proofs.Latin1
open CannedReply.Proofs.OrderedMap
open CannedReply.Proofs.Routes.Filling

/-! ## Operations -/

inductive Operation where
  | add (route : Route)
  | resolve (method path : String)

inductive Answer where
  | added
  | refused (e : Routes.Error)
  | resolved (handler : Option Handler)

/-- Handlers cannot be compared, but whether an addition was successful can be seen. -/
instance (answer : Answer) : Decidable (answer = .added) :=
  match answer with
  | .added => isTrue rfl
  | .refused _ => isFalse nofun
  | .resolved _ => isFalse nofun

/-- What an operation makes of a table, and its answer. -/
def perform (table : Routes) : Operation → Routes × Answer
  | .add route =>
    match table.add route.1.1 route.1.2 route.2 with
    | .ok grown => (grown, .added)
    | .error e => (table, .refused e)
  | .resolve method path => (table, .resolved (table.resolve? method path))

/-- The table that a history leaves behind, from an empty one on. -/
def tableAfter (history : List Operation) : Routes :=
  history.foldl (fun table operation => (perform table operation).1) .empty

/-- What is seen of an operation behind a history: its answer, and the size of the table after
it. -/
def seen (history : List Operation) (operation : Operation) : Answer × Nat :=
  ((perform (tableAfter history) operation).2,
    (perform (tableAfter history) operation).1.size)

/-! ## The finite map -/

/-- How an addition is answered.  The method is looked at before the path. -/
def verdict (route : Route) : Answer :=
  if Delimiter.trim Text.isBlank route.1.1.toList = [] then .refused .emptyMethod
  else if route.1.2.toList.head? = some '/' then .added
  else .refused .relativePath

/-- The route of a successful addition. -/
def accepted? : Operation → Option Route
  | .add route => if verdict route = .added then some route else none
  | .resolve .. => none

/-- The routes that were added successfully, in their order. -/
def accepted (history : List Operation) : List Route := history.filterMap accepted?

/-- The pairs of a method and a path that were added successfully. -/
def pairs (history : List Operation) : Finset (String × String) :=
  ((accepted history).map Prod.fst).toFinset

/-- What a finite map of the successful additions answers. -/
def answerOf (history : List Operation) : Operation → Answer
  | .add route => verdict route
  | .resolve method path => .resolved (last? (method, path) (accepted history))

/-! ## A single operation -/

theorem verdict_eq_added_iff {route : Route} :
    verdict route = .added ↔ IsValid route.1.1 route.1.2 := by
  have hmethod : Delimiter.trim Text.isBlank route.1.1.toList ≠ [] ↔
      ∃ c ∈ route.1.1.toList, Text.isBlank c = false := by
    simp [all_blank_iff]
  unfold verdict
  by_cases hblank : Delimiter.trim Text.isBlank route.1.1.toList = []
  · rw [if_pos hblank]
    refine iff_of_false (by simp) fun hvalid => ?_
    exact hmethod.2 hvalid.method hblank
  · rw [if_neg hblank]
    by_cases hpath : route.1.2.toList.head? = some '/'
    · rw [if_pos hpath]
      exact iff_of_true rfl ⟨hmethod.1 hblank, hpath⟩
    · rw [if_neg hpath]
      exact iff_of_false (by simp) fun hvalid => hpath hvalid.path

/-- A route is refused by every table, and for the same reason. -/
theorem add_of_not_added (table : Routes) {route : Route} (h : verdict route ≠ .added) :
    ∃ e, verdict route = .refused e ∧ table.add route.1.1 route.1.2 route.2 = .error e := by
  unfold verdict at h ⊢
  by_cases hblank : Delimiter.trim Text.isBlank route.1.1.toList = []
  · rw [if_pos hblank, add, if_pos (List.all_eq_true.2 (all_blank_iff.1 hblank))]
    exact ⟨_, rfl, rfl⟩
  · rw [if_neg hblank] at h ⊢
    have hsolid : ¬ route.1.1.toList.all Text.isBlank = true := fun hall =>
      hblank (all_blank_iff.2 (List.all_eq_true.1 hall))
    have hpath : route.1.2.toList.head? ≠ some '/' := fun hslash => h (if_pos hslash)
    rw [if_neg hpath, add, if_neg hsolid, if_pos hpath]
    exact ⟨_, rfl, rfl⟩

/-- A table takes a route or leaves it, and its answer says which. -/
theorem perform_add (table : Routes) (route : Route) :
    perform table (.add route) =
      if verdict route = .added then (⟨table.table.insert route.1 route.2⟩, .added)
      else (table, verdict route) := by
  by_cases hadded : verdict route = .added
  · rw [if_pos hadded, perform, add_of_isValid (verdict_eq_added_iff.1 hadded)]
  · obtain ⟨e, hrefused, hadd⟩ := add_of_not_added table hadded
    rw [if_neg hadded, perform, hadd, hrefused]

theorem table_perform (table : Routes) (operation : Operation) :
    (perform table operation).1 =
      ⟨insertAll table.table (accepted? operation).toList⟩ := by
  cases operation with
  | resolve method path => rfl
  | add route =>
    rw [perform_add, accepted?]
    split
    · rfl
    · rfl

/-! ## Histories -/

theorem foldl_perform (table : Routes) (history : List Operation) :
    history.foldl (fun table operation => (perform table operation).1) table =
      ⟨insertAll table.table (accepted history)⟩ := by
  induction history generalizing table with
  | nil => rfl
  | cons operation history ih =>
    rw [List.foldl_cons, ih, table_perform, accepted, accepted, List.filterMap_cons]
    cases accepted? operation with
    | none => rfl
    | some route => rfl

/-- A table holds what was added to it successfully, and nothing else. -/
theorem tableAfter_eq (history : List Operation) :
    tableAfter history = ⟨.ofList (accepted history)⟩ :=
  foldl_perform .empty history

theorem size_tableAfter (history : List Operation) :
    (tableAfter history).size = (pairs history).card := by
  have hsame : (OrderedMap.ofList (accepted history)).keys.toFinset = pairs history := by
    ext pair
    simp [keys_ofList, pairs]
  calc (tableAfter history).size
    _ = (OrderedMap.ofList (accepted history)).keys.length := by
      rw [tableAfter_eq, Routes.size, OrderedMap.size, OrderedMap.keys, List.length_map]
    _ = (pairs history).card := by
      rw [← hsame, List.toFinset_card_of_nodup (nodup_keys _)]

theorem seen_eq (history : List Operation) (operation : Operation) :
    seen history operation =
      (answerOf history operation, (pairs (history ++ [operation])).card) := by
  have hafter : (perform (tableAfter history) operation).1 =
      tableAfter (history ++ [operation]) := by
    simp [tableAfter]
  rw [seen, hafter, size_tableAfter]
  congr 1
  cases operation with
  | resolve method path =>
    rw [tableAfter_eq]
    exact congrArg Answer.resolved (resolve?_filled (accepted history) method path)
  | add route =>
    rw [perform_add, answerOf]
    split
    · symm
      assumption
    · rfl

/-- What is seen depends on the successful additions only, and among them only on the last for
each pair and on the pairs. -/
theorem seen_congr {history history' : List Operation}
    (hlast : ∀ pair, last? pair (accepted history) = last? pair (accepted history'))
    (hpairs : pairs history = pairs history') (operation : Operation) :
    seen history operation = seen history' operation := by
  have hgrown (history : List Operation) :
      pairs (history ++ [operation]) = pairs history ∪ pairs [operation] := by
    simp [pairs, accepted]
  rw [seen_eq, seen_eq, hgrown, hgrown, hpairs]
  cases operation with
  | add route => rfl
  | resolve method path => rw [answerOf, answerOf, hlast]

/-! ## Exchanged additions -/

section Exchange

variable {κ ν : Type} [DecidableEq κ] {first second : κ × ν}

theorem lookup_swap (hne : first.1 ≠ second.1) (rest : List (κ × ν)) (key : κ) :
    (second :: first :: rest).lookup key = (first :: second :: rest).lookup key := by
  obtain ⟨name, value⟩ := first
  obtain ⟨name', value'⟩ := second
  by_cases hkey : key = name
  · have hother : (key == name') = false :=
      beq_eq_false_iff_ne.2 fun hkey' => hne (hkey.symm.trans hkey')
    simp [List.lookup_cons, hother]
  · have hother : (key == name) = false := beq_eq_false_iff_ne.2 hkey
    simp [List.lookup_cons, hother]

/-- The order of two neighbours with different keys does not show. -/
theorem last?_swap (hne : first.1 ≠ second.1) (before after : List (κ × ν)) (key : κ) :
    last? key (before ++ first :: second :: after) =
      last? key (before ++ second :: first :: after) := by
  simp only [last?, List.reverse_append, List.reverse_cons, List.append_assoc, List.cons_append,
    List.nil_append]
  rw [List.lookup_append, List.lookup_append, lookup_swap hne]

end Exchange

/-! ## Tables as maps -/

/-- Every operation is answered as by the finite map of the successful additions before it, and
the table is as large as that map.  An addition that is refused shows nowhere later, and neither
does the order of two that are not, if they are for different pairs. -/
theorem table_acts_as_map (history : List Operation) :
    (∀ operation, seen history operation =
      (answerOf history operation, (pairs (history ++ [operation])).card)) ∧
    (∀ route, verdict route ≠ .added → ∀ later operation,
      seen (history ++ .add route :: later) operation = seen (history ++ later) operation) ∧
    ∀ route route', verdict route = .added → verdict route' = .added → route.1 ≠ route'.1 →
      ∀ later operation, seen (history ++ .add route :: .add route' :: later) operation =
        seen (history ++ .add route' :: .add route :: later) operation := by
  refine ⟨seen_eq history, ?_, ?_⟩
  · intro route hrefused later operation
    have hsame : accepted (history ++ .add route :: later) = accepted (history ++ later) := by
      simp [accepted, accepted?, hrefused]
    apply seen_congr
    · intro pair
      rw [hsame]
    · rw [pairs, hsame, pairs]
  · intro route route' hadded hadded' hne later operation
    have hinserted (route route' : Route) (hadded : verdict route = .added)
        (hadded' : verdict route' = .added) :
        accepted (history ++ .add route :: .add route' :: later) =
          accepted history ++ route :: route' :: accepted later := by
      simp [accepted, accepted?, hadded, hadded']
    apply seen_congr
    · intro pair
      rw [hinserted route route' hadded hadded', hinserted route' route hadded' hadded,
        last?_swap hne]
    · have hperm : (accepted history ++ route :: route' :: accepted later).Perm
          (accepted history ++ route' :: route :: accepted later) :=
        (List.Perm.swap ..).append_left _
      rw [pairs, pairs, hinserted route route' hadded hadded',
        hinserted route' route hadded' hadded]
      exact List.toFinset_eq_of_perm _ _ (hperm.map Prod.fst)

/-- Additions whose pairs differ in a letter or a slash, and a second one for the first pair. -/
def nearMisses : List Operation :=
  [.add (("POST", "/a"), .serveReply [65]), .add (("post", "/a"), .serveReply [66]),
    .add (("POST", "/a/"), .serveReply [67]), .add (("POST", "/a"), .serveReply [68])]

/-- A method of white space only. -/
def blankMethod : Route := (("\t ", "/a"), .serveReply [69])

/-- Routes with the same method and different paths. -/
def puts : Route × Route := ((("PUT", "/a"), .serveReply [70]), (("PUT", "/b"), .serveReply [71]))

theorem table_acts_as_map_near_misses :
    seen nearMisses (.resolve "POST" "/a") = (.resolved (some (.serveReply [68])), 3) ∧
      seen nearMisses (.resolve "POST" "//a") = (.resolved none, 3) ∧
      seen nearMisses (.add blankMethod) = (.refused .emptyMethod, 3) ∧
      (verdict blankMethod ≠ .added ∧
        seen (.add blankMethod :: nearMisses) (.resolve "\t " "/a") =
          seen nearMisses (.resolve "\t " "/a")) ∧
      verdict puts.1 = .added ∧ verdict puts.2 = .added ∧
        seen (nearMisses ++ [.add puts.1, .add puts.2]) (.resolve "PUT" "/a") =
          seen (nearMisses ++ [.add puts.2, .add puts.1]) (.resolve "PUT" "/a") := by
  obtain ⟨hseen, -, hswap⟩ := table_acts_as_map nearMisses
  have hrefused : verdict blankMethod ≠ .added := by decide
  have hput : verdict puts.1 = .added := by decide
  have hput' : verdict puts.2 = .added := by decide
  refine ⟨?_, ?_, ?_, ⟨hrefused, ?_⟩, hput, hput', ?_⟩
  · rw [hseen]
    rfl
  · rw [hseen]
    rfl
  · rw [hseen]
    rfl
  · exact (table_acts_as_map []).2.1 blankMethod hrefused nearMisses (.resolve "\t " "/a")
  · exact hswap _ _ hput hput' (by decide) [] (.resolve "PUT" "/a")

end CannedReply.Proofs.Routes.History
