import CannedReply.OrderedMap
import Mathlib.Data.List.Nodup
/-!
# Maps that are filled entry by entry

Filling a map keeps the keys in the order of their first entries, each with the value of its last,
and the entries of a map fill it again.
-/

namespace CannedReply.Proofs.OrderedMap

open CannedReply.OrderedMap

variable {κ ν : Type} [DecidableEq κ]

/-- Inserts entries one after the other. -/
def insertAll (m : OrderedMap κ ν) (entries : List (κ × ν)) : OrderedMap κ ν :=
  entries.foldl (fun m entry => m.insert entry.1 entry.2) m

@[simp] theorem insertAll_nil (m : OrderedMap κ ν) : insertAll m [] = m := rfl

@[simp] theorem insertAll_cons (m : OrderedMap κ ν) (entry : κ × ν) (entries : List (κ × ν)) :
    insertAll m (entry :: entries) = insertAll (m.insert entry.1 entry.2) entries :=
  rfl

theorem ofList_eq_insertAll (entries : List (κ × ν)) : ofList entries = insertAll empty entries :=
  rfl

omit [DecidableEq κ] in
theorem ext_entries {m m' : OrderedMap κ ν} (h : m.entries = m'.entries) : m = m' := by
  cases m
  cases m'
  congr

/-! ## Keys and values -/

theorem keys_insertAll (m : OrderedMap κ ν) (entries : List (κ × ν)) :
    (insertAll m entries).keys =
      m.keys ++ ((entries.map Prod.fst).filter fun key => key ∉ m.keys).eraseDups := by
  induction entries generalizing m with
  | nil => simp
  | cons entry entries ih =>
    rw [insertAll_cons, ih, keys_insert, List.map_cons]
    by_cases hkey : entry.1 ∈ m.keys
    · rw [if_pos hkey, List.filter_cons_of_neg (by simpa using hkey)]
    · rw [if_neg hkey, List.filter_cons_of_pos (by simpa using hkey), List.eraseDups_cons,
        List.filter_filter, List.append_assoc, List.singleton_append]
      congr 3
      apply List.filter_congr
      intro key _
      by_cases hsame : key = entry.1 <;> simp [hsame]

/-- The keys of a filled map come in the order of their first entries. -/
theorem keys_ofList (entries : List (κ × ν)) :
    (ofList entries).keys = (entries.map Prod.fst).eraseDups := by
  have hall : ((entries.map Prod.fst).filter fun key => key ∉ (empty : OrderedMap κ ν).keys) =
      entries.map Prod.fst := by
    apply List.filter_eq_self.2
    intro key _
    simp [OrderedMap.keys, OrderedMap.empty]
  rw [ofList_eq_insertAll, keys_insertAll, hall]
  rfl

theorem get?_insertAll (m : OrderedMap κ ν) (entries : List (κ × ν)) (key : κ) :
    (insertAll m entries).get? key = (entries.reverse.lookup key).or (m.get? key) := by
  induction entries generalizing m with
  | nil => simp
  | cons entry entries ih =>
    obtain ⟨name, value⟩ := entry
    rw [insertAll_cons, ih, get?_insert, List.reverse_cons, List.lookup_append, Option.or_assoc]
    congr 1
    by_cases hkey : name = key
    · simp [hkey]
    · have hne : (key == name) = false := by simpa using Ne.symm hkey
      simp [List.lookup_cons, hkey, hne]

/-- A key of a filled map has the value of its last entry. -/
theorem get?_ofList (entries : List (κ × ν)) (key : κ) :
    (ofList entries).get? key = entries.reverse.lookup key := by
  rw [ofList_eq_insertAll, get?_insertAll, get?_empty, Option.or_none]

/-! ## Entries -/

theorem get?_eq_some_iff {m : OrderedMap κ ν} {key : κ} {value : ν} :
    m.get? key = some value ↔ (key, value) ∈ m.entries := by
  have hnodup := m.nodup
  unfold get?
  generalize m.entries = entries at hnodup
  induction entries with
  | nil => simp
  | cons entry entries ih =>
    rw [List.map_cons, List.nodup_cons] at hnodup
    rw [List.find?_cons, List.mem_cons]
    by_cases hkey : entry.1 = key
    · have hother : (key, value) ∉ entries := fun hmem =>
        hnodup.1 (hkey ▸ List.mem_map_of_mem (f := Prod.fst) hmem)
      simp only [hkey, decide_true, Option.map_some, Option.some.injEq, hother, or_false]
      constructor
      · rintro rfl
        rw [← hkey]
      · rintro rfl
        rfl
    · have hne : (key, value) ≠ entry := by
        rintro rfl
        exact hkey rfl
      simp only [hkey, decide_false, hne, false_or]
      exact ih hnodup.2

theorem mem_entries_insert {m : OrderedMap κ ν} {key : κ} {value : ν} {entry : κ × ν} :
    entry ∈ (m.insert key value).entries ↔
      entry = (key, value) ∨ entry.1 ≠ key ∧ entry ∈ m.entries := by
  obtain ⟨name, text⟩ := entry
  rw [← get?_eq_some_iff, ← get?_eq_some_iff, get?_insert]
  by_cases hkey : key = name
  · simp [hkey, eq_comm]
  · simp [hkey, Ne.symm hkey]

theorem mem_entries_insertNew {m : OrderedMap κ ν} {key : κ} {value : ν} {entry : κ × ν}
    (h : entry ∈ (m.insertNew key value).entries) : entry = (key, value) ∨ entry ∈ m.entries := by
  unfold insertNew at h
  split at h
  · exact .inr h
  · exact (mem_entries_insert.1 h).imp_right And.right

omit [DecidableEq κ] in
theorem nodup_keys (m : OrderedMap κ ν) : m.keys.Nodup := m.nodup

theorem mem_keys_insert {m : OrderedMap κ ν} {key other : κ} {value : ν} :
    other ∈ (m.insert key value).keys ↔ other = key ∨ other ∈ m.keys := by
  rw [keys_insert]
  split
  · rename_i hkey
    refine ⟨.inr, ?_⟩
    rintro (rfl | hother)
    · exact hkey
    · exact hother
  · rw [List.mem_append, List.mem_singleton, or_comm]

theorem mem_keys_of_get? {m : OrderedMap κ ν} {key : κ} (h : (m.get? key).isSome) :
    key ∈ m.keys := by
  obtain ⟨value, hvalue⟩ := Option.isSome_iff_exists.1 h
  exact List.mem_map_of_mem (f := Prod.fst) (get?_eq_some_iff.1 hvalue)

theorem mem_keys_insertNew {m : OrderedMap κ ν} {key other : κ} {value : ν} :
    other ∈ (m.insertNew key value).keys ↔ other = key ∨ other ∈ m.keys := by
  unfold insertNew
  split
  · rename_i hkey
    refine ⟨.inr, ?_⟩
    rintro (rfl | hother)
    · exact mem_keys_of_get? hkey
    · exact hother
  · exact mem_keys_insert

/-- A key has one entry. -/
theorem filter_entries {m : OrderedMap κ ν} {key : κ} {value : ν} (h : (key, value) ∈ m.entries) :
    m.entries.filter (fun entry => entry.1 = key) = [(key, value)] := by
  have hnodup := m.nodup
  obtain ⟨front, rest, hentries⟩ := List.append_of_mem h
  rw [hentries, List.map_append, List.map_cons, List.nodup_middle, List.nodup_cons,
    ← List.map_append] at hnodup
  have hother : ∀ entry ∈ front ++ rest, ¬ decide (entry.1 = key) = true := by
    intro entry hentry hkey
    have hmem : entry.1 ∈ (front ++ rest).map Prod.fst := List.mem_map_of_mem hentry
    rw [of_decide_eq_true hkey] at hmem
    exact hnodup.1 hmem
  rw [hentries, List.filter_append, List.filter_cons_of_pos (by simp),
    List.filter_eq_nil_iff.2 fun entry hentry => hother entry (List.mem_append_left _ hentry),
    List.filter_eq_nil_iff.2 fun entry hentry => hother entry (List.mem_append_right _ hentry),
    List.nil_append]

theorem mem_put {key : κ} {value : ν} {entry : κ × ν} {entries : List (κ × ν)}
    (h : entry ∈ put key value entries) : entry = (key, value) ∨ entry ∈ entries := by
  induction entries with
  | nil => simpa [put] using h
  | cons first entries ih =>
    rw [put] at h
    split at h
    · obtain rfl | hrest := List.mem_cons.1 h
      · exact .inl rfl
      · exact .inr (List.mem_cons_of_mem _ hrest)
    · obtain rfl | hrest := List.mem_cons.1 h
      · exact .inr List.mem_cons_self
      · exact (ih hrest).imp_right (List.mem_cons_of_mem _)

theorem mem_insertAll {m : OrderedMap κ ν} {entry : κ × ν} {entries : List (κ × ν)}
    (h : entry ∈ (insertAll m entries).entries) : entry ∈ m.entries ∨ entry ∈ entries := by
  induction entries generalizing m with
  | nil => exact .inl h
  | cons first entries ih =>
    obtain hfilled | hrest := ih h
    · obtain rfl | hold := mem_put hfilled
      · exact .inr List.mem_cons_self
      · exact .inl hold
    · exact .inr (List.mem_cons_of_mem _ hrest)

theorem mem_of_mem_ofList {entry : κ × ν} {entries : List (κ × ν)}
    (h : entry ∈ (ofList entries).entries) : entry ∈ entries := by
  obtain hnone | hmem := mem_insertAll (m := empty) h
  · contradiction
  · exact hmem

theorem put_of_not_mem {key : κ} {value : ν} {entries : List (κ × ν)}
    (h : key ∉ entries.map Prod.fst) : put key value entries = entries ++ [(key, value)] := by
  induction entries with
  | nil => rfl
  | cons first entries ih =>
    rw [List.map_cons, List.mem_cons, not_or] at h
    rw [put, if_neg (Ne.symm h.1), ih h.2]
    rfl

theorem entries_insertAll (m : OrderedMap κ ν) {entries : List (κ × ν)}
    (h : ((m.entries ++ entries).map Prod.fst).Nodup) :
    (insertAll m entries).entries = m.entries ++ entries := by
  induction entries generalizing m with
  | nil => simp
  | cons entry entries ih =>
    have hkey : entry.1 ∉ m.entries.map Prod.fst := by
      rw [List.map_append, List.nodup_append] at h
      intro hmem
      exact h.2.2 _ hmem _ (by simp) rfl
    have hentries : (m.insert entry.1 entry.2).entries = m.entries ++ [entry] := put_of_not_mem hkey
    have hnodup : (((m.insert entry.1 entry.2).entries ++ entries).map Prod.fst).Nodup := by
      rwa [hentries, List.append_assoc, List.singleton_append]
    rw [insertAll_cons, ih _ hnodup, hentries, List.append_assoc, List.singleton_append]

/-- The entries of a map fill it again. -/
theorem ofList_entries (m : OrderedMap κ ν) : ofList m.entries = m := by
  apply ext_entries
  exact entries_insertAll empty m.nodup

end CannedReply.Proofs.OrderedMap
