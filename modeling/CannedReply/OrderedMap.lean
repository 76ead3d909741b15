/-!
# Maps in order of insertion

A key keeps the place of its first insertion and takes the value of its last. Main statement:
`keys_insert` says where a key goes, so no key ever occurs twice.
-/

namespace CannedReply

structure OrderedMap (κ ν : Type) where
  entries : List (κ × ν)
  nodup : (entries.map Prod.fst).Nodup

namespace OrderedMap

variable {κ ν : Type} [DecidableEq κ]

/-- Gives `key` its new value in its old place, or puts it behind the last entry. -/
def put (key : κ) (value : ν) : List (κ × ν) → List (κ × ν)
  | [] => [(key, value)]
  | entry :: rest =>
    if entry.1 = key then (key, value) :: rest else entry :: put key value rest

theorem keys_put (key : κ) (value : ν) (entries : List (κ × ν)) :
    (put key value entries).map Prod.fst =
      if key ∈ entries.map Prod.fst then entries.map Prod.fst
      else entries.map Prod.fst ++ [key] := by
  induction entries with
  | nil => simp [put]
  | cons entry rest ih =>
    rw [put]
    by_cases h : entry.1 = key
    · simp [h]
    · simp only [if_neg h, List.map_cons, ih, List.mem_cons, Ne.symm h, false_or]
      split <;> simp

private theorem nodup_put (key : κ) (value : ν) {entries : List (κ × ν)}
    (h : (entries.map Prod.fst).Nodup) : ((put key value entries).map Prod.fst).Nodup := by
  rw [keys_put]
  split
  · exact h
  · rename_i hk
    refine List.nodup_append.2 ⟨h, by simp, ?_⟩
    intro a ha b hb hab
    simp only [List.mem_singleton] at hb
    exact hk (hb ▸ hab ▸ ha)

def empty : OrderedMap κ ν := ⟨[], .nil⟩

def insert (m : OrderedMap κ ν) (key : κ) (value : ν) : OrderedMap κ ν :=
  ⟨put key value m.entries, nodup_put key value m.nodup⟩

def keys (m : OrderedMap κ ν) : List κ := m.entries.map Prod.fst

def size (m : OrderedMap κ ν) : Nat := m.entries.length

def get? (m : OrderedMap κ ν) (key : κ) : Option ν :=
  (m.entries.find? fun entry => entry.1 = key).map Prod.snd

/-- Adds an entry for a key that has none. -/
def insertNew (m : OrderedMap κ ν) (key : κ) (value : ν) : OrderedMap κ ν :=
  if (m.get? key).isSome then m else m.insert key value

def ofList (entries : List (κ × ν)) : OrderedMap κ ν :=
  entries.foldl (fun m entry => m.insert entry.1 entry.2) empty

theorem keys_insert (m : OrderedMap κ ν) (key : κ) (value : ν) :
    (m.insert key value).keys = if key ∈ m.keys then m.keys else m.keys ++ [key] :=
  keys_put key value m.entries

@[simp] theorem get?_empty (key : κ) : (empty : OrderedMap κ ν).get? key = none := rfl

private theorem find?_put (key : κ) (value : ν) (entries : List (κ × ν)) (other : κ) :
    ((put key value entries).find? fun entry => entry.1 = other).map Prod.snd =
      if key = other then some value
      else (entries.find? fun entry => entry.1 = other).map Prod.snd := by
  induction entries with
  | nil => by_cases h : key = other <;> simp [put, h]
  | cons entry rest ih =>
    rw [put]
    by_cases h : entry.1 = key
    · subst h
      by_cases ho : entry.1 = other <;> simp [ho]
    · rw [if_neg h, List.find?_cons, List.find?_cons]
      by_cases ho : entry.1 = other
      · have : key ≠ other := fun hk => h (ho.trans hk.symm)
        simp [ho, this]
      · simp [ho, ih]

/-- An inserted key has its new value, and every other key the value it had. -/
theorem get?_insert (m : OrderedMap κ ν) (key : κ) (value : ν) (other : κ) :
    (m.insert key value).get? other = if key = other then some value else m.get? other :=
  find?_put key value m.entries other

end OrderedMap

end CannedReply
