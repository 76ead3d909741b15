import CannedReply.Proofs.Framing.Fields
import CannedReply.Proofs.Latin1
import CannedReply.Proofs.OrderedMap
import CannedReply.Proofs.Request.Head
/-!
# The fields of a request

Reading field lines fills a map with their names and values, empty lines left out.  So a name that
stands on several lines has the value of the last of them.
-/

namespace CannedReply.Proofs.Request.FieldMap

open CannedReply.Framing
open CannedReply.Request
open CannedReply.Proofs.Cut
open CannedReply.Proofs.Framing.Fields
open CannedReply.Proofs.Latin1
open CannedReply.Proofs.OrderedMap
open CannedReply.Proofs.Request.Head

variable {line : Bytes} {lines : List Bytes}

/-! ## One line -/

/-- Name and value of a field line. -/
def partsOf (line : Bytes) : Bytes × Bytes := (nameOf line, valueOf line)

/-- Name and value as a request holds them. -/
def shown (field : Bytes × Bytes) : String × String :=
  (Latin1.decode field.1, Latin1.decode field.2)

theorem colon_mem (h : IsFieldLine line) : 58 ∈ line := by
  obtain ⟨name, value, rfl, -⟩ := h
  simp

theorem partsOf_append {name : Bytes} (h : 58 ∉ name) (value : Bytes) :
    partsOf (name ++ 58 :: value) = (Latin1.lowerAll (Latin1.trim name), Latin1.trim value) := by
  have hcut : Delimiter.cut? [58] (name ++ 58 :: value) = some (name, value) :=
    cut?_singleton_eq_some_iff.2 ⟨rfl, h⟩
  rw [cut?_colon (by simp)] at hcut
  obtain ⟨hname, hvalue⟩ := Prod.mk.inj (Option.some.inj hcut)
  rw [partsOf, nameOf, valueOf, hname, hvalue]

theorem parseField_eq (h : IsFieldLine line) : parseField line = .ok (shown (partsOf line)) := by
  obtain ⟨field, hfield⟩ := parseField_isOk_iff.2 h
  unfold parseField at hfield ⊢
  rw [cut?_colon (colon_mem h)] at hfield ⊢
  dsimp only at hfield ⊢
  split at hfield
  · contradiction
  · rfl

/-! ## All lines -/

/-- The lines that are not empty. -/
def filled (lines : List Bytes) : List Bytes := lines.filter (· ≠ [])

theorem mem_filled_iff : line ∈ filled lines ↔ line ∈ lines ∧ line ≠ [] := by
  simp [filled]

theorem filled_cons (h : line ≠ []) (lines : List Bytes) :
    filled (line :: lines) = line :: filled lines := by
  simp [filled, h]

/-- What field lines are read as, line by line. -/
def fieldsOf (lines : List Bytes) : List (Bytes × Bytes) := (filled lines).map partsOf

theorem readFields_eq (fields : OrderedMap String String)
    (h : ∀ line ∈ filled lines, IsFieldLine line) :
    readFields fields lines = .ok (insertAll fields ((fieldsOf lines).map shown)) := by
  induction lines generalizing fields with
  | nil => rfl
  | cons line lines ih =>
    by_cases hempty : line = []
    · subst hempty
      rw [readFields, ih fields h]
      rfl
    · rw [filled_cons hempty] at h
      obtain ⟨hline, hlines⟩ := List.forall_mem_cons.1 h
      rw [readFields, parseField_eq hline, fieldsOf, filled_cons hempty]
      · exact ih _ hlines
      · exact hempty

theorem readFields_eq_ok_iff {fields : OrderedMap String String} :
    readFields .empty lines = .ok fields ↔
      (∀ line ∈ filled lines, IsFieldLine line) ∧
        fields = .ofList ((fieldsOf lines).map shown) := by
  constructor
  · intro h
    have hlines : ∀ line ∈ filled lines, IsFieldLine line := by
      intro line hline
      obtain ⟨hmem, hne⟩ := mem_filled_iff.1 hline
      exact (readFields_isOk_iff .empty).1 ⟨fields, h⟩ line hmem hne
    rw [readFields_eq .empty hlines] at h
    exact ⟨hlines, (Except.ok.inj h).symm⟩
  · rintro ⟨hlines, rfl⟩
    exact readFields_eq .empty hlines

/-! ## Values by name -/

/-- The value of the last field of that name. -/
def lastField? (name : Bytes) (lines : List Bytes) : Option Bytes := firstField? name lines.reverse

theorem lookup_shown (name : Bytes) (lines : List Bytes) :
    (lines.map fun line => shown (partsOf line)).lookup (Latin1.decode name) =
      (firstField? name lines).map Latin1.decode := by
  unfold firstField?
  induction lines with
  | nil => rfl
  | cons line lines ih =>
    rw [List.map_cons, List.lookup_cons, List.find?_cons, ih]
    by_cases hname : nameOf line = name
    · simp [shown, partsOf, hname]
    · have hline : (nameOf line == name) = false := by simpa using hname
      have hshown : (Latin1.decode name == Latin1.decode (nameOf line)) = false := by
        simpa [decode_inj] using Ne.symm hname
      rw [hline]
      simp only [shown, partsOf, hshown]

/-- A request knows the last value of a name. -/
theorem get?_ofFields (name : Bytes) (lines : List Bytes) :
    (OrderedMap.ofList ((fieldsOf lines).map shown)).get? (Latin1.decode name) =
      (lastField? name (filled lines)).map Latin1.decode := by
  rw [get?_ofList, fieldsOf, List.map_map, ← List.map_reverse]
  exact lookup_shown name (filled lines).reverse

/-! ## Values in the framing -/

theorem firstValue?_eq_filled (name : Bytes) (lines : List Bytes) :
    Head.firstValue? name lines = Head.firstValue? name (filled lines) := by
  induction lines with
  | nil => rfl
  | cons line lines ih =>
    by_cases hempty : line = []
    · subst hempty
      exact ih
    · rw [filled_cons hempty]
      obtain ⟨b, bs, rfl⟩ := List.exists_cons_of_ne_nil hempty
      simp only [Head.firstValue?, ih]

/-- The framing knows the first value of a name. -/
theorem firstValue?_of_fields (name : Bytes) (h : ∀ line ∈ filled lines, IsFieldLine line) :
    Head.firstValue? name lines = .ok (firstField? name (filled lines)) := by
  rw [firstValue?_eq_filled]
  exact firstValue?_eq name fun line hline => colon_mem (h line hline)

/-! ## Requests -/

/-- The request with those parts, that path and those fields. -/
def requestOf (parts : Line) (path : Bytes) (fields : List (Bytes × Bytes)) : Request :=
  { method := Latin1.decode parts.method
    path := Latin1.decode path
    target := Latin1.decode parts.target
    version := parts.version
    fields := .ofList (fields.map shown) }

theorem parse_eq_ok_iff {message : Bytes} {r : Request} :
    parse message = .ok r ↔
      ∃ parts lines path, HasRequestLine message parts lines ∧
        Target.path parts.target = .ok path ∧
        (∀ line ∈ filled lines, IsFieldLine line) ∧ r = requestOf parts path (fieldsOf lines) := by
  constructor
  · intro h
    by_cases hhas : ∃ parts lines, HasRequestLine message parts lines
    · obtain ⟨parts, lines, hhas⟩ := hhas
      rw [parse_of_requestLine hhas] at h
      split at h
      · contradiction
      · rename_i path hpath
        split at h
        · contradiction
        · rename_i fields hread
          obtain ⟨hlines, rfl⟩ := readFields_eq_ok_iff.1 hread
          exact ⟨parts, lines, path, hhas, hpath, hlines, (Except.ok.inj h).symm⟩
    · obtain ⟨e, he⟩ := parse_of_no_requestLine message
        fun parts lines hline => hhas ⟨parts, lines, hline⟩
      rw [h] at he
      contradiction
  · rintro ⟨parts, lines, path, hhas, hpath, hlines, rfl⟩
    rw [parse_of_requestLine hhas, hpath]
    dsimp only
    rw [readFields_eq_ok_iff.2 ⟨hlines, rfl⟩]
    rfl

end CannedReply.Proofs.Request.FieldMap
