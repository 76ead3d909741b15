import CannedReply.Proofs.Request.FieldMap
/-!
# Writing a head and reading it again

A head written from its parts is read as those parts, whatever follows it; and a request that has
been read can be written, and is read again as the same request.  Of a repeated name the place of
its first line and the value of its last one are left.
-/

namespace CannedReply.Proofs.Request.RoundTrip

open CannedReply.Request
open CannedReply.Proofs.Cut
open CannedReply.Proofs.Framing.ChunkGrammar
open CannedReply.Proofs.Framing.Fields
open CannedReply.Proofs.Latin1
open CannedReply.Proofs.OrderedMap
open CannedReply.Proofs.Request.FieldMap
open CannedReply.Proofs.Request.Head

/-! ## Writing -/

/-- What stands in a head: the parts of its request line, and names and values of its fields. -/
structure HeadParts extends Line where
  fields : List (Bytes × Bytes)

def lineBytes (parts : Line) : Bytes :=
  parts.method ++ 32 :: (parts.target ++ 32 :: Bytes.ofText parts.version.text)

def fieldBytes (field : Bytes × Bytes) : Bytes := field.1 ++ 58 :: 32 :: field.2

/-- A head with the empty line behind it. -/
def HeadParts.bytes (h : HeadParts) : Bytes :=
  lineBytes h.toLine ++
    (Bytes.crlf ++ (h.fields.flatMap (fun field => fieldBytes field ++ Bytes.crlf) ++ Bytes.crlf))

def encodeField (field : String × String) : Except Latin1.Unencodable (Bytes × Bytes) := do
  let name ← Latin1.encode field.1
  let value ← Latin1.encode field.2
  return (name, value)

/-- What to write for a request, if it is all Latin-1. -/
def partsOf? (r : Request) : Except Latin1.Unencodable HeadParts := do
  let method ← Latin1.encode r.method
  let target ← Latin1.encode r.target
  let fields ← r.fields.entries.mapM encodeField
  return { method, target, version := r.version, fields }

structure IsToken (s : Bytes) : Prop where
  nonempty : s ≠ []
  spaceless : 32 ∉ s
  unbroken : Unbroken s

/-- A name in small letters and a value, both without white space around them. -/
structure IsField (field : Bytes × Bytes) : Prop where
  named : field.1 ≠ []
  trimmed : Latin1.trim field.1 = field.1
  small : Latin1.lowerAll field.1 = field.1
  colonless : 58 ∉ field.1
  unbroken : Unbroken field.1
  value_trimmed : Latin1.trim field.2 = field.2
  value_unbroken : Unbroken field.2

structure HeadParts.Formed (h : HeadParts) : Prop where
  method : IsToken h.method
  target : IsToken h.target
  short : h.target.length ≤ maxTargetLength
  fields : ∀ field ∈ h.fields, IsField field

/-! ## The lines of a written head -/

variable {h : HeadParts} {field : Bytes × Bytes} {line : Bytes}

theorem bytes_append (h : HeadParts) (body : Bytes) :
    h.bytes ++ body =
      headBytes (lineBytes h.toLine) (h.fields.map fieldBytes) ++ (Bytes.emptyLine ++ body) := by
  have hlines := intercalate_append_crlf (lineBytes h.toLine) (h.fields.map fieldBytes)
  rw [List.flatMap_map] at hlines
  rw [headBytes, emptyLine_eq, ← List.append_assoc, hlines, HeadParts.bytes]
  simp only [List.append_assoc]

theorem unbroken_text (version : Version) : Unbroken (Bytes.ofText version.text) := by
  apply unbroken_of_not_mem
  cases version <;> decide

theorem unbroken_lineBytes (hh : h.Formed) : Unbroken (lineBytes h.toLine) := by
  have htarget := unbroken_append_cons hh.target.unbroken (unbroken_text h.version)
    (by decide : (32 : UInt8) ≠ 13) (by decide)
  exact unbroken_append_cons hh.method.unbroken htarget (by decide) (by decide)

theorem isColonLine_fieldBytes (hf : IsField field) : IsColonLine (fieldBytes field) := by
  have hvalue : Unbroken ([32] ++ field.2) := unbroken_append (by decide) hf.value_unbroken
  exact ⟨unbroken_append_cons hf.unbroken hvalue (by decide) (by decide), by simp [fieldBytes]⟩

theorem isRequestLine_lineBytes (hh : h.Formed) : IsRequestLine (lineBytes h.toLine) h.toLine where
  spelled := rfl
  method := ⟨hh.method.nonempty, hh.method.spaceless⟩
  target := ⟨hh.target.nonempty, hh.target.spaceless⟩
  short := hh.short

theorem hasRequestLine_bytes (hh : h.Formed) (body : Bytes) :
    HasRequestLine (h.bytes ++ body) h.toLine (h.fields.map fieldBytes) := by
  have hfields : ∀ l ∈ h.fields.map fieldBytes, IsColonLine l :=
    List.forall_mem_map.2 fun field hfield => isColonLine_fieldBytes (hh.fields field hfield)
  have hlines : ∀ l ∈ lineBytes h.toLine :: h.fields.map fieldBytes, Unbroken l :=
    List.forall_mem_cons.2 ⟨unbroken_lineBytes hh, fun l hl => (hfields l hl).1⟩
  refine ⟨lineBytes h.toLine, ?_, isRequestLine_lineBytes hh⟩
  rw [headLines, bytes_append, Delimiter.before, cut?_headBytes (unbroken_lineBytes hh) hfields]
  exact lines_intercalate hlines

/-! ## The fields of a written head -/

theorem exists_solid (hf : IsField field) : ∃ b ∈ field.1, Latin1.isBlank b = false := by
  have hne : Latin1.trim field.1 ≠ [] := by
    rw [hf.trimmed]
    exact hf.named
  rw [ne_eq, trim_eq_nil_iff] at hne
  simpa using hne

theorem isFieldLine_fieldBytes (hf : IsField field) : IsFieldLine (fieldBytes field) :=
  ⟨field.1, 32 :: field.2, rfl, hf.colonless, exists_solid hf⟩

theorem partsOf_fieldBytes (hf : IsField field) : partsOf (fieldBytes field) = field := by
  have hvalue : Latin1.trim (32 :: field.2) = Latin1.trim field.2 := trim_cons (by decide) field.2
  rw [fieldBytes, partsOf_append hf.colonless, hf.trimmed, hf.small, hvalue, hf.value_trimmed]

theorem filled_map_fieldBytes (fields : List (Bytes × Bytes)) :
    filled (fields.map fieldBytes) = fields.map fieldBytes := by
  apply List.filter_eq_self.2
  intro line hline
  obtain ⟨field, -, rfl⟩ := List.mem_map.1 hline
  simp [fieldBytes]

theorem fieldsOf_map_fieldBytes {fields : List (Bytes × Bytes)}
    (hf : ∀ field ∈ fields, IsField field) : fieldsOf (fields.map fieldBytes) = fields := by
  rw [fieldsOf, filled_map_fieldBytes, List.map_map]
  calc fields.map (partsOf ∘ fieldBytes)
    _ = fields.map id :=
        List.map_congr_left fun field hfield => partsOf_fieldBytes (hf field hfield)
    _ = fields := List.map_id fields

theorem parse_bytes (hh : h.Formed) {path : Bytes} (hpath : Target.path h.target = .ok path)
    (body : Bytes) : parse (h.bytes ++ body) = .ok (requestOf h.toLine path h.fields) := by
  have hlines : ∀ l ∈ filled (h.fields.map fieldBytes), IsFieldLine l := by
    rw [filled_map_fieldBytes]
    exact List.forall_mem_map.2 fun field hfield =>
      isFieldLine_fieldBytes (hh.fields field hfield)
  have hparse := parse_eq_ok_iff.2 ⟨_, _, path, hasRequestLine_bytes hh body, hpath, hlines, rfl⟩
  rwa [fieldsOf_map_fieldBytes hh.fields] at hparse

/-! ## What a request was read from -/

theorem isField_partsOf (hline : IsFieldLine line) (hunbroken : Unbroken line) :
    IsField (partsOf line) := by
  obtain ⟨name, value, rfl, hcolon, b, hb, hsolid⟩ := hline
  have hname : Unbroken name := hunbroken.of_isInfix (List.prefix_append name _).isInfix
  have hvalue : Unbroken value :=
    hunbroken.of_isInfix ((List.suffix_cons 58 value).trans (List.suffix_append name _)).isInfix
  have hne : Latin1.trim name ≠ [] := fun hempty =>
    absurd (trim_eq_nil_iff.1 hempty b hb) (by simp [hsolid])
  rw [partsOf_append hcolon]
  exact
    { named := fun hempty => hne (List.map_eq_nil_iff.1 hempty)
      trimmed := (trim_lowerAll _).trans (congrArg Latin1.lowerAll (trim_trim _ name))
      small := lowerAll_lowerAll _
      colonless := colon_not_mem_lowerAll fun hmem => hcolon ((trim_isInfix _ _).subset hmem)
      unbroken := unbroken_lowerAll (hname.of_isInfix (trim_isInfix _ _))
      value_trimmed := trim_trim _ _
      value_unbroken := hvalue.of_isInfix (trim_isInfix _ _) }

theorem isToken_of_isRequestLine {parts : Line} (hline : IsRequestLine line parts)
    (hunbroken : Unbroken line) : IsToken parts.method ∧ IsToken parts.target := by
  rw [hline.spelled] at hunbroken
  have hmethod : parts.method <:+:
      parts.method ++ 32 :: (parts.target ++ 32 :: Bytes.ofText parts.version.text) :=
    (List.prefix_append _ _).isInfix
  have htarget : parts.target <:+:
      parts.method ++ 32 :: (parts.target ++ 32 :: Bytes.ofText parts.version.text) :=
    ⟨parts.method ++ [32], 32 :: Bytes.ofText parts.version.text, by simp⟩
  exact ⟨⟨hline.method.1, hline.method.2, hunbroken.of_isInfix hmethod⟩,
    ⟨hline.target.1, hline.target.2, hunbroken.of_isInfix htarget⟩⟩

/-- Every entry of a request comes from a field line. -/
theorem exists_fields_of_lines {lines : List Bytes} {entries : List (String × String)}
    (hlines : ∀ l ∈ filled lines, IsFieldLine l) (hunbroken : ∀ l ∈ lines, Unbroken l)
    (hentries : ∀ entry ∈ entries, entry ∈ (fieldsOf lines).map shown) :
    ∃ fields : List (Bytes × Bytes),
      fields.map shown = entries ∧ ∀ field ∈ fields, IsField field := by
  induction entries with
  | nil => exact ⟨[], rfl, by simp⟩
  | cons entry entries ih =>
    obtain ⟨hentry, hrest⟩ := List.forall_mem_cons.1 hentries
    obtain ⟨fields, rfl, hfields⟩ := ih hrest
    obtain ⟨field, hfield, rfl⟩ := List.mem_map.1 hentry
    obtain ⟨l, hl, rfl⟩ := List.mem_map.1 hfield
    have hwhole : Unbroken l := hunbroken l (mem_filled_iff.1 hl).1
    exact ⟨partsOf l :: fields, rfl,
      List.forall_mem_cons.2 ⟨isField_partsOf (hlines l hl) hwhole, hfields⟩⟩

/-- A request that has been read is the request of parts with its own entries for fields. -/
theorem exists_parts {message : Bytes} {r : Request} (hparse : parse message = .ok r) :
    ∃ (h : HeadParts) (path : Bytes), h.Formed ∧ Target.path h.target = .ok path ∧
      h.fields.map shown = r.fields.entries ∧ r = requestOf h.toLine path h.fields := by
  obtain ⟨parts, lines, path, ⟨first, hhead, hline⟩, hpath, hlines, rfl⟩ :=
    parse_eq_ok_iff.1 hparse
  have hunbroken : ∀ l ∈ first :: lines, Unbroken l := fun l hl =>
    unbroken_of_mem_lines (hhead ▸ hl)
  obtain ⟨hfirst, hrest⟩ := List.forall_mem_cons.1 hunbroken
  obtain ⟨hmethod, htarget⟩ := isToken_of_isRequestLine hline hfirst
  obtain ⟨fields, hentries, hfields⟩ :=
    exists_fields_of_lines hlines hrest fun _ hentry => mem_of_mem_ofList hentry
  refine ⟨{ parts with fields }, path, ⟨hmethod, htarget, hline.short, hfields⟩, hpath,
    hentries, ?_⟩
  rw [requestOf, requestOf, hentries, ofList_entries]

theorem encodeField_shown (field : Bytes × Bytes) : encodeField (shown field) = .ok field := by
  unfold encodeField shown
  rw [Latin1.encode_decode, Latin1.encode_decode]
  rfl

theorem mapM_encodeField (fields : List (Bytes × Bytes)) :
    (fields.map shown).mapM encodeField = .ok fields := by
  induction fields with
  | nil => rfl
  | cons field fields ih =>
    rw [List.map_cons, List.mapM_cons, encodeField_shown, ih]
    rfl

/-! ## There and back -/

/-- A request shows the parts of a head: each name at the place of its first field, with the value
of its last. -/
structure Shows (r : Request) (h : HeadParts) (path : Bytes) : Prop where
  method : r.method = Latin1.decode h.method
  target : r.target = Latin1.decode h.target
  version : r.version = h.version
  path : r.path = Latin1.decode path
  names : r.fields.keys = (h.fields.map fun field => Latin1.decode field.1).eraseDups
  values : ∀ name, r.fields.get? name = (h.fields.map shown).reverse.lookup name

theorem shows_requestOf (h : HeadParts) (path : Bytes) :
    Shows (requestOf h.toLine path h.fields) h path where
  method := rfl
  target := rfl
  version := rfl
  path := rfl
  names := by
    rw [requestOf, keys_ofList, List.map_map]
    rfl
  values := get?_ofList (h.fields.map shown)

/-- Reading undoes writing, and writing what was read and reading that again changes nothing. -/
theorem head_round_trip :
    (∀ (h : HeadParts) (path body : Bytes), h.Formed → Target.path h.target = .ok path →
      ∃ r, parse (h.bytes ++ body) = .ok r ∧ Shows r h path) ∧
    (∀ (message : Bytes) (r : Request), parse message = .ok r →
      ∃ h, partsOf? r = .ok h ∧ h.Formed ∧ ∀ body, parse (h.bytes ++ body) = .ok r) := by
  constructor
  · intro h path body hh hpath
    exact ⟨_, parse_bytes hh hpath body, shows_requestOf h path⟩
  · intro message r hparse
    obtain ⟨h, path, hh, hpath, hentries, hr⟩ := exists_parts hparse
    refine ⟨h, ?_, hh, fun body => ?_⟩
    · rw [partsOf?, ← hentries, mapM_encodeField, hr, requestOf, Latin1.encode_decode,
        Latin1.encode_decode]
      rfl
    · rw [parse_bytes hh hpath body, ← hr]

/-- A head with a name that stands twice. -/
def repeatedHost : HeadParts where
  method := Bytes.ofText "POST"
  target := Bytes.ofText "/p?q"
  version := .http11
  fields := [(Bytes.ofText "host", Bytes.ofText "a"), (Bytes.ofText "x", []),
    (Bytes.ofText "host", Bytes.ofText "b c")]

theorem formed_repeatedHost : repeatedHost.Formed where
  method := ⟨by decide, by decide, unbroken_of_not_mem (by decide)⟩
  target := ⟨by decide, by decide, unbroken_of_not_mem (by decide)⟩
  short := by decide
  fields := by
    intro field hfield
    simp only [repeatedHost, List.mem_cons, List.not_mem_nil, or_false] at hfield
    obtain rfl | rfl | rfl := hfield
    all_goals
      exact ⟨by decide, by decide, by decide, by decide, unbroken_of_not_mem (by decide),
        by decide, unbroken_of_not_mem (by decide)⟩

theorem head_round_trip_repeated_host :
    repeatedHost.bytes =
        Bytes.ofText "POST /p?q HTTP/1.1\r\nhost: a\r\nx: \r\nhost: b c\r\n\r\n" ∧
      ∃ r, parse (repeatedHost.bytes ++ Bytes.ofText "body") = .ok r ∧
        r.fields.keys = ["host", "x"] ∧ r.fields.get? "host" = some "b c" ∧
        ∃ h, partsOf? r = .ok h ∧ parse h.bytes = .ok r := by
  obtain ⟨r, hparse, hshows⟩ := head_round_trip.1 repeatedHost (Bytes.ofText "/p")
    (Bytes.ofText "body") formed_repeatedHost (by decide)
  obtain ⟨h, hparts, -, hagain⟩ := head_round_trip.2 _ r hparse
  refine ⟨by decide, r, hparse, ?_, ?_, h, hparts, ?_⟩
  · rw [hshows.names]
    decide
  · rw [hshows.values]
    decide
  · simpa using hagain []

end CannedReply.Proofs.Request.RoundTrip
