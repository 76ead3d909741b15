import CannedReply.Proofs.Response.Framed
/-!
# Names in two spellings

A name means the same in letters of either case, but fields are filled in by the exact spelling of
their names.  So a head has two lines for a name just if one of them was given in another spelling
than the one that is filled in.  Main statement: `head_consistent_iff`.
-/

namespace CannedReply.Proofs.Response.Spellings

open CannedReply.Framing CannedReply.Response
open CannedReply.Proofs.Framing.ChunkGrammar
open CannedReply.Proofs.Framing.Fields
open CannedReply.Proofs.HttpDate
open CannedReply.Proofs.OrderedMap
open CannedReply.Proofs.Request.FieldMap
open CannedReply.Proofs.Request.RoundTrip
open CannedReply.Proofs.Response.Framed
open CannedReply.Proofs.Text.Plain

variable {field : String × String} {date : String} {r : Response}

/-! ## Names -/

/-- A name in small letters. -/
def folded (name : String) : Bytes := Latin1.lowerAll (Bytes.ofText name)

/-- Different names differ in more than the case of their letters. -/
def DistinctFolded (names : List String) : Prop := (names.map folded).Nodup

instance (names : List String) : Decidable (DistinctFolded names) :=
  inferInstanceAs (Decidable (List.Nodup _))

/-- The response sets a field under another spelling of `filled`. -/
def Respells (r : Response) (filled : String) : Prop :=
  ∃ name ∈ r.fields.keys, name ≠ filled ∧ folded name = folded filled

instance (r : Response) (filled : String) : Decidable (Respells r filled) :=
  List.decidableBEx (fun name => name ≠ filled ∧ folded name = folded filled) r.fields.keys

theorem eq_of_folded {names : List String} (hdistinct : DistinctFolded names) {name name' : String}
    (hname : name ∈ names) (hname' : name' ∈ names) (hsame : folded name = folded name') :
    name = name' :=
  List.inj_on_of_nodup_map hdistinct hname hname' hsame

theorem distinctFolded_filledNames : DistinctFolded filledNames := by
  decide

/-- The names of a head are those that were given and those that are filled in. -/
theorem mem_keys_completeFields (date : String) (r : Response) {name : String} :
    name ∈ (r.completeFields date).keys ↔ name ∈ r.fields.keys ∨ name ∈ filledNames := by
  simp only [completeFields, mem_keys_insert, mem_keys_insertNew, filledNames, List.mem_cons,
    List.not_mem_nil, or_false]
  tauto

/-- Two fields have names that differ only in the case of letters just if a name that is filled in
was given in another spelling. -/
theorem distinctFolded_completeFields_iff (hdistinct : DistinctFolded r.fields.keys) :
    DistinctFolded (r.completeFields date).keys ↔ ∀ filled ∈ filledNames, ¬ Respells r filled := by
  constructor
  · rintro hcomplete filled hfilled ⟨name, hname, hne, hsame⟩
    have hgiven := (mem_keys_completeFields date r).2 (.inl hname)
    have hadded := (mem_keys_completeFields date r).2 (.inr hfilled)
    exact hne (eq_of_folded hcomplete hgiven hadded hsame)
  · intro hspelled
    have hcross {given filled : String} (hgiven : given ∈ r.fields.keys)
        (hfilled : filled ∈ filledNames) (hsame : folded given = folded filled) :
        given = filled := by
      by_contra hne
      exact hspelled filled hfilled ⟨given, hgiven, hne, hsame⟩
    unfold DistinctFolded
    rw [List.nodup_map_iff_inj_on (nodup_keys _)]
    intro name hname name' hname' hsame
    obtain hgiven | hfilled := (mem_keys_completeFields date r).1 hname
    · obtain hgiven' | hfilled' := (mem_keys_completeFields date r).1 hname'
      · exact eq_of_folded hdistinct hgiven hgiven' hsame
      · exact hcross hgiven hfilled' hsame
    · obtain hgiven' | hfilled' := (mem_keys_completeFields date r).1 hname'
      · exact (hcross hgiven' hfilled hsame.symm).symm
      · exact eq_of_folded distinctFolded_filledNames hfilled hfilled' hsame

/-! ## Lines of a head -/

/-- The field lines of a head: the name in small letters, and the value. -/
def shownFields (head : Bytes) : List (Bytes × Bytes) :=
  (Head.fieldLines head).map fun line =>
    (Latin1.lowerAll (line.takeWhile (· != 58)), valueOf line)

/-- No two lines of the head are for the same name. -/
def NamesEachOnce (head : Bytes) : Prop := ((shownFields head).map Prod.fst).Nodup

/-- One line of the head is for the content length, and its value is `length`. -/
def DeclaresOnly (head : Bytes) (length : Nat) : Prop :=
  (shownFields head).filter (fun field => field.1 = Head.contentLengthName) =
    [(Head.contentLengthName, Bytes.ofText (toString length))]

/-- A field as its line shows it. -/
def shownField (field : String × String) : Bytes × Bytes :=
  (folded field.1, Latin1.trim (Bytes.ofText field.2))

theorem shown_written (h : LineField field) :
    (Latin1.lowerAll ((written field).takeWhile (· != 58)), valueOf (written field)) =
      shownField field := by
  have hname : (written field).takeWhile (· != 58) = Bytes.ofText field.1 := by
    have hbefore : ∀ b ∈ Bytes.ofText field.1, (b != 58) = true := by
      intro b hb
      simp only [bne_iff_ne]
      rintro rfl
      exact colon_not_mem h hb
    rw [written, fieldBytes, List.takeWhile_append_of_pos hbefore,
      List.takeWhile_cons_of_neg (by simp), List.append_nil]
  have hvalue : valueOf (written field) = Latin1.trim (Bytes.ofText field.2) :=
    congrArg Prod.snd (partsOf_written h)
  rw [hname, hvalue, shownField, folded]

theorem shownFields_headText (hr : OnLines r) (hdate : IsPlain date) :
    shownFields (Bytes.ofText (r.headText date)) =
      (r.completeFields date).entries.map shownField := by
  have hlines := lineField_completeFields hr hdate
  have hunbroken : ∀ line ∈ fieldLines date r, Cut.Unbroken line :=
    List.forall_mem_map.2 fun field hfield => (isColonLine_written (hlines field hfield)).1
  rw [shownFields, ofText_headText,
    fieldLines_joined (unbroken_ofText (isPlain_statusLine hr)) hunbroken, fieldLines, List.map_map]
  exact List.map_congr_left fun field hfield => shown_written (hlines field hfield)

theorem namesEachOnce_headText (hr : OnLines r) (hdate : IsPlain date) :
    NamesEachOnce (Bytes.ofText (r.headText date)) ↔
      DistinctFolded (r.completeFields date).keys := by
  rw [NamesEachOnce, shownFields_headText hr hdate, DistinctFolded, OrderedMap.keys, List.map_map,
    List.map_map]
  rfl

/-! ## The content length -/

/-- The fields that a reader takes for a content length. -/
def lengthFields (date : String) (r : Response) : List (String × String) :=
  (r.completeFields date).entries.filter fun field => folded field.1 = Head.contentLengthName

theorem folded_contentLength : folded "Content-Length" = Head.contentLengthName := by
  decide

theorem mem_lengthFields (date : String) (r : Response) :
    ("Content-Length", toString r.body.length) ∈ lengthFields date r := by
  refine List.mem_filter.2 ⟨get?_eq_some_iff.1 ?_, decide_eq_true folded_contentLength⟩
  rw [completeFields, OrderedMap.get?_insert, if_pos rfl]

/-- A content length in another spelling would be a second one, since its own is always set. -/
theorem not_respells_of_lengthFields (h : lengthFields date r = [field]) :
    ¬ Respells r "Content-Length" := by
  rintro ⟨name, hname, hne, hsame⟩
  obtain ⟨second, hsecond, rfl⟩ := List.mem_map.1 ((mem_keys_completeFields date r).2 (.inl hname))
  have hlength : second ∈ lengthFields date r :=
    List.mem_filter.2 ⟨hsecond, decide_eq_true (hsame.trans folded_contentLength)⟩
  have hown := mem_lengthFields date r
  rw [h, List.mem_singleton] at hlength hown
  rw [hlength, ← hown] at hne
  contradiction

theorem lengthFields_of_not_respells (h : ¬ Respells r "Content-Length") :
    lengthFields date r = [("Content-Length", toString r.body.length)] := by
  have hfilled : ∀ name ∈ filledNames, folded name = Head.contentLengthName →
      name = "Content-Length" := by
    decide
  have hspelled {name : String} (hname : name ∈ (r.completeFields date).keys)
      (hlength : folded name = Head.contentLengthName) : name = "Content-Length" := by
    obtain hgiven | hadded := (mem_keys_completeFields date r).1 hname
    · by_contra hne
      exact h ⟨name, hgiven, hne, hlength.trans folded_contentLength.symm⟩
    · exact hfilled name hadded hlength
  have hsame : lengthFields date r =
      (r.completeFields date).entries.filter (fun field => field.1 = "Content-Length") := by
    apply List.filter_congr
    intro field hfield
    rw [decide_eq_decide]
    refine ⟨hspelled (List.mem_map_of_mem hfield), fun hname => ?_⟩
    rw [hname, folded_contentLength]
  rw [hsame]
  exact filter_entries (List.mem_filter.1 (mem_lengthFields date r)).1

theorem declaresOnly_headText (hr : OnLines r) (hdate : IsPlain date) :
    DeclaresOnly (Bytes.ofText (r.headText date)) r.body.length ↔ ¬ Respells r "Content-Length" := by
  have hshown : (shownFields (Bytes.ofText (r.headText date))).filter
      (fun field => field.1 = Head.contentLengthName) = (lengthFields date r).map shownField := by
    rw [shownFields_headText hr hdate, List.filter_map]
    rfl
  unfold DeclaresOnly
  rw [hshown]
  constructor
  · intro hone
    obtain ⟨only, hfields, -⟩ := List.map_eq_singleton_iff.1 hone
    exact not_respells_of_lengthFields hfields
  · intro hspelled
    rw [lengthFields_of_not_respells hspelled, List.map_singleton, shownField,
      folded_contentLength, trim_toString]

/-! ## Consistent heads -/

/-- A response is written as its head, an empty line and its body, and is cut there again. -/
theorem toBytes_cut {now : Int} (hdate : HttpDate.ofUnix now = .ok date) (hr : OnLines r)
    (hfits : r.StatusFits) :
    ∃ bytes, r.toBytes now = .ok bytes ∧
      Delimiter.cut? Bytes.emptyLine bytes = some (Bytes.ofText (r.headText date), r.body) := by
  have hcolons : ∀ line ∈ fieldLines date r, IsColonLine line :=
    List.forall_mem_map.2 fun field hfield =>
      isColonLine_written (lineField_completeFields hr (isPlain_of_ofUnix hdate).1 field hfield)
  refine ⟨_, toBytes_eq hr hfits hdate, ?_⟩
  rw [ofText_headText]
  exact cut?_headBytes (unbroken_ofText (isPlain_statusLine hr)) hcolons r.body

/-- If the given names differ in more than the case of their letters, the head of a response names
no field twice just if none of them is another spelling of a name that is filled in, and its only
content length is that of the body just if none is another spelling of that name.  There is such a
head unless the status has too many digits. -/
theorem head_consistent_iff {now : Int} (hdate : HttpDate.ofUnix now = .ok date)
    (hr : OnLines r) (hdistinct : DistinctFolded r.fields.keys) :
    (r.StatusFits → ∃ bytes head, r.toBytes now = .ok bytes ∧
      Delimiter.cut? Bytes.emptyLine bytes = some (head, r.body) ∧
      (NamesEachOnce head ↔ ∀ filled ∈ filledNames, ¬ Respells r filled) ∧
      (DeclaresOnly head r.body.length ↔ ¬ Respells r "Content-Length")) ∧
    (¬ r.StatusFits → r.toBytes now = .error .overlongStatus) := by
  have hplain := (isPlain_of_ofUnix hdate).1
  refine ⟨fun hfits => ?_, fun hlong => toBytes_of_overlong hlong hdate⟩
  obtain ⟨bytes, hbytes, hcut⟩ := toBytes_cut hdate hr hfits
  refine ⟨bytes, _, hbytes, hcut, ?_, declaresOnly_headText hr hplain⟩
  rw [namesEachOnce_headText hr hplain]
  exact distinctFolded_completeFields_iff hdistinct

theorem ofUnix_zero : HttpDate.ofUnix 0 = .ok "Thu, 01 Jan 1970 00:00:00 GMT" := by
  decide

theorem onLines_of_plain (hreason : r.reason = none) (hfields : ∀ field ∈ r.fields.entries,
    IsPlain field.1 ∧ IsPlain field.2 ∧ ':' ∉ field.1.toList) : OnLines r where
  reason := by simp [hreason]
  fields := fun field hfield => by
    obtain ⟨hname, hvalue, hcolon⟩ := hfields field hfield
    exact ⟨hname, hvalue, hcolon⟩

/-- A response with a type and a length of its own, and a name that ends like one that is filled
in. -/
def tidy : Response where
  status := 200
  fields := .ofList [("Content-Type", "application/json"), ("Content-Length", "999"),
    ("x-date", "today")]
  body := Bytes.ofText "\x7b\x7d"

theorem head_consistent_tidy :
    OnLines tidy ∧ DistinctFolded tidy.fields.keys ∧
      ∃ bytes head, tidy.toBytes 0 = .ok bytes ∧
        Delimiter.cut? Bytes.emptyLine bytes = some (head, tidy.body) ∧
        NamesEachOnce head ∧ DeclaresOnly head 2 := by
  have hlines : OnLines tidy := onLines_of_plain rfl (by decide +kernel)
  have hdistinct : DistinctFolded tidy.fields.keys := by decide
  obtain ⟨bytes, head, hbytes, hcut, hnames, hlength⟩ :=
    (head_consistent_iff ofUnix_zero hlines hdistinct).1 (by decide)
  exact ⟨hlines, hdistinct, bytes, head, hbytes, hcut, hnames.2 (by decide),
    hlength.2 (by decide)⟩

/-- A response that sets the type and the length of its body in small letters. -/
def respelled : Response where
  status := 200
  fields := .ofList [("content-type", "application/json"), ("content-length", "5")]
  body := Bytes.ofText "\x7b\x7d"

/-- A type and a length in small letters stand beside those that are filled in. -/
theorem respelled_fields_stand_twice :
    OnLines respelled ∧ DistinctFolded respelled.fields.keys ∧
      ∃ bytes head, respelled.toBytes 0 = .ok bytes ∧
        Delimiter.cut? Bytes.emptyLine bytes = some (head, respelled.body) ∧
        (shownFields head).filter (fun field => field.1 = Bytes.ofText "content-type") =
          [(Bytes.ofText "content-type", Bytes.ofText "application/json"),
            (Bytes.ofText "content-type", Bytes.ofText "text/plain; charset=utf-8")] ∧
        ¬ NamesEachOnce head ∧ ¬ DeclaresOnly head respelled.body.length := by
  have hplain := (isPlain_of_ofUnix ofUnix_zero).1
  have hlines : OnLines respelled := onLines_of_plain rfl (by decide)
  have hdistinct : DistinctFolded respelled.fields.keys := by decide
  obtain ⟨bytes, hbytes, hcut⟩ := toBytes_cut ofUnix_zero hlines (by decide)
  refine ⟨hlines, hdistinct, bytes, _, hbytes, hcut, ?_, ?_, ?_⟩
  · rw [shownFields_headText hlines hplain]
    decide
  · rw [namesEachOnce_headText hlines hplain]
    exact fun hnames => (distinctFolded_completeFields_iff hdistinct).1 hnames "Content-Type"
      (by decide) (by decide)
  · rw [declaresOnly_headText hlines hplain, not_not]
    decide

end CannedReply.Proofs.Response.Spellings
