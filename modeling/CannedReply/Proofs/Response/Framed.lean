import CannedReply.Proofs.Framing.Prefixes
import CannedReply.Proofs.Framing.Stability
import CannedReply.Proofs.HttpDate
import CannedReply.Proofs.OrderedMap
import CannedReply.Proofs.Request.RoundTrip
import CannedReply.Response
import Mathlib.Tactic.IntervalCases
/-!
# Responses as messages

The reader of messages takes a response for what it is, whatever follows it: its head ends where
its body starts, and its length is the one that it declares.  Main statement: `toBytes_framed`.
-/

namespace CannedReply.Proofs.Response.Framed

open CannedReply.Framing CannedReply.Response
open CannedReply.Proofs.Cut
open CannedReply.Proofs.Framing.ChunkGrammar
open CannedReply.Proofs.Framing.Fields
open CannedReply.Proofs.Framing.Prefixes
open CannedReply.Proofs.Framing.Stability
open CannedReply.Proofs.HttpDate
open CannedReply.Proofs.Latin1
open CannedReply.Proofs.Numeral.Grammar
open CannedReply.Proofs.OrderedMap
open CannedReply.Proofs.Request.FieldMap
open CannedReply.Proofs.Request.RoundTrip
open CannedReply.Proofs.Text.Plain
open CannedReply.Text

variable {field : String × String} {date : String} {r : Response}

/-! ## Fields that can be written -/

/-- A name as the reader compares it. -/
def comparedName (name : String) : Bytes := Latin1.lowerAll (Latin1.trim (Bytes.ofText name))

/-- A field that stays on its line and whose name ends at the first colon of it. -/
structure LineField (field : String × String) : Prop where
  name : IsPlain field.1
  value : IsPlain field.2
  colonless : ':' ∉ field.1.toList

/-- A response whose head has a line for the status and one for each field. -/
structure OnLines (r : Response) : Prop where
  reason : ∀ text, r.reason = some text → IsPlain text
  fields : ∀ field ∈ r.fields.entries, LineField field

/-- A field that stays on its line and whose name is no other spelling of a framing field's. -/
structure WritableField (field : String × String) : Prop where
  name : IsPlain field.1
  value : IsPlain field.2
  colonless : ':' ∉ field.1.toList
  unchunked : comparedName field.1 ≠ Head.transferEncodingName
  length : comparedName field.1 = Head.contentLengthName → field.1 = "Content-Length"

/-- A response whose reason and fields can be written. -/
structure Writable (r : Response) : Prop where
  reason : ∀ text, r.reason = some text → IsPlain text
  fields : ∀ field ∈ r.fields.entries, WritableField field

theorem WritableField.line (h : WritableField field) : LineField field :=
  ⟨h.name, h.value, h.colonless⟩

theorem Writable.onLines (h : Writable r) : OnLines r :=
  ⟨h.reason, fun field hfield => (h.fields field hfield).line⟩

/-- The field as it is written. -/
def written (field : String × String) : Bytes :=
  fieldBytes (Bytes.ofText field.1, Bytes.ofText field.2)

theorem colon_not_mem (h : LineField field) : 58 ∉ Bytes.ofText field.1 := fun hmem =>
  h.colonless (mem_of_mem_ofText h.name.1 hmem)

theorem partsOf_written (h : LineField field) :
    partsOf (written field) = (comparedName field.1, Latin1.trim (Bytes.ofText field.2)) := by
  have hvalue : Latin1.trim (32 :: Bytes.ofText field.2) = Latin1.trim (Bytes.ofText field.2) :=
    trim_cons (by decide) _
  rw [written, fieldBytes, partsOf_append (colon_not_mem h), hvalue, comparedName]

theorem isColonLine_written (h : LineField field) : IsColonLine (written field) := by
  have hspace : (13 : UInt8) ∉ [32] := by decide
  have hvalue : Unbroken (32 :: Bytes.ofText field.2) :=
    unbroken_append hspace (unbroken_ofText h.value)
  refine ⟨?_, by simp [written, fieldBytes]⟩
  exact unbroken_append_cons (unbroken_ofText h.name) hvalue (by decide) (by decide)

theorem writableField_of_plain {name value : String} (hname : IsPlain name ∧ ':' ∉ name.toList ∧
      comparedName name ≠ Head.transferEncodingName ∧
      (comparedName name = Head.contentLengthName → name = "Content-Length"))
    (hvalue : IsPlain value) : WritableField (name, value) :=
  ⟨hname.1, hvalue, hname.2.1, hname.2.2.1, hname.2.2.2⟩

/-- The names of the fields that are filled in. -/
def filledNames : List String := ["Date", "Server", "Content-Type", "Connection", "Content-Length"]

/-- Every field of a head was given or is filled in. -/
theorem completeFields_cases (hdate : IsPlain date)
    (hfield : field ∈ (r.completeFields date).entries) :
    field ∈ r.fields.entries ∨ field.1 ∈ filledNames ∧ IsPlain field.2 := by
  -- From the field that is set last to those that were given.
  obtain rfl | ⟨-, hfield⟩ := mem_entries_insert.1 hfield
  · exact .inr ⟨by simp [filledNames], isPlain_toString_nat _⟩
  obtain rfl | hfield := mem_entries_insertNew hfield
  · exact .inr ⟨by simp [filledNames], by decide⟩
  obtain rfl | hfield := mem_entries_insertNew hfield
  · exact .inr ⟨by simp [filledNames], by decide⟩
  obtain rfl | hfield := mem_entries_insertNew hfield
  · exact .inr ⟨by simp [filledNames], by decide⟩
  obtain rfl | hfield := mem_entries_insertNew hfield
  · exact .inr ⟨by simp [filledNames], hdate⟩
  · exact .inl hfield

/-- What holds of the fields that were given and of plain ones that are filled in holds of all. -/
theorem forall_completeFields {P : String × String → Prop} (hdate : IsPlain date)
    (hgiven : ∀ field ∈ r.fields.entries, P field)
    (hfilled : ∀ name ∈ filledNames, ∀ value, IsPlain value → P (name, value)) :
    ∀ field ∈ (r.completeFields date).entries, P field := by
  intro field hfield
  obtain hfield | ⟨hname, hvalue⟩ := completeFields_cases hdate hfield
  · exact hgiven field hfield
  · exact hfilled field.1 hname field.2 hvalue

theorem lineField_completeFields (hr : OnLines r) (hdate : IsPlain date) :
    ∀ field ∈ (r.completeFields date).entries, LineField field := by
  have hnames : ∀ name ∈ filledNames, IsPlain name ∧ ':' ∉ name.toList := by decide
  refine forall_completeFields hdate hr.fields fun name hname value hvalue => ?_
  exact ⟨(hnames name hname).1, hvalue, (hnames name hname).2⟩

/-- The fields that are filled in can be written like the given ones. -/
theorem writableField_completeFields (hr : Writable r) (hdate : IsPlain date) :
    ∀ field ∈ (r.completeFields date).entries, WritableField field := by
  have hnames : ∀ name ∈ filledNames, IsPlain name ∧ ':' ∉ name.toList ∧
      comparedName name ≠ Head.transferEncodingName ∧
      (comparedName name = Head.contentLengthName → name = "Content-Length") := by
    decide
  refine forall_completeFields hdate hr.fields fun name hname value hvalue => ?_
  exact writableField_of_plain (hnames name hname) hvalue

/-! ## Heads -/

theorem isPlain_reasonText (hr : OnLines r) : IsPlain r.reasonText := by
  have hstandard : IsPlain (standardReason r.status) := by
    unfold standardReason
    repeat' split
    all_goals decide
  unfold reasonText
  split
  · exact hstandard
  · rename_i text htext
    split
    · exact hstandard
    · exact hr.reason text htext

theorem isPlain_statusLine (hr : OnLines r) : IsPlain r.statusLine := by
  unfold statusLine
  simp only [isPlain_append, isPlain_toString_int, isPlain_reasonText hr, and_true]
  decide

/-- The lines below the status line. -/
def fieldLines (date : String) (r : Response) : List Bytes :=
  (r.completeFields date).entries.map written

theorem ofText_headText (date : String) (r : Response) :
    Bytes.ofText (r.headText date) =
      headBytes (Bytes.ofText r.statusLine) (fieldLines date r) := by
  have hcrlf : Bytes.ofText "\r\n" = Bytes.crlf := rfl
  rw [headText, ofText_intercalate, hcrlf, List.map_cons, List.map_map, headBytes, fieldLines]
  congr 2
  apply List.map_congr_left
  rintro ⟨name, value⟩ -
  have hcolon : Bytes.ofText ": " = [58, 32] := rfl
  simp [written, fieldBytes, ofText_append, hcolon]

theorem length_ofText (text : String) : (Bytes.ofText text).length = text.length := by
  rw [Bytes.ofText, List.length_map, String.length_toList]

theorem isLatin1_headText (hr : OnLines r) (hdate : IsPlain date) :
    IsLatin1 (r.headText date) := by
  apply isLatin1_intercalate (by decide)
  refine List.forall_mem_cons.2 ⟨(isPlain_statusLine hr).1, List.forall_mem_map.2 ?_⟩
  rintro ⟨name, value⟩ hfield
  have hline := lineField_completeFields hr hdate _ hfield
  rw [isLatin1_append, isLatin1_append]
  exact ⟨⟨hline.name.1, by decide⟩, hline.value.1⟩

theorem isHead_headText (hr : OnLines r) (hdate : IsPlain date)
    (hshort : (r.headText date).length + Bytes.emptyLine.length ≤ maxHeadBytes) :
    IsHead (Bytes.ofText r.statusLine) (fieldLines date r) where
  unbroken := unbroken_ofText (isPlain_statusLine hr)
  colons := List.forall_mem_map.2 fun field hfield =>
    isColonLine_written (lineField_completeFields hr hdate field hfield)
  short := by
    rwa [← length_ofText, ofText_headText] at hshort

/-! ## The framing fields of a written head -/

/-- A line that the reader finds by a name was written for a field of that name. -/
theorem exists_of_find? (hr : Writable r) (hdate : IsPlain date) {compared line : Bytes}
    (h : (fieldLines date r).find? (fun line => nameOf line == compared) = some line) :
    ∃ field ∈ (r.completeFields date).entries, WritableField field ∧
      comparedName field.1 = compared ∧ valueOf line = Latin1.trim (Bytes.ofText field.2) := by
  obtain ⟨field, hfield, rfl⟩ := List.mem_map.1 (List.mem_of_find?_eq_some h)
  have hwritable := writableField_completeFields hr hdate field hfield
  obtain ⟨hname, hvalue⟩ := Prod.mk.inj (partsOf_written hwritable.line)
  have hcompared : nameOf (written field) = compared := by simpa using List.find?_some h
  exact ⟨field, hfield, hwritable, hname.symm.trans hcompared, hvalue⟩

theorem not_announcesChunks (hr : Writable r) (hdate : IsPlain date) :
    ¬ AnnouncesChunks (fieldLines date r) := by
  rintro ⟨value, hvalue, -⟩
  obtain ⟨line, hline, -⟩ := Option.map_eq_some_iff.1 hvalue
  obtain ⟨field, -, hwritable, hname, -⟩ := exists_of_find? hr hdate hline
  exact hwritable.unchunked hname

theorem not_isBlank_of_isDigit {c : Char} (h : c.isDigit) :
    Latin1.isBlank (UInt8.ofNat c.toNat) = false := by
  obtain ⟨hlow, hhigh⟩ : 48 ≤ c.toNat ∧ c.toNat ≤ 57 := Char.isDigit_iff_toNat.1 h
  generalize c.toNat = n at hlow hhigh
  interval_cases n <;> rfl

theorem trim_toString (n : Nat) :
    Latin1.trim (Bytes.ofText (toString n)) = Bytes.ofText (toString n) := by
  have hne : Bytes.ofText (toString n) ≠ [] := by
    rw [Nat.toString_eq_ofList_toDigits, Bytes.ofText, String.toList_ofList]
    simp
  have hsolid : ∀ b ∈ Bytes.ofText (toString n), Latin1.isBlank b = false := by
    rw [Nat.toString_eq_ofList_toDigits, Bytes.ofText, String.toList_ofList]
    exact List.forall_mem_map.2 fun c hc =>
      not_isBlank_of_isDigit (Nat.isDigit_of_mem_toDigits (by decide) (by decide) hc)
  have hnone : ∀ b ∈ ([] ++ [] : Bytes), Latin1.isBlank b = true := by simp
  have htrim := trim_append hnone hne hsolid
  rwa [List.append_nil, List.nil_append] at htrim

theorem length_toString_le {n : Nat} (h : n ≤ maxBodyBytes) : (toString n).length ≤ 7 := by
  rw [maxBodyBytes] at h
  exact (Nat.length_repr_le_iff (by decide)).2 (by omega)

/-- The first content length is the one that is filled in, since no other field goes by that
name. -/
theorem declares_fieldLines (hr : Writable r) (hdate : IsPlain date)
    (hbody : r.body.length ≤ maxBodyBytes) : Declares (fieldLines date r) r.body.length := by
  have hset : (r.completeFields date).get? "Content-Length" = some (toString r.body.length) := by
    rw [completeFields, OrderedMap.get?_insert, if_pos rfl]
  have hfilled := get?_eq_some_iff.1 hset
  have hsome : ∃ line, (fieldLines date r).find?
      (fun line => nameOf line == Head.contentLengthName) = some line := by
    rw [← Option.isSome_iff_exists, List.find?_isSome]
    refine ⟨_, List.mem_map_of_mem hfilled, beq_iff_eq.2 ?_⟩
    have hparts := partsOf_written (lineField_completeFields hr.onLines hdate _ hfilled)
    have hname : comparedName "Content-Length" = Head.contentLengthName := by decide
    exact (Prod.mk.inj hparts).1.trans hname
  obtain ⟨line, hline⟩ := hsome
  obtain ⟨⟨name, value⟩, hfield, hwritable, hname, hvalue⟩ := exists_of_find? hr hdate hline
  obtain rfl : name = "Content-Length" := hwritable.length hname
  obtain rfl : toString r.body.length = value := by
    have hget := get?_eq_some_iff.2 hfield
    rw [hset] at hget
    exact Option.some.inj hget
  have hfirst : firstField? Head.contentLengthName (fieldLines date r) =
      some (Bytes.ofText (toString r.body.length)) := by
    rw [firstField?, hline, Option.map_some, hvalue, trim_toString]
  unfold Declares
  rw [hfirst]
  exact isDecimal_toString ((length_toString_le hbody).trans (by decide))

/-! ## Messages -/

theorem toBytes_eq {now : Int} (hr : OnLines r) (hfits : r.StatusFits)
    (hdate : HttpDate.ofUnix now = .ok date) :
    r.toBytes now =
      .ok (headBytes (Bytes.ofText r.statusLine) (fieldLines date r) ++
        (Bytes.emptyLine ++ r.body)) := by
  have hplain := (isPlain_of_ofUnix hdate).1
  have hhead := encode_of_isLatin1 (isLatin1_headText hr hplain)
  simp only [toBytes, hdate, Except.mapError, bind, Except.bind, if_pos hfits, hhead,
    ofText_headText, pure, Except.pure, List.append_assoc]

/-- Whatever else is wrong with a response, its status is looked at once there is a date. -/
theorem toBytes_of_overlong {now : Int} (hlong : ¬ r.StatusFits)
    (hdate : HttpDate.ofUnix now = .ok date) : r.toBytes now = .error .overlongStatus := by
  simp only [toBytes, hdate, Except.mapError, bind, Except.bind, if_neg hlong, throw, throwThe,
    MonadExceptOf.throw]

/-- The reader finds `head`, and behind its empty line `body`, and nothing that follows them
belongs to the message. -/
def ReadAs (bytes head body : Bytes) : Prop :=
  Delimiter.cut? Bytes.emptyLine bytes = some (head, body) ∧
    ∀ rest, message? (bytes ++ rest) = .ok (some bytes)

theorem readAs_of_writable (hr : Writable r) (hdate : IsPlain date)
    (hshort : (r.headText date).length + Bytes.emptyLine.length ≤ maxHeadBytes)
    (hbody : r.body.length ≤ maxBodyBytes) :
    ReadAs (headBytes (Bytes.ofText r.statusLine) (fieldLines date r) ++
        (Bytes.emptyLine ++ r.body))
      (Bytes.ofText (r.headText date)) r.body := by
  have hhead := isHead_headText hr.onLines hdate hshort
  have hmessage := message?_of_isMessage (.ofLength hhead (not_announcesChunks hr hdate)
    (declares_fieldLines hr hdate hbody) hbody)
  rw [ofText_headText]
  exact ⟨cut?_headBytes hhead.unbroken hhead.colons r.body, message?_grown hmessage⟩

/-! ## Reports of a failure -/

/-- The head of a report whose body has `length` bytes. -/
def errorHead (date : String) (length : Nat) : String :=
  "HTTP/1.1 500 Internal Server Error\r\nDate: " ++ date ++ "\r\nServer: mockprox\r\n" ++
    "Content-Type: text/plain; charset=utf-8\r\nConnection: close\r\nContent-Length: " ++
    toString length

theorem writable_internalError (text : String) : Writable (internalError text) where
  reason := fun _ h => nomatch h
  fields := fun _ h => nomatch h

theorem statusFits_internalError (text : String) : (internalError text).StatusFits := by
  have hstatus : (internalError text).status = 500 := rfl
  rw [StatusFits, hstatus]
  decide

theorem body_internalError (text : String) :
    (internalError text).body = Utf8.encode text ++ [10] := by
  simp only [internalError, Utf8.encode, String.toList_append, List.flatMap_append]
  rfl

/-- The fields of a response that sets none. -/
theorem entries_completeFields (h : r.fields = .empty) :
    (r.completeFields date).entries =
      [("Date", date), ("Server", serverName), ("Content-Type", "text/plain; charset=utf-8"),
        ("Connection", "close"), ("Content-Length", toString r.body.length)] := by
  rw [completeFields, h]
  generalize toString r.body.length = length
  rfl

theorem statusLine_internalError (text : String) :
    (internalError text).statusLine = "HTTP/1.1 500 Internal Server Error" := by
  have hreason : (internalError text).reasonText = standardReason 500 := rfl
  have hstatus : (internalError text).status = 500 := rfl
  rw [statusLine, hreason, hstatus]
  decide

theorem headText_internalError (date text : String) :
    (internalError text).headText date = errorHead date (internalError text).body.length := by
  unfold headText errorHead
  rw [entries_completeFields rfl, statusLine_internalError]
  simp only [List.map_cons, List.map_nil, String.intercalate_cons_cons,
    String.intercalate_singleton, serverName, ← String.toList_inj, String.toList_append,
    List.append_assoc]
  simp

/-- A report is written with its text, whatever that holds, behind a head that is always the same
but for the date and the length. -/
theorem toBytes_internalError {now : Int} (hdate : HttpDate.ofUnix now = .ok date) (text : String) :
    (internalError text).toBytes now =
      .ok (Bytes.ofText (errorHead date ((Utf8.encode text).length + 1)) ++
        (Bytes.emptyLine ++ (Utf8.encode text ++ [10]))) := by
  rw [toBytes_eq (writable_internalError text).onLines (statusFits_internalError text) hdate,
    ← ofText_headText, headText_internalError, body_internalError, List.length_append,
    List.length_singleton]

theorem length_errorHead (date : String) (length : Nat) :
    (errorHead date length).length = 42 + date.length + 20 + 76 + (toString length).length := by
  unfold errorHead
  rw [String.length_append, String.length_append, String.length_append, String.length_append]
  congr 1

theorem length_errorHead_le (hdate : date.length ≤ 42) {length : Nat}
    (hlength : length ≤ maxBodyBytes) :
    (errorHead date length).length + Bytes.emptyLine.length ≤ maxHeadBytes := by
  have hdigits := length_toString_le hlength
  have hend : Bytes.emptyLine.length = 4 := rfl
  rw [length_errorHead, hend, maxHeadBytes]
  omega

/-! ## Writing and reading -/

/-- Whatever a response carries, the reader hands out just its bytes, with its body behind the
first empty line; only a response whose status has too many digits has no bytes.  The text of a
report is in its body, and its head depends only on how long that is. -/
theorem toBytes_framed {now : Int} {date : String} (hdate : HttpDate.ofUnix now = .ok date) :
    (∀ r : Response, Writable r → r.StatusFits →
      (r.headText date).length + Bytes.emptyLine.length ≤ maxHeadBytes →
      r.body.length ≤ maxBodyBytes →
      ∃ bytes, r.toBytes now = .ok bytes ∧
        ReadAs bytes (Bytes.ofText (r.headText date)) r.body) ∧
    (∀ r : Response, ¬ r.StatusFits → r.toBytes now = .error .overlongStatus) ∧
    ∀ text : String, (Utf8.encode text).length < maxBodyBytes →
      ∃ bytes, (internalError text).toBytes now = .ok bytes ∧
        ReadAs bytes (Bytes.ofText (errorHead date ((Utf8.encode text).length + 1)))
          (Utf8.encode text ++ [10]) := by
  obtain ⟨hplain, hlength⟩ := isPlain_of_ofUnix hdate
  refine ⟨fun r hr hfits hshort hbody => ?_, fun r hlong => toBytes_of_overlong hlong hdate,
    fun text htext => ?_⟩
  · exact ⟨_, toBytes_eq hr.onLines hfits hdate, readAs_of_writable hr hplain hshort hbody⟩
  · have hr := writable_internalError text
    have hbody : (internalError text).body.length = (Utf8.encode text).length + 1 := by
      rw [body_internalError, List.length_append, List.length_singleton]
    have hread := readAs_of_writable hr hplain
      (headText_internalError date text ▸ length_errorHead_le hlength (by omega)) (by omega)
    rw [← ofText_headText, headText_internalError, hbody, body_internalError] at hread
    exact ⟨_, toBytes_internalError hdate text, hread⟩

/-- A response that sets a length of its own, with an empty line in its body. -/
def overdeclared : Response where
  status := 200
  reason := some "Fine"
  fields := .ofList [("X-Note", "a: b"), ("Content-Length", "999")]
  body := Bytes.ofText "ok\r\n\r\nok"

theorem writable_overdeclared : Writable overdeclared where
  reason := by
    rintro text ⟨⟩
    decide
  fields := List.forall_mem_cons.2 ⟨writableField_of_plain (by decide) (by decide),
    List.forall_mem_singleton.2 (writableField_of_plain (by decide) (by decide))⟩

/-- The response above, and a report whose text looks like the rest of a head. -/
theorem toBytes_framed_overdeclared :
    HttpDate.ofUnix 0 = .ok "Thu, 01 Jan 1970 00:00:00 GMT" ∧
      (∃ bytes, overdeclared.toBytes 0 = .ok bytes ∧
        ReadAs bytes (Bytes.ofText (overdeclared.headText "Thu, 01 Jan 1970 00:00:00 GMT"))
          (Bytes.ofText "ok\r\n\r\nok")) ∧
      ∃ bytes, (internalError "\r\nContent-Length: 0\r\n\r\n").toBytes 0 = .ok bytes ∧
        ReadAs bytes (Bytes.ofText (errorHead "Thu, 01 Jan 1970 00:00:00 GMT" 24))
          (Bytes.ofText "\r\nContent-Length: 0\r\n\r\n\n") := by
  have hdate : HttpDate.ofUnix 0 = .ok "Thu, 01 Jan 1970 00:00:00 GMT" := by decide
  obtain ⟨hresponses, -, hreports⟩ := toBytes_framed hdate
  refine ⟨hdate, hresponses overdeclared writable_overdeclared (by decide) (by decide +kernel)
    (by decide), ?_⟩
  exact hreports "\r\nContent-Length: 0\r\n\r\n" (by decide)

end CannedReply.Proofs.Response.Framed
