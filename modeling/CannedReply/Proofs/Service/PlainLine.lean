import CannedReply.Proofs.Decimal
import CannedReply.Proofs.Request.FieldMap
import CannedReply.Proofs.Service.Answers
import CannedReply.Proofs.Service.Records
import CannedReply.Proofs.Target.Forms
/-!
# Outcomes in the plain format

The plain line of an outcome is read back by cutting it at its spaces and each part at its first
equals sign.  That works whatever a client sends, since no method and no path holds a space.  But a
bare CR or LF in one of them ends the line before its time.  Main statement:
`plain_outcome_kept_iff`.
-/

namespace CannedReply.Proofs.Service.PlainLine

open CannedReply.Service
open CannedReply.Proofs.Cut
open CannedReply.Proofs.Decimal
open CannedReply.Proofs.Latin1
open CannedReply.Proofs.Request.FieldMap
open CannedReply.Proofs.Request.Head
open CannedReply.Proofs.Service.Answers
open CannedReply.Proofs.Service.Records
open CannedReply.Proofs.Service.Turns
open CannedReply.Proofs.Target.Forms

/-! ## Lines of fields -/

/-- Neither CR nor LF. -/
def IsOneLine (text : String) : Prop := '\r' ∉ text.toList ∧ '\n' ∉ text.toList

/-- No space and no line end. -/
def IsOneWord (text : String) : Prop := ' ' ∉ text.toList ∧ IsOneLine text

instance (text : String) : Decidable (IsOneLine text) := inferInstanceAs (Decidable (_ ∧ _))

instance (text : String) : Decidable (IsOneWord text) := inferInstanceAs (Decidable (_ ∧ _))

/-- A name and a value with an equals sign between them. -/
def fieldText (field : String × String) : String := field.1 ++ "=" ++ field.2

def joined (fields : List (String × String)) : String := " ".intercalate (fields.map fieldText)

/-- Name and value of a part, cut at the first equals sign. -/
def field? (part : List Char) : Option (String × String) :=
  (Delimiter.cut? ['='] part).map fun (name, value) => (.ofList name, .ofList value)

/-- The names and values of a line, cut at every space. -/
def fields? (line : String) : Option (List (String × String)) :=
  (line.toList.splitOn ' ').mapM field?

variable {field : String × String} {fields : List (String × String)}

theorem toList_fieldText (field : String × String) :
    (fieldText field).toList = field.1.toList ++ '=' :: field.2.toList := by
  unfold fieldText
  rw [String.toList_append, String.toList_append, List.append_assoc]
  rfl

theorem field?_fieldText (h : '=' ∉ field.1.toList) :
    field? (fieldText field).toList = some field := by
  unfold field?
  rw [toList_fieldText, cut?_singleton_eq_some_iff.2 ⟨rfl, h⟩]
  simp

theorem mapM_field? (h : ∀ field ∈ fields, '=' ∉ field.1.toList) :
    ((fields.map fieldText).map String.toList).mapM field? = some fields := by
  induction fields with
  | nil => rfl
  | cons field fields ih =>
    have hfields : ∀ field ∈ fields, '=' ∉ field.1.toList := fun field hmem =>
      h field (List.mem_cons_of_mem _ hmem)
    rw [List.map_cons, List.map_cons, List.mapM_cons, field?_fieldText (h field List.mem_cons_self),
      ih hfields]
    rfl

/-- Fields that are joined by spaces and hold none themselves are found again. -/
theorem fields?_joined (hne : fields ≠ []) (hnames : ∀ field ∈ fields, '=' ∉ field.1.toList)
    (hspaces : ∀ field ∈ fields, ' ' ∉ (fieldText field).toList) :
    fields? (joined fields) = some fields := by
  unfold fields? joined
  rw [String.toList_intercalate]
  change (([' '].intercalate _).splitOn ' ').mapM field? = some fields
  rw [List.splitOn_intercalate]
  · exact mapM_field? hnames
  · exact List.forall_mem_map.2 (List.forall_mem_map.2 hspaces)
  · simpa using hne

theorem isOneLine_append {s t : String} : IsOneLine (s ++ t) ↔ IsOneLine s ∧ IsOneLine t := by
  unfold IsOneLine
  rw [String.toList_append, List.mem_append, List.mem_append]
  tauto

theorem isOneLine_fieldText :
    IsOneLine (fieldText field) ↔ IsOneLine field.1 ∧ IsOneLine field.2 := by
  have hequals : IsOneLine "=" := by decide
  unfold fieldText
  rw [isOneLine_append, isOneLine_append]
  tauto

theorem joined_cons_cons (field next : String × String) (fields : List (String × String)) :
    joined (field :: next :: fields) = fieldText field ++ " " ++ joined (next :: fields) :=
  String.intercalate_cons_cons

/-- A line ends early just when one of its names or values does. -/
theorem isOneLine_joined :
    IsOneLine (joined fields) ↔ ∀ field ∈ fields, IsOneLine field.1 ∧ IsOneLine field.2 := by
  have hspace : IsOneLine " " := by decide
  induction fields with
  | nil =>
    have hempty : IsOneLine (joined []) := by decide
    exact iff_of_true hempty (by simp)
  | cons field fields ih =>
    rw [List.forall_mem_cons, ← isOneLine_fieldText]
    refine Iff.trans ?_ (and_congr_right fun _ => ih)
    cases fields with
    | nil =>
      have hempty : IsOneLine (joined []) := by decide
      exact (and_iff_left hempty).symm
    | cons next fields =>
      rw [joined_cons_cons, isOneLine_append, isOneLine_append]
      tauto

/-! ## The line of an outcome -/

/-- The fields of the plain line of an outcome. -/
def plainFields (client method path outcome sent duration : String) : List (String × String) := [
  ("client", client),
  ("method", method),
  ("path", path),
  ("outcome", outcome),
  ("bytes_out", sent),
  ("duration_ms", duration)]

theorem joined_plainFields (client method path outcome sent duration : String) :
    joined (plainFields client method path outcome sent duration) =
      "client=" ++ client ++ " method=" ++ method ++ " path=" ++ path ++ " outcome=" ++ outcome ++
        " bytes_out=" ++ sent ++ " duration_ms=" ++ duration := by
  have hclient : "client=" = "client" ++ "=" := by decide
  have hmethod : " method=" = " " ++ "method" ++ "=" := by decide
  have hpath : " path=" = " " ++ "path" ++ "=" := by decide
  have houtcome : " outcome=" = " " ++ "outcome" ++ "=" := by decide
  have hsent : " bytes_out=" = " " ++ "bytes_out" ++ "=" := by decide
  have hduration : " duration_ms=" = " " ++ "duration_ms" ++ "=" := by decide
  rw [hclient, hmethod, hpath, houtcome, hsent, hduration]
  simp only [joined, plainFields, fieldText, List.map_cons, List.map_nil, String.append_assoc,
    String.intercalate_cons_cons, String.intercalate_singleton]

theorem plainLine_eq (s : Summary) :
    s.plainLine = joined (plainFields s.client s.method s.path s.outcome.name
      (toString s.bytesSent) (.ofList (Summary.plainDuration s.millis))) :=
  (joined_plainFields _ _ _ _ _ _).symm

/-- What the numbers of the plain line are written with. -/
def IsFigure (c : Char) : Prop := c.isDigit ∨ c ∈ ['-', '.', 'i', 'n', 'f']

instance (c : Char) : Decidable (IsFigure c) := inferInstanceAs (Decidable (_ ∨ _))

theorem isOneWord_of_figures {cs : List Char} (h : ∀ c ∈ cs, IsFigure c) :
    IsOneWord (.ofList cs) := by
  have hspace : ¬ IsFigure ' ' := by decide
  have hcr : ¬ IsFigure '\r' := by decide
  have hlf : ¬ IsFigure '\n' := by decide
  unfold IsOneWord IsOneLine
  rw [String.toList_ofList]
  exact ⟨fun hmem => hspace (h _ hmem), fun hmem => hcr (h _ hmem), fun hmem => hlf (h _ hmem)⟩

theorem isFigure_of_mem_digits {n : Nat} {c : Char} (h : c ∈ Decimal.digits n) : IsFigure c :=
  .inl (isDigit_of_mem_digits h)

theorem isFigure_of_mem_fixed {places : Nat} {q : Rat} {c : Char}
    (h : c ∈ Decimal.fixed places q) : IsFigure c := by
  unfold Decimal.fixed at h
  dsimp only at h
  rw [List.mem_append, List.mem_append, List.mem_cons] at h
  obtain (hminus | hwhole) | rfl | hplaces := h
  · obtain hnone | hsign := minus_cases q
    · rw [hnone] at hminus
      contradiction
    · rw [hsign, List.mem_singleton] at hminus
      rw [hminus]
      decide
  · exact isFigure_of_mem_digits hwhole
  · decide
  · exact .inl (isDigit_of_mem_padded hplaces)

theorem isFigure_of_mem_plainDuration {d : Binary64} {c : Char}
    (h : c ∈ Summary.plainDuration d) : IsFigure c := by
  cases d with
  | finite q => exact isFigure_of_mem_fixed h
  | infinity negative =>
    have hletters : ∀ c ∈ Summary.plainDuration (.infinity negative), IsFigure c := by
      cases negative with
      | false => simp [Summary.plainDuration, Summary.signed, IsFigure]
      | true => simp [Summary.plainDuration, Summary.signed, IsFigure]
    exact hletters c h

theorem isOneWord_name (o : Outcome) : IsOneWord o.name := by
  cases o <;> decide

theorem isOneWord_toString (n : Nat) : IsOneWord (toString n) :=
  isOneWord_of_figures fun _ hc => isFigure_of_mem_digits hc

theorem isOneWord_plainDuration (d : Binary64) : IsOneWord (.ofList (Summary.plainDuration d)) :=
  isOneWord_of_figures fun _ hc => isFigure_of_mem_plainDuration hc

/-! ## The words of a request -/

theorem space_not_mem_of_request {client : Client} {r : Request} (h : request? client = some r) :
    ' ' ∉ r.method.toList ∧ ' ' ∉ r.path.toList := by
  obtain ⟨message, -, hparse⟩ := exists_message h
  obtain ⟨parts, lines, path, ⟨first, -, hline⟩, hpath, -, rfl⟩ := parse_eq_ok_iff.1 hparse
  constructor
  · exact fun hmem => hline.method.2 (mem_of_mem_decode hmem)
  · intro hmem
    obtain htarget | hslash := mem_of_path hpath (mem_of_mem_decode hmem)
    · exact hline.target.2 htarget
    · contradiction

theorem space_not_mem (client : Client) :
    ' ' ∉ (methodOf client).toList ∧ ' ' ∉ (pathOf client).toList := by
  unfold methodOf pathOf
  cases hrequest : request? client with
  | none => decide
  | some r => exact space_not_mem_of_request hrequest

/-! ## What is read back -/

/-- The plain line of an outcome with these values is cut into them again. -/
theorem fields?_plainFields {client method path outcome sent duration : String}
    (hclient : ' ' ∉ client.toList) (hmethod : ' ' ∉ method.toList) (hpath : ' ' ∉ path.toList)
    (houtcome : ' ' ∉ outcome.toList) (hsent : ' ' ∉ sent.toList)
    (hduration : ' ' ∉ duration.toList) :
    fields? (joined (plainFields client method path outcome sent duration)) =
      some (plainFields client method path outcome sent duration) := by
  apply fields?_joined
  · simp [plainFields]
  · simp [plainFields]
  · simp [plainFields, toList_fieldText, *]

variable {settings : Settings} {routes : Routes} {now : Int} {client : Client} {bytes : Bytes}
  {summary : Summary} {record : Log.Record}

theorem message_eq (hplain : settings.logFormat ≠ "json")
    (h : Concludes settings routes now client bytes summary record) :
    record.message = joined (plainFields client.host (methodOf client) (pathOf client)
      summary.outcome.name (toString bytes.length)
      (.ofList (Summary.plainDuration (elapsedMillis client.start client.stop)))) := by
  have hformat : settings.logsJson = false := beq_false_of_ne hplain
  rw [h.format, hformat, ← h.host, ← h.millis, ← h.method_eq, ← h.path_eq,
    ← h.accounts.bytesSent]
  exact plainLine_eq summary

theorem fields?_message (hplain : settings.logFormat ≠ "json") (hhost : IsOneWord client.host)
    (h : Concludes settings routes now client bytes summary record) :
    fields? record.message = some (plainFields client.host (methodOf client) (pathOf client)
      summary.outcome.name (toString bytes.length)
      (.ofList (Summary.plainDuration (elapsedMillis client.start client.stop)))) := by
  rw [message_eq hplain h]
  apply fields?_plainFields
  · exact hhost.1
  · exact (space_not_mem client).1
  · exact (space_not_mem client).2
  · exact (isOneWord_name summary.outcome).1
  · exact (isOneWord_toString bytes.length).1
  · exact (isOneWord_plainDuration _).1

/-- Only a method or a path can end the line of an outcome early. -/
theorem isOneLine_message_iff (hplain : settings.logFormat ≠ "json")
    (hhost : IsOneWord client.host)
    (h : Concludes settings routes now client bytes summary record) :
    IsOneLine record.message ↔ IsOneLine (methodOf client) ∧ IsOneLine (pathOf client) := by
  have hnames : IsOneLine "client" ∧ IsOneLine "method" ∧ IsOneLine "path" ∧
      IsOneLine "outcome" ∧ IsOneLine "bytes_out" ∧ IsOneLine "duration_ms" := by decide
  have houtcome := (isOneWord_name summary.outcome).2
  have hsent := (isOneWord_toString bytes.length).2
  have hduration := (isOneWord_plainDuration (elapsedMillis client.start client.stop)).2
  rw [message_eq hplain h, isOneLine_joined]
  simp only [plainFields, List.forall_mem_cons, hnames, hhost.2, houtcome, hsent, hduration,
    true_and, and_true, List.not_mem_nil, false_implies, implies_true]

/-! ## The promise -/

/-- Cut at its spaces, the plain line of an outcome always gives the six values that it should.
It is one line just when neither the method nor the path holds a CR or an LF. -/
theorem plain_outcome_kept_iff (settings : Settings) (routes : Routes) (now : Int)
    (client : Client) (record : Log.Record) (summary : Summary)
    (hplain : settings.logFormat ≠ "json") (hhost : IsOneWord client.host)
    (hrecord : record ∈ (serve settings routes now client).log)
    (hsummary : record.summary? = some summary) :
    ∃ bytes, Concludes settings routes now client bytes summary record ∧
      fields? record.message = some [
        ("client", client.host),
        ("method", methodOf client),
        ("path", pathOf client),
        ("outcome", summary.outcome.name),
        ("bytes_out", toString bytes.length),
        ("duration_ms",
          .ofList (Summary.plainDuration (elapsedMillis client.start client.stop)))] ∧
      (IsOneLine record.message ↔ IsOneLine (methodOf client) ∧ IsOneLine (pathOf client)) := by
  obtain ⟨bytes, h⟩ := exists_concludes hrecord hsummary
  exact ⟨bytes, h, fields?_message hplain hhost h, isOneLine_message_iff hplain hhost h⟩

theorem plain_outcome_kept_iff_post :
    let client := clientOf (Bytes.ofText "POST /v1/chat/completions HTTP/1.1\r\n\r\n")
    ∃ record summary, record ∈ (serve {} (Routes.canned [65]) 0 client).log ∧
      record.summary? = some summary ∧ IsOneLine record.message := by
  intro client
  have hread : reading client = .ok _ := reading_clientOf (by decide) (by decide) rfl
  obtain ⟨r, hrequest, hmethod, hpath⟩ : ∃ r, request? client = some r ∧
      r.method = "POST" ∧ r.path = "/v1/chat/completions" := by
    rw [request?_of_reading hread]
    exact ⟨_, rfl, rfl, rfl⟩
  obtain ⟨record, summary, hrecord, hsummary⟩ :=
    (serve_clientOf {} (Routes.canned [65]) 0 rfl hrequest).exists_record
  obtain ⟨bytes, -, -, hline⟩ := plain_outcome_kept_iff {} (Routes.canned [65]) 0 client record
    summary (by decide) (by decide) hrecord hsummary
  refine ⟨record, summary, hrecord, hsummary, hline.2 ?_⟩
  rw [methodOf, pathOf, hrequest, Option.map_some, Option.map_some, Option.getD_some,
    Option.getD_some, hmethod, hpath]
  decide

/-- A client whose target holds an LF and a field behind it. -/
def forger : Client := clientOf (Bytes.ofText "GET /\nclient=10.0.0.9 HTTP/1.1\r\n\r\n")

theorem forger_ends_line :
    IsOneWord forger.host ∧ ∃ record summary,
      record ∈ (serve {} (Routes.canned []) 0 forger).log ∧ record.summary? = some summary ∧
        ¬ IsOneLine record.message := by
  have hhost : IsOneWord forger.host := by decide
  have hread : reading forger = .ok _ := reading_clientOf (by decide) (by decide) rfl
  obtain ⟨r, hrequest, hpath⟩ :
      ∃ r, request? forger = some r ∧ r.path = "/\nclient=10.0.0.9" := by
    rw [request?_of_reading hread]
    exact ⟨_, rfl, rfl⟩
  obtain ⟨record, summary, hrecord, hsummary⟩ :=
    (serve_clientOf {} (Routes.canned []) 0 rfl hrequest).exists_record
  obtain ⟨bytes, h⟩ := exists_concludes hrecord hsummary
  refine ⟨hhost, record, summary, hrecord, hsummary, fun hline => ?_⟩
  have hpathLine := ((isOneLine_message_iff (by decide) hhost h).1 hline).2
  rw [pathOf, hrequest, Option.map_some, Option.getD_some, hpath] at hpathLine
  exact absurd hpathLine (by decide)

end CannedReply.Proofs.Service.PlainLine
