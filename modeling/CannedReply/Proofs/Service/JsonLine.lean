import CannedReply.Proofs.Service.Answers
import CannedReply.Proofs.Service.Records
import CannedReply.Proofs.Text.JsonNumber
/-!
# Outcomes in the JSON format

The JSON line of an outcome is printable ASCII, so it is one line, and a reader of JSON finds all
that it should say in it, whatever the host of a client is and whatever the client sends.  Main
statement: `json_outcome_kept`.
-/

namespace CannedReply.Proofs.Service.JsonLine

open CannedReply.Service
open CannedReply.Proofs.Service.Accounting
open CannedReply.Proofs.Service.Answers
open CannedReply.Proofs.Service.Records
open CannedReply.Proofs.Service.Turns
open CannedReply.Proofs.Text
open CannedReply.Proofs.Text.Json
open CannedReply.Proofs.Text.JsonNumber
open CannedReply.Proofs.Text.JsonString

/-! ## The line of an outcome -/

theorem isAscii_joined {texts : List (List Char)} (h : ∀ text ∈ texts, ∀ c ∈ text, IsAscii c) :
    ∀ c ∈ [',', ' '].intercalate texts, IsAscii c := by
  have hcomma : ∀ c ∈ [',', ' '], IsAscii c := by simp [IsAscii]
  induction texts with
  | nil => simp
  | cons text texts ih =>
    obtain ⟨htext, htexts⟩ := List.forall_mem_cons.1 h
    cases texts with
    | nil => rwa [List.intercalate_singleton]
    | cons next texts =>
      rw [List.intercalate_cons_cons]
      exact List.forall_mem_append.2 ⟨List.forall_mem_append.2 ⟨htext, hcomma⟩, ih htexts⟩

theorem isAscii_member {m : String × List Char} (h : ∀ c ∈ m.2, IsAscii c) :
    ∀ c ∈ Summary.member m, IsAscii c := by
  have hcolon : IsAscii ':' := by decide
  have hspace : IsAscii ' ' := by decide
  refine List.forall_mem_append.2 ⟨isAscii_literal m.1, ?_⟩
  exact List.forall_mem_cons.2 ⟨hcolon, List.forall_mem_cons.2 ⟨hspace, h⟩⟩

theorem isAscii_members (s : Summary) : ∀ m ∈ s.members, ∀ c ∈ m.2, IsAscii c := by
  simp only [Summary.members, List.forall_mem_cons]
  exact ⟨isAscii_digits _, isAscii_literal _, isAscii_jsonDuration _, isAscii_literal _,
    isAscii_literal _, isAscii_literal _, by simp⟩

theorem isAscii_jsonLine (s : Summary) : ∀ c ∈ s.jsonLine.toList, IsAscii c := by
  have hopening : IsAscii '\x7b' := by decide
  have hclosing : IsAscii '\x7d' := by decide
  have hmembers : ∀ text ∈ s.members.map Summary.member, ∀ c ∈ text, IsAscii c :=
    List.forall_mem_map.2 fun m hm => isAscii_member (isAscii_members s m hm)
  unfold Summary.jsonLine
  rw [String.toList_ofList]
  refine List.forall_mem_append.2 ⟨List.forall_mem_cons.2 ⟨hopening, ?_⟩, ?_⟩
  · exact isAscii_joined hmembers
  · exact List.forall_mem_singleton.2 hclosing

/-- The line of an outcome is read as an object of its values. -/
theorem exists_read?_jsonLine (s : Summary) :
    ∃ latency, IsNumeric latency ∧ read? s.jsonLine = some (.object [
      ("bytes_out", .number s.bytesSent),
      ("client", .string s.client),
      ("latency_ms", latency),
      ("method", .string s.method),
      ("outcome", .string s.outcome.name),
      ("path", .string s.path)]) := by
  obtain ⟨latency, hnumeric, hlatency⟩ := exists_readsAs_jsonDuration s.millis
  refine ⟨latency, hnumeric, read?_object (by simp [Summary.members]) fun depth => ?_⟩
  -- One part for each member, in the order in which they are written.
  refine .cons (readsAs_member ?_ _) (.cons (readsAs_member ?_ _) (.cons (readsAs_member ?_ _)
    (.cons (readsAs_member ?_ _) (.cons (readsAs_member ?_ _) (.cons (readsAs_member ?_ _)
      .nil)))))
  · exact readsAs_digits s.bytesSent depth
  · exact readsAs_literal depth s.client
  · exact hlatency depth
  · exact readsAs_literal depth s.method
  · exact readsAs_literal depth s.outcome.name
  · exact readsAs_literal depth s.path

/-! ## The promise -/

/-- The JSON line of an outcome is printable ASCII, so one line.  Read back, it is an object with
six members: the bytes that were sent, the host of the client, a latency, the method and the path
that were understood, and the outcome. -/
theorem json_outcome_kept (settings : Settings) (routes : Routes) (now : Int) (client : Client)
    (record : Log.Record) (summary : Summary) (hjson : settings.logFormat = "json")
    (hrecord : record ∈ (serve settings routes now client).log)
    (hsummary : record.summary? = some summary) :
    ∃ bytes latency, Concludes settings routes now client bytes summary record ∧
      IsNumeric latency ∧ (∀ c ∈ record.message.toList, IsAscii c) ∧
      read? record.message = some (.object [
        ("bytes_out", .number bytes.length),
        ("client", .string client.host),
        ("latency_ms", latency),
        ("method", .string (methodOf client)),
        ("outcome", .string summary.outcome.name),
        ("path", .string (pathOf client))]) := by
  obtain ⟨bytes, h⟩ := exists_concludes hrecord hsummary
  obtain ⟨latency, hnumeric, hread⟩ := exists_read?_jsonLine summary
  have hmessage : record.message = summary.jsonLine := by
    rw [h.format, Settings.logsJson, hjson]
    rfl
  refine ⟨bytes, latency, h, hnumeric, ?_, ?_⟩
  · rw [hmessage]
    exact isAscii_jsonLine summary
  · rw [hmessage, hread, h.accounts.bytesSent, h.host, h.method_eq, h.path_eq]

/-- A client whose host and target hold what a JSON string cannot show as it is. -/
def awkward : Client :=
  { socket := { arrivals := [.data (Bytes.ofText "GET /\"\\\n HTTP/1.1\r\n\r\n")] }
    host := "😀\"" }

theorem json_outcome_kept_awkward :
    ∃ record summary latency, ∃ sent : Nat,
      record ∈ (serve { logFormat := "json" } (Routes.canned []) 0 awkward).log ∧
      record.summary? = some summary ∧ read? record.message = some (.object [
        ("bytes_out", .number sent),
        ("client", .string "😀\""),
        ("latency_ms", latency),
        ("method", .string "GET"),
        ("outcome", .string summary.outcome.name),
        ("path", .string "/\"\\\n")]) := by
  have hread : reading awkward = .ok (Bytes.ofText "GET /\"\\\n HTTP/1.1\r\n\r\n") :=
    reading_of_delivers ⟨rfl, rfl, by decide⟩ rfl (by decide) rfl
  obtain ⟨r, hrequest, hmethod, hpath⟩ :
      ∃ r, request? awkward = some r ∧ r.method = "GET" ∧ r.path = "/\"\\\n" := by
    rw [request?_of_reading hread]
    exact ⟨_, rfl, rfl, rfl⟩
  have hclient : Reachable { logFormat := "json" } awkward := ⟨rfl, rfl, rfl⟩
  obtain ⟨record, summary, hrecord, hsummary⟩ :=
    (serve_answered_of_request 0 hclient.takeover hrequest
      (accepts_of_reachable hclient rfl (payloadFor (Routes.canned []) _))).exists_record
  obtain ⟨bytes, latency, -, -, -, hobject⟩ := json_outcome_kept { logFormat := "json" }
    (Routes.canned []) 0 awkward record summary rfl hrecord hsummary
  refine ⟨record, summary, latency, bytes.length, hrecord, hsummary, hobject.trans ?_⟩
  rw [methodOf, pathOf, hrequest, Option.map_some, Option.map_some, Option.getD_some,
    Option.getD_some, hmethod, hpath]
  rfl

end CannedReply.Proofs.Service.JsonLine
