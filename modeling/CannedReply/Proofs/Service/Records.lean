import CannedReply.Proofs.Service.Accounting
/-!
# The outcome in the log

A visit logs at most one outcome.  Wherever it is logged, it is in the format of the settings, and
it names the client that was served and how long that took.  Main statement: `exists_concludes`.
-/

namespace CannedReply.Proofs.Service.Records

open CannedReply.Service
open CannedReply.Proofs.Service.Accounting
open CannedReply.Proofs.Service.Turns

/-- If the record is an outcome, it is one of the client, in the format of the settings. -/
def IsOwn (settings : Settings) (client : Client) (record : Log.Record) : Prop :=
  ∀ summary, record.summary? = some summary →
    record = .concluded summary settings.logsJson ∧ summary.client = client.host ∧
      summary.millis = elapsedMillis client.start client.stop

/-- The record of an outcome and all that it accounts for. -/
structure Concludes (settings : Settings) (routes : Routes) (now : Int) (client : Client)
    (bytes : Bytes) (summary : Summary) (record : Log.Record) : Prop where
  format : record = .concluded summary settings.logsJson
  host : summary.client = client.host
  millis : summary.millis = elapsedMillis client.start client.stop
  sent : (serve settings routes now client).socket.sent = client.socket.sent ++ bytes
  accounts : Accounts settings routes now client bytes summary

variable {settings : Settings} {routes : Routes} {now : Int} {client : Client}
  {request : Option Request} {c : Connection} {log : List Log.Record}

theorem isOwn_of_none {record : Log.Record} (h : record.summary? = none) :
    IsOwn settings client record := by
  intro summary hsummary
  rw [h] at hsummary
  contradiction

theorem isOwn_concluded (settings : Settings) (client : Client) (request : Option Request)
    (outcome : Outcome) (sent : Nat) :
    IsOwn settings client (concluded settings client request outcome sent) := by
  intro summary hsummary
  obtain rfl := Option.some.inj hsummary
  exact ⟨rfl, rfl, rfl⟩

theorem isOwn_of_silence (h : log.filterMap Log.Record.summary? = []) :
    ∀ record ∈ log, IsOwn settings client record := by
  intro record hrecord
  exact isOwn_of_none (List.filterMap_eq_nil_iff.1 h record hrecord)

theorem refuse_own (h : ∀ record ∈ log, IsOwn settings client record)
    (e : Connection.TakeoverError) :
    ∀ record ∈ (refuse settings now client request e c log).log, IsOwn settings client record := by
  have hfailed : ∀ record ∈ log ++ [.takeoverFailed e], IsOwn settings client record :=
    List.forall_mem_append.2 ⟨h, isOwn_of_silence rfl⟩
  unfold refuse
  dsimp only
  cases c.sendResponse now (.internalError e.message) with
  | ok sent =>
    refine List.forall_mem_append.2 ⟨hfailed, List.forall_mem_singleton.2 ?_⟩
    apply isOwn_concluded
  | error failure =>
    dsimp only
    cases failure.escaping? with
    | some escaped => exact hfailed
    | none =>
      have hunreported : IsOwn settings client (.unreported failure) := isOwn_of_none rfl
      refine List.forall_mem_append.2 ⟨hfailed, List.forall_mem_cons.2 ⟨hunreported, ?_⟩⟩
      refine List.forall_mem_singleton.2 ?_
      apply isOwn_concluded

theorem deliver_own (h : ∀ record ∈ log, IsOwn settings client record) (payload : Bytes)
    (outcome : Outcome) :
    ∀ record ∈ (deliver settings client request payload outcome c log).log,
      IsOwn settings client record := by
  have hended : ∀ record ∈ [Log.Record.ended], IsOwn settings client record := isOwn_of_silence rfl
  unfold deliver
  dsimp only
  cases c.sendRaw payload with
  | ok sent =>
    refine List.forall_mem_append.2 ⟨h, List.forall_mem_cons.2 ⟨?_, hended⟩⟩
    apply isOwn_concluded
  | error e =>
    have hfailed : IsOwn settings client (.writeFailed client.host e) := isOwn_of_none rfl
    refine List.forall_mem_append.2 ⟨h, List.forall_mem_cons.2 ⟨hfailed, ?_⟩⟩
    refine List.forall_mem_cons.2 ⟨?_, hended⟩
    apply isOwn_concluded

theorem answer_own (h : ∀ record ∈ log, IsOwn settings client record) :
    ∀ record ∈ (answer settings routes now client request c log).log,
      IsOwn settings client record := by
  have hreceived : ∀ record ∈ log ++ received request, IsOwn settings client record :=
    List.forall_mem_append.2 ⟨h, isOwn_of_silence (summary?_received request)⟩
  unfold answer
  dsimp only
  cases c.takeOver with
  | error e => exact refuse_own hreceived e
  | ok taken => exact deliver_own hreceived _ _

theorem serve_own (settings : Settings) (routes : Routes) (now : Int) (client : Client) :
    ∀ record ∈ (serve settings routes now client).log, IsOwn settings client record := by
  have hturn := serve_turn settings routes now client
  generalize serve settings routes now client = visit at hturn
  cases hturn with
  | silent _ _ => exact isOwn_of_silence rfl
  | lost _ _ => exact isOwn_of_silence rfl
  | stray _ _ _ => exact isOwn_of_silence rfl
  | answered _ _ _ _ hlog => exact answer_own (isOwn_of_silence hlog)

/-- An outcome that is logged says whom it is about, how long that took, and what was sent. -/
theorem exists_concludes {record : Log.Record} {summary : Summary}
    (hrecord : record ∈ (serve settings routes now client).log)
    (hsummary : record.summary? = some summary) :
    ∃ bytes, Concludes settings routes now client bytes summary record := by
  obtain ⟨hformat, hhost, hmillis⟩ :=
    serve_own settings routes now client record hrecord summary hsummary
  have hmem : summary ∈ (serve settings routes now client).log.filterMap Log.Record.summary? :=
    List.mem_filterMap.2 ⟨record, hrecord, hsummary⟩
  obtain ⟨-, bytes, hsent, ⟨hnone, -⟩ | ⟨found, hfound, haccounts⟩⟩ :=
    serve_accounts settings routes now client
  · rw [hnone] at hmem
    contradiction
  · rw [hfound] at hmem
    obtain rfl := List.mem_singleton.1 hmem
    exact ⟨bytes, hformat, hhost, hmillis, hsent, haccounts⟩

/-! ## What an outcome names -/

/-- The method of the request of a client, or a dash without one. -/
def methodOf (client : Client) : String := ((request? client).map Request.method).getD "-"

/-- The path of the request of a client, or a dash without one. -/
def pathOf (client : Client) : String := ((request? client).map Request.path).getD "-"

variable {bytes : Bytes} {summary : Summary} {record : Log.Record}

theorem Concludes.method_eq (h : Concludes settings routes now client bytes summary record) :
    summary.method = methodOf client := by
  unfold Summary.method methodOf
  rw [h.accounts.request, known, Option.map_map]
  rfl

theorem Concludes.path_eq (h : Concludes settings routes now client bytes summary record) :
    summary.path = pathOf client := by
  unfold Summary.path pathOf
  rw [h.accounts.request, known, Option.map_map]
  rfl

end CannedReply.Proofs.Service.Records
