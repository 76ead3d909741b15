import CannedReply.Proofs.Service.Turns
/-!
# The account of a visit

Every way out of a visit closes the socket and leaves at most one outcome, which names what
happened to the takeover and to the payload and counts the bytes that were sent.  Main statement:
`serve_accounts`.
-/

namespace CannedReply.Proofs.Service.Accounting

open CannedReply.Service
open CannedReply.Proofs.Connection.Turns
open CannedReply.Proofs.Reading.Receives
open CannedReply.Proofs.Service.Turns

/-- The method and path of a request, as an outcome names them. -/
def known (request : Option Request) : Option (String × String) :=
  request.map fun r => (r.method, r.path)

/-- The payload that the handler of a matching route makes for a request, if there is one. -/
def routed? (routes : Routes) (request : Option Request) : Option Bytes :=
  request.bind fun r => (routes.resolve? r.method r.path).map fun handler => handler r

/-- The payload for a request, or for a message that is none. -/
def payloadFor (routes : Routes) (request : Option Request) : Bytes :=
  (routed? routes request).getD (Handler.unknownRequest request)

/-- Why the connection of a client is not taken over. -/
def Refused (settings : Settings) (client : Client) (e : Connection.TakeoverError) : Prop :=
  settings.takeover = false ∧ e = .unsupported ∨
    settings.takeover = true ∧ ∃ fault, client.socket.checkPeer = .error fault ∧
      e = .peerGone fault

/-- The outcome `summary` accounts for the bytes `sent` to the client. -/
structure Accounts (settings : Settings) (routes : Routes) (now : Int) (client : Client)
    (sent : Bytes) (summary : Summary) : Prop where
  request : summary.request = known (request? client)
  bytesSent : summary.bytesSent = sent.length
  unsupported : summary.outcome = .takeoverUnsupported ↔ settings.takeover = false
  failed : summary.outcome = .takeoverFailed ↔
    settings.takeover = true ∧ ∃ e, client.socket.checkPeer = .error e
  unwritten : summary.outcome = .writeFailed ↔
    settings.takeover = true ∧ client.socket.checkPeer = .ok () ∧
      payloadFor routes (request? client) ≠ [] ∧
      ∃ e, client.socket.send (payloadFor routes (request? client)) = .error e
  replied : summary.outcome = .reply → (routed? routes (request? client)).isSome
  missed : summary.outcome = .unknown → routed? routes (request? client) = none
  whole : match summary.outcome with
    | .reply | .unknown => sent = payloadFor routes (request? client)
    | .writeFailed => sent = []
    | .takeoverUnsupported | .takeoverFailed =>
      sent = [] ∨ ∃ e, Refused settings client e ∧
        (Response.internalError e.message).toBytes now = .ok sent

/-- The socket is closed, and an outcome accounts for all that left the server; without one,
nothing did. -/
def Accounted (settings : Settings) (routes : Routes) (now : Int) (client : Client)
    (visit : Visit) : Prop :=
  visit.socket.closed = true ∧ ∃ sent, visit.socket.sent = client.socket.sent ++ sent ∧
    (visit.log.filterMap Log.Record.summary? = [] ∧ sent = [] ∧ visit.echo = "" ∨
      ∃ summary, visit.log.filterMap Log.Record.summary? = [summary] ∧
        Accounts settings routes now client sent summary)

variable {settings : Settings} {routes : Routes} {now : Int} {client : Client}
  {request : Option Request} {c : Connection} {log : List Log.Record}

theorem select_eq (routes : Routes) (request : Option Request) :
    select routes request =
      (payloadFor routes request,
        if (routed? routes request).isSome then .reply else .unknown) := by
  unfold select payloadFor routed?
  cases request with
  | none => rfl
  | some r =>
    dsimp only [Option.bind_some]
    split <;> rename_i hroute <;> simp [hroute]

theorem payloadFor_request (routes : Routes) (r : Request) :
    payloadFor routes (some r) =
      ((routes.resolve? r.method r.path).map fun handler => handler r).getD
        Handler.unknownPayload :=
  rfl

theorem summary?_received (request : Option Request) :
    (received request).filterMap Log.Record.summary? = [] := by
  cases request <;> rfl

/-- The account of a visit that ends with nothing sent and no outcome. -/
theorem accounted_of_silence {visit : Visit} (hclosed : visit.socket.closed = true)
    (hsent : visit.socket.sent = client.socket.sent)
    (hlog : visit.log.filterMap Log.Record.summary? = []) (hecho : visit.echo = "") :
    Accounted settings routes now client visit :=
  ⟨hclosed, [], by rw [hsent, List.append_nil], .inl ⟨hlog, rfl, hecho⟩⟩

/-! ## Each way out -/

theorem refuse_accounts (hrequest : request = request? client) {e : Connection.TakeoverError}
    (he : Refused settings client e) {sent : Bytes}
    (hsent : sent = [] ∨ (Response.internalError e.message).toBytes now = .ok sent)
    (millis : Binary64) :
    Accounts settings routes now client sent
      { client := client.host
        request := known request
        outcome := if e = .unsupported then .takeoverUnsupported else .takeoverFailed
        bytesSent := sent.length
        millis } := by
  have hwhole : sent = [] ∨ ∃ e, Refused settings client e ∧
      (Response.internalError e.message).toBytes now = .ok sent :=
    hsent.imp_right fun hbytes => ⟨e, he, hbytes⟩
  obtain ⟨htakeover, rfl⟩ | ⟨htakeover, fault, hpeer, rfl⟩ := he
  · constructor <;> simp [htakeover, hwhole, hrequest]
  · constructor <;> simp [htakeover, hpeer, hwhole, hrequest]

theorem refuse_accounted (hrequest : request = request? client) {e : Connection.TakeoverError}
    (he : Refused settings client e) (hc : AfterReading settings client c)
    (hlog : log.filterMap Log.Record.summary? = []) :
    Accounted settings routes now client (refuse settings now client request e c log) := by
  have hsent : c.socket.sent = client.socket.sent := hc.untouched.sent
  unfold refuse
  obtain ⟨bytes, hbytes, hsend⟩ | ⟨failure, hsend⟩ :=
    sendResponse_turn now (.internalError e.message) hc.whole
  · rw [hsend]
    refine ⟨close_closed hc.whole, bytes, ?_, .inr ⟨_, ?_, refuse_accounts hrequest he
      (.inr hbytes) (elapsedMillis client.start client.stop)⟩⟩
    · rw [close_sent, hsent]
    · rw [List.filterMap_append, List.filterMap_append, hlog]
      rfl
  · rw [hsend]
    dsimp only
    cases hescape : failure.escaping? with
    | some escaped =>
      refine accounted_of_silence (close_closed hc.whole) ?_ ?_ rfl
      · rw [close_sent, hsent]
      · simp [hlog, Log.Record.summary?]
    | none =>
      refine ⟨close_closed hc.whole, [], ?_, .inr ⟨_, ?_, refuse_accounts hrequest he
        (.inl rfl) (elapsedMillis client.start client.stop)⟩⟩
      · rw [close_sent, hsent, List.append_nil]
      · rw [List.filterMap_append, List.filterMap_append, hlog]
        rfl

theorem unwritten_accounts (hrequest : request = request? client)
    (htakeover : settings.takeover = true) (hpeer : client.socket.checkPeer = .ok ()) {e : SysError}
    (hpayload : payloadFor routes request ≠ [])
    (hfailed : client.socket.send (payloadFor routes request) = .error e)
    (millis : Binary64) :
    Accounts settings routes now client []
      { client := client.host
        request := known request
        outcome := .writeFailed
        bytesSent := 0
        millis } := by
  constructor <;> simp [htakeover, hpeer, hpayload, hfailed, ← hrequest]

theorem delivered_accounts (hrequest : request = request? client)
    (htakeover : settings.takeover = true) (hpeer : client.socket.checkPeer = .ok ())
    (hfits : payloadFor routes request = [] ∨
      ∃ socket, client.socket.send (payloadFor routes request) = .ok socket)
    (millis : Binary64) :
    Accounts settings routes now client (payloadFor routes request)
      { client := client.host
        request := known request
        outcome := if (routed? routes request).isSome then .reply else .unknown
        bytesSent := (payloadFor routes request).length
        millis } := by
  subst hrequest
  have hwritten : payloadFor routes (request? client) ≠ [] →
      ∀ e, client.socket.send (payloadFor routes (request? client)) ≠ .error e := by
    intro hpayload e hfailed
    obtain hempty | ⟨socket, hsend⟩ := hfits
    · exact hpayload hempty
    · rw [hsend] at hfailed
      contradiction
  cases hroute : routed? routes (request? client) with
  | some payload =>
    constructor
    case request => rfl
    case unwritten => simpa [htakeover, hpeer, hroute] using hwritten
    all_goals simp [htakeover, hpeer, hroute]
  | none =>
    constructor
    case request => rfl
    case unwritten => simpa [htakeover, hpeer, hroute] using hwritten
    all_goals simp [htakeover, hpeer, hroute]

theorem deliver_accounted (hrequest : request = request? client)
    (htakeover : settings.takeover = true) (hpeer : client.socket.checkPeer = .ok ())
    (hc : Untouched (client.socket.setPatience patience) c.socket)
    (hlog : log.filterMap Log.Record.summary? = []) :
    Accounted settings routes now client
      (deliver settings client request (select routes request).1 (select routes request).2 c
        log) := by
  have hsent : c.socket.sent = client.socket.sent := hc.sent
  have hclosed : c.socket.closed = client.socket.closed := hc.closed
  have hfails (payload : Bytes) (e : SysError) :
      c.socket.send payload = .error e ↔ client.socket.send payload = .error e :=
    send_eq_error_iff hclosed hc.sendFault
  rw [select_eq]
  unfold deliver
  obtain ⟨hpayload, e, hfailed, hsend⟩ | ⟨hfits, hsend⟩ :=
    sendRaw_turn (payloadFor routes request) c
  · rw [hsend]
    refine ⟨closeSocket_close_closed c, [], ?_, .inr ⟨_, ?_, unwritten_accounts hrequest
      htakeover hpeer hpayload ((hfails _ _).1 hfailed) (elapsedMillis client.start client.stop)⟩⟩
    · rw [close_sent, closeSocket_sent, hsent, List.append_nil]
    · rw [List.filterMap_append, hlog]
      rfl
  · rw [hsend]
    have hwritten : payloadFor routes request = [] ∨
        ∃ socket, client.socket.send (payloadFor routes request) = .ok socket := by
      refine hfits.imp_right fun ⟨socket, hok⟩ => ?_
      cases hsend' : client.socket.send (payloadFor routes request) with
      | ok socket' => exact ⟨socket', rfl⟩
      | error e =>
        rw [(hfails _ _).2 hsend'] at hok
        contradiction
    refine ⟨closeSocket_close_closed _, payloadFor routes request, ?_, .inr ⟨_, ?_,
      delivered_accounts hrequest htakeover hpeer hwritten
        (elapsedMillis client.start client.stop)⟩⟩
    · rw [close_sent, closeSocket_sent, hsent]
    · rw [List.filterMap_append, hlog]
      rfl

theorem answer_accounted (hrequest : request = request? client)
    (hc : AfterReading settings client c) (hlog : log.filterMap Log.Record.summary? = []) :
    Accounted settings routes now client (answer settings routes now client request c log) := by
  have hlog' : (log ++ received request).filterMap Log.Record.summary? = [] := by
    rw [List.filterMap_append, hlog, summary?_received, List.append_nil]
  have hpeer : c.socket.checkPeer = (client.socket.setPatience patience).checkPeer :=
    checkPeer_of_untouched hc.untouched
  unfold answer
  obtain ⟨hno, hturn⟩ | ⟨hyes, ⟨e, hgone, hturn⟩ | ⟨hthere, hturn⟩⟩ := takeOver_turn hc.whole
  · rw [hturn]
    exact refuse_accounted hrequest (.inl ⟨hc.offers ▸ hno, rfl⟩) hc hlog'
  · rw [hturn]
    exact refuse_accounted hrequest (.inr ⟨hc.offers ▸ hyes, e, hpeer ▸ hgone, rfl⟩) hc hlog'
  · rw [hturn]
    exact deliver_accounted hrequest (hc.offers ▸ hyes) (hpeer ▸ hthere) hc.untouched hlog'

/-! ## The account -/

/-- Whatever arrives and whatever fails, a visit closes its socket and accounts for what it has
sent. -/
theorem serve_accounts (settings : Settings) (routes : Routes) (now : Int) (client : Client) :
    Accounted settings routes now client (serve settings routes now client) := by
  have hturn := serve_turn settings routes now client
  generalize serve settings routes now client = visit at hturn
  have hsent {c : Connection} (hc : AfterReading settings client c) :
      c.close.socket.sent = client.socket.sent :=
    (close_sent c).trans hc.untouched.sent
  cases hturn with
  | silent hc _ => exact accounted_of_silence (close_closed hc.whole) (hsent hc) rfl rfl
  | lost hc _ => exact accounted_of_silence (close_closed hc.whole) (hsent hc) rfl rfl
  | stray hc _ _ => exact accounted_of_silence (close_closed hc.whole) (hsent hc) rfl rfl
  | answered hc _ _ _ hlog => exact answer_accounted rfl hc hlog

end CannedReply.Proofs.Service.Accounting
