import CannedReply.Proofs.Response.Framed
import CannedReply.Proofs.Service.Answers
/-!
# Refused takeovers

By the time a takeover is refused the payload has been chosen, but nothing of it leaves the server:
what the client is sent and what is echoed are the same whatever the server would have served.
Main statement: `refused_visits_alike`.
-/

namespace CannedReply.Proofs.Service.Refusal

open CannedReply.Service
open CannedReply.Proofs.Connection.Turns
open CannedReply.Proofs.Response.Framed
open CannedReply.Proofs.Service.Accounting
open CannedReply.Proofs.Service.Answers
open CannedReply.Proofs.Service.Turns

/-- Two visits that leave the same socket, echo, fault and outcome. -/
structure Alike (visit visit' : Visit) : Prop where
  socket : visit.socket = visit'.socket
  echo : visit.echo = visit'.echo
  fault : visit.fault = visit'.fault
  outcome : visit.log.filterMap Log.Record.summary? = visit'.log.filterMap Log.Record.summary?

variable {settings settings' : Settings} {client : Client} {e : Connection.TakeoverError}

theorem Alike.refl (visit : Visit) : Alike visit visit := ⟨rfl, rfl, rfl, rfl⟩

/-- For one client, servers that refuse for the same reason offer takeovers alike. -/
theorem takeover_eq_of_refused (h : Refused settings client e) (h' : Refused settings' client e) :
    settings.takeover = settings'.takeover := by
  obtain ⟨hno, rfl⟩ | ⟨hyes, fault, -, rfl⟩ := h
  · obtain ⟨hno', -⟩ | ⟨-, fault, -, hkind⟩ := h'
    · rw [hno, hno']
    · contradiction
  · obtain ⟨-, hkind⟩ | ⟨hyes', -⟩ := h'
    · contradiction
    · rw [hyes, hyes']

section Steps

variable {c : Connection}

theorem takeOver_of_refused (h : Refused settings client e) (hc : AfterReading settings client c) :
    c.takeOver = .error e := by
  have hpeer : c.socket.checkPeer = (client.socket.setPatience patience).checkPeer :=
    checkPeer_of_untouched hc.untouched
  obtain ⟨hno, hturn⟩ | ⟨hyes, hturns⟩ := takeOver_turn hc.whole
  · rw [hc.offers] at hno
    obtain ⟨-, rfl⟩ | ⟨hyes, -⟩ := h
    · exact hturn
    · rw [hno] at hyes
      contradiction
  · rw [hc.offers] at hyes
    obtain ⟨hno, -⟩ | ⟨-, fault, hgone, rfl⟩ := h
    · rw [hyes] at hno
      contradiction
    · have hgone' : c.socket.checkPeer = .error fault := hpeer.trans hgone
      rw [hgone'] at hturns
      obtain ⟨fault', hfault, hturn⟩ | ⟨hthere, -⟩ := hturns
      · rw [hturn, Except.error.inj hfault]
      · contradiction

/-- Without a takeover the chosen payload is dropped, whatever it is. -/
theorem answer_of_refused (h : Refused settings client e) (hc : AfterReading settings client c)
    (routes : Routes) (now : Int) (request : Option Request) (log : List Log.Record) :
    answer settings routes now client request c log =
      refuse settings now client request e c (log ++ received request) := by
  unfold answer
  rw [takeOver_of_refused h hc]

/-- A refusal depends on the settings only in the format of its outcome. -/
theorem refuse_alike (settings settings' : Settings) (now : Int) (client : Client)
    (request : Option Request) (e : Connection.TakeoverError) (c : Connection)
    (log : List Log.Record) :
    Alike (refuse settings now client request e c log)
      (refuse settings' now client request e c log) := by
  unfold refuse
  dsimp only
  cases c.sendResponse now (.internalError e.message) with
  | ok sent =>
    refine ⟨rfl, rfl, rfl, ?_⟩
    simp only [List.filterMap_append]
    rfl
  | error failure =>
    dsimp only
    cases failure.escaping? with
    | some escaped => exact .refl _
    | none =>
      refine ⟨rfl, rfl, rfl, ?_⟩
      simp only [List.filterMap_append]
      rfl

theorem refuse_echo (settings : Settings) (now : Int) (client : Client) (request : Option Request)
    (e : Connection.TakeoverError) (c : Connection) (log : List Log.Record) :
    (refuse settings now client request e c log).echo = "" := by
  unfold refuse
  dsimp only
  split
  · rfl
  · split <;> rfl

/-- A refusal sends its response as a whole or nothing. -/
theorem refuse_sent (now : Int) (request : Option Request) (e : Connection.TakeoverError)
    (hc : AfterReading settings client c) (log : List Log.Record) :
    ∃ sent, (refuse settings now client request e c log).socket.sent =
        client.socket.sent ++ sent ∧
      (sent = [] ∨ (Response.internalError e.message).toBytes now = .ok sent) := by
  have hsent : c.socket.sent = client.socket.sent := hc.untouched.sent
  unfold refuse
  obtain ⟨bytes, hbytes, hsend⟩ | ⟨failure, hsend⟩ :=
    sendResponse_turn now (.internalError e.message) hc.whole
  · refine ⟨bytes, ?_, .inr hbytes⟩
    rw [hsend, close_sent, hsent]
  · refine ⟨[], ?_, .inl rfl⟩
    rw [hsend, List.append_nil]
    dsimp only
    split <;> rw [close_sent, hsent]

/-- A client that can be written to is told why its connection is not taken over. -/
theorem refuse_sends {now : Int} {bytes : Bytes} (request : Option Request)
    (hc : AfterReading settings client c) (hopen : client.socket.closed = false)
    (hfault : client.socket.sendFault = none)
    (hbytes : (Response.internalError e.message).toBytes now = .ok bytes)
    (log : List Log.Record) :
    (refuse settings now client request e c log).socket.sent = client.socket.sent ++ bytes := by
  have hsend : c.socket.send bytes = .ok { c.socket with sent := c.socket.sent ++ bytes } :=
    send_of_writable (hc.untouched.closed.trans hopen) (hc.untouched.sendFault.trans hfault) bytes
  have hsent : c.socket.sent = client.socket.sent := hc.untouched.sent
  unfold refuse
  rw [sendResponse_of_send hc.whole hbytes hsend]
  dsimp only
  rw [close_sent, hsent]

end Steps

/-! ## Whole visits -/

theorem serve_alike (h : Refused settings client e) (h' : Refused settings' client e)
    (routes routes' : Routes) (now : Int) :
    Alike (serve settings routes now client) (serve settings' routes' now client) := by
  have htakeover := takeover_eq_of_refused h h'
  refine serve_congr .refl htakeover fun hc request log => ?_
  rw [answer_of_refused h hc,
    answer_of_refused h' ⟨hc.whole, hc.offers.trans htakeover, hc.untouched⟩]
  apply refuse_alike

/-- A refused visit echoes nothing, and sends nothing but the response that says why. -/
theorem serve_sent_of_refused (h : Refused settings client e) (routes : Routes) (now : Int) :
    (serve settings routes now client).echo = "" ∧
      ∃ sent, (serve settings routes now client).socket.sent = client.socket.sent ++ sent ∧
        (sent = [] ∨ (Response.internalError e.message).toBytes now = .ok sent) := by
  have hturn := serve_turn settings routes now client
  generalize serve settings routes now client = visit at hturn
  have hsilent {c : Connection} (hc : AfterReading settings client c) :
      ∃ sent, c.close.socket.sent = client.socket.sent ++ sent ∧
        (sent = [] ∨ (Response.internalError e.message).toBytes now = .ok sent) := by
    refine ⟨[], ?_, .inl rfl⟩
    rw [close_sent, List.append_nil]
    exact hc.untouched.sent
  cases hturn with
  | silent hc _ => exact ⟨rfl, hsilent hc⟩
  | lost hc _ => exact ⟨rfl, hsilent hc⟩
  | stray hc _ _ => exact ⟨rfl, hsilent hc⟩
  | answered hc _ _ _ _ =>
    rw [answer_of_refused h hc]
    exact ⟨refuse_echo settings now client _ e _ _, refuse_sent now _ e hc _⟩

/-- Whoever is refused is sent the response that says why, if its message is answered at all and
its socket works. -/
theorem serve_sends_of_refused {now : Int} {bytes : Bytes} (h : Refused settings client e)
    (hspeaks : Speaks client) (hopen : client.socket.closed = false)
    (hfault : client.socket.sendFault = none)
    (hbytes : (Response.internalError e.message).toBytes now = .ok bytes) (routes : Routes) :
    (serve settings routes now client).socket.sent = client.socket.sent ++ bytes := by
  obtain ⟨c, log, hc, -, hserve⟩ := serve_of_speaks hspeaks settings routes now
  rw [hserve, answer_of_refused h hc]
  exact refuse_sends _ hc hopen hfault hbytes _

/-- Where a takeover is refused, the client cannot tell what the server would have served: whatever
the settings and the routes are, it is sent the same bytes, which are none or the response that
says why, and nothing is echoed. -/
theorem refused_visits_alike (settings settings' : Settings) (routes routes' : Routes) (now : Int)
    (client : Client) (e : Connection.TakeoverError) (h : Refused settings client e)
    (h' : Refused settings' client e) :
    Alike (serve settings routes now client) (serve settings' routes' now client) ∧
      (serve settings routes now client).echo = "" ∧
      (serve settings' routes' now client).echo = "" ∧
      ∃ sent, (serve settings routes now client).socket.sent = client.socket.sent ++ sent ∧
        (serve settings' routes' now client).socket.sent = client.socket.sent ++ sent ∧
        (sent = [] ∨ (Response.internalError e.message).toBytes now = .ok sent) := by
  have halike := serve_alike h h' routes routes' now
  obtain ⟨hecho, sent, hsent, hwhole⟩ := serve_sent_of_refused h routes now
  have hsent' : (serve settings' routes' now client).socket.sent = client.socket.sent ++ sent := by
    rw [← halike.socket, hsent]
  exact ⟨halike, hecho, halike.echo ▸ hecho, sent, hsent, hsent', hwhole⟩

/-- A client that asks for the canned reply and whose peer is gone. -/
def peerless : Client :=
  { poster with socket := { poster.socket with peerFault := some ⟨107, "not connected"⟩ } }

/-- What a client without a peer is sent. -/
def peerlessReport : Bytes :=
  Bytes.ofText (errorHead "Thu, 01 Jan 1970 00:00:00 GMT" 52) ++ (Bytes.emptyLine ++
    Bytes.ofText "cannot hijack connection: [Errno 107] not connected\n")

/-- Two servers with different replies send the same report, and the one that echoes payloads has
none to echo. -/
theorem refused_visits_alike_peer_gone :
    let e : Connection.TakeoverError := .peerGone ⟨107, "not connected"⟩
    Refused { reply := [65] } peerless e ∧ Refused { reply := [66], echo := false } peerless e ∧
      (serve { reply := [65] } (Routes.canned [65]) 0 peerless).socket.sent = peerlessReport ∧
      (serve { reply := [66], echo := false } (Routes.canned [66]) 0 peerless).socket.sent =
        peerlessReport ∧
      (serve { reply := [65] } (Routes.canned [65]) 0 peerless).echo = "" := by
  intro e
  have h : Refused { reply := [65] } peerless e := .inr ⟨rfl, _, rfl, rfl⟩
  have h' : Refused { reply := [66], echo := false } peerless e := .inr ⟨rfl, _, rfl, rfl⟩
  have hread : reading peerless = .ok posted :=
    reading_of_delivers ⟨rfl, rfl, by decide⟩ rfl (by decide) rfl
  have hdate : HttpDate.ofUnix 0 = .ok "Thu, 01 Jan 1970 00:00:00 GMT" := by decide
  have htext : Text.Utf8.encode e.message ++ [10] =
      Bytes.ofText "cannot hijack connection: [Errno 107] not connected\n" := by
    decide +kernel
  have hlength : (Text.Utf8.encode e.message).length + 1 = 52 := by decide +kernel
  have hreport : (Response.internalError e.message).toBytes 0 = .ok peerlessReport := by
    rw [toBytes_internalError hdate, hlength, htext, peerlessReport]
  have hsent := serve_sends_of_refused h (speaks_of_posted hread) rfl rfl hreport
    (Routes.canned [65])
  have hnone : peerless.socket.sent = [] := rfl
  rw [hnone, List.nil_append] at hsent
  obtain ⟨halike, hecho, -⟩ := refused_visits_alike { reply := [65] }
    { reply := [66], echo := false } (Routes.canned [65]) (Routes.canned [66]) 0 peerless e h h'
  exact ⟨h, h', hsent, halike.socket ▸ hsent, hecho⟩

end CannedReply.Proofs.Service.Refusal
