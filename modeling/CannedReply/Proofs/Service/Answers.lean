import CannedReply.Proofs.Reading.Delivery
import CannedReply.Proofs.Request.Head
import CannedReply.Proofs.Service.Accounting
/-!
# What a client is answered

A client whose socket works is answered with the payload of its route, or with the payload for
everything unknown, unless its target has no path.  Main statement: `serve_answers_unless_stray`.
-/

namespace CannedReply.Proofs.Service.Answers

open CannedReply.Service
open CannedReply.Proofs.Connection.Turns
open CannedReply.Proofs.Reading.Delivery
open CannedReply.Proofs.Reading.Receives
open CannedReply.Proofs.Request.Head
open CannedReply.Proofs.Service.Accounting
open CannedReply.Proofs.Service.Turns

/-- The request line of the client is in order, but its target has no path. -/
def Stray (client : Client) (e : Target.Error) : Prop :=
  ∃ message parts fieldLines, reading client = .ok message ∧
    HasRequestLine message parts fieldLines ∧ Target.path parts.target = .error e

theorem stray_iff {client : Client} {e : Target.Error} :
    Stray client e ↔ ∃ message, reading client = .ok message ∧
      Request.parse message = .error (.target e) := by
  constructor
  · rintro ⟨message, parts, fieldLines, hread, hline, hpath⟩
    exact ⟨message, hread, parse_eq_target_iff.2 ⟨parts, fieldLines, hline, hpath⟩⟩
  · rintro ⟨message, hread, hparse⟩
    obtain ⟨parts, fieldLines, hline, hpath⟩ := parse_eq_target_iff.1 hparse
    exact ⟨message, parts, fieldLines, hread, hline, hpath⟩

/-- A message is answered if its target is not stray. -/
theorem speaks_of_not_stray {client : Client} (hbytes : reading client ≠ .ok [])
    (hkept : ∀ e, reading client ≠ .error (.lost e)) (hstray : ∀ e, ¬ Stray client e) :
    Speaks client where
  bytes := hbytes
  kept := hkept
  straight := fun message e hread hparse => hstray e (stray_iff.2 ⟨message, hread, hparse⟩)

/-- The outcomes in the log of a visit. -/
def outcomes (visit : Visit) : List Outcome :=
  (visit.log.filterMap Log.Record.summary?).map Summary.outcome

/-- The visit ends in the answer to `request`, sent as a whole. -/
structure Answered (routes : Routes) (client : Client) (request : Option Request)
    (visit : Visit) : Prop where
  fault : visit.fault = none
  sent : visit.socket.sent = client.socket.sent ++ payloadFor routes request
  outcomes : outcomes visit =
    [if (routed? routes request).isSome then .reply else .unknown]

/-- The log of an answered visit holds an outcome. -/
theorem Answered.exists_record {routes : Routes} {client : Client} {request : Option Request}
    {visit : Visit} (h : Answered routes client request visit) :
    ∃ record summary, record ∈ visit.log ∧ record.summary? = some summary := by
  have hlogged : visit.log.filterMap Log.Record.summary? ≠ [] := by
    intro hnone
    have houtcomes := h.outcomes
    rw [Answers.outcomes, hnone] at houtcomes
    contradiction
  obtain ⟨summary, hmem⟩ := List.exists_mem_of_ne_nil _ hlogged
  obtain ⟨record, hrecord, hsummary⟩ := List.mem_filterMap.1 hmem
  exact ⟨record, summary, hrecord, hsummary⟩

/-- A client whose connection can be taken over and written to. -/
structure Reachable (settings : Settings) (client : Client) : Prop where
  takeover : settings.takeover = true
  peer : client.socket.peerFault = none
  send : client.socket.sendFault = none

variable {settings : Settings} {routes : Routes} {now : Int} {client : Client}
  {request : Option Request} {c : Connection} {log : List Log.Record}

/-- The connection of the client can be taken over, and `payload` can be written to it. -/
def Accepts (payload : Bytes) (client : Client) : Prop :=
  client.socket.checkPeer = .ok () ∧ ∃ socket, client.socket.sendRaw payload = .ok socket

variable {payload : Bytes}

theorem takeOver_of_peer (htakeover : settings.takeover = true)
    (hthere : client.socket.checkPeer = .ok ()) (hc : AfterReading settings client c) :
    c.takeOver = .ok { c with takenOver := true } := by
  have hpeer : c.socket.checkPeer = .ok () := (checkPeer_of_untouched hc.untouched).trans hthere
  obtain ⟨hno, -⟩ | ⟨-, ⟨e, hgone, -⟩ | ⟨-, hturn⟩⟩ := takeOver_turn hc.whole
  · rw [hc.offers, htakeover] at hno
    contradiction
  · rw [hpeer] at hgone
    contradiction
  · exact hturn

theorem sendRaw_of_accepts (h : Accepts payload client)
    (hc : Untouched (client.socket.setPatience patience) c.socket) :
    c.sendRaw payload = .ok (payload.length,
      { c with socket := { c.socket with sent := c.socket.sent ++ payload } }) := by
  obtain ⟨hne, e, hfailed, -⟩ | ⟨-, hturn⟩ := sendRaw_turn payload c
  · obtain ⟨socket, hsend⟩ := h.2
    have hfailed' : client.socket.send payload = .error e :=
      (send_eq_error_iff (s := client.socket) hc.closed hc.sendFault).1 hfailed
    unfold Socket.sendRaw at hsend
    rw [if_neg (by simpa using hne), hfailed'] at hsend
    contradiction
  · exact hturn

/-- Whoever accepts the payload of a request is sent it. -/
theorem answer_answered (htakeover : settings.takeover = true)
    (h : Accepts (payloadFor routes request) client)
    (hc : AfterReading settings client c) (hlog : log.filterMap Log.Record.summary? = []) :
    Answered routes client request (answer settings routes now client request c log) := by
  have hsent : c.socket.sent = client.socket.sent := hc.untouched.sent
  have hsend := sendRaw_of_accepts (c := { c with takenOver := true }) h hc.untouched
  unfold answer
  rw [select_eq, takeOver_of_peer htakeover h.1 hc]
  unfold deliver
  dsimp only
  rw [hsend]
  refine ⟨rfl, ?_, ?_⟩
  · rw [close_sent, closeSocket_sent, hsent]
  · unfold outcomes
    rw [List.filterMap_append, List.filterMap_append, hlog, summary?_received]
    rfl

theorem accepts_of_reachable (hclient : Reachable settings client)
    (hopen : client.socket.closed = false) (payload : Bytes) : Accepts payload client := by
  unfold Accepts Socket.checkPeer Socket.sendRaw Socket.send
  rw [hopen, hclient.peer, hclient.send]
  refine ⟨rfl, ?_⟩
  split
  · exact ⟨_, rfl⟩
  · exact ⟨_, rfl⟩

theorem open_of_kept (hkept : ∀ e, reading client ≠ .error (.lost e)) :
    client.socket.closed = false := by
  cases hclosed : client.socket.closed with
  | false => rfl
  | true =>
    have hsame : (client.socket.setPatience patience).closed = true := hclosed
    exact absurd (readMessage_of_closed hsame) (hkept _)

theorem serve_answered_of_accepts (now : Int) (htakeover : settings.takeover = true)
    (haccepts : Accepts (payloadFor routes (request? client)) client) (hspeaks : Speaks client) :
    Answered routes client (request? client) (serve settings routes now client) := by
  obtain ⟨c, log, hc, hlog, hserve⟩ := serve_of_speaks hspeaks settings routes now
  rw [hserve]
  exact answer_answered htakeover haccepts hc hlog

theorem serve_answered (routes : Routes) (now : Int) (hclient : Reachable settings client)
    (hspeaks : Speaks client) :
    Answered routes client (request? client) (serve settings routes now client) :=
  serve_answered_of_accepts now hclient.takeover
    (accepts_of_reachable hclient (open_of_kept hspeaks.kept) _) hspeaks

private theorem ok_of_toOption {ε α : Type} {x : Except ε α} {a : α} (h : x.toOption = some a) :
    x = .ok a := by
  cases x with
  | error e => contradiction
  | ok b => rw [Option.some.inj h]

/-- Only a message that is read and parsed has a request. -/
theorem exists_message {r : Request} (h : request? client = some r) :
    ∃ message, reading client = .ok message ∧ Request.parse message = .ok r := by
  obtain ⟨message, hread, hparse⟩ := Option.bind_eq_some_iff.1 h
  exact ⟨message, ok_of_toOption hread, ok_of_toOption hparse⟩

/-- A request is answered if its client accepts the payload for it. -/
theorem serve_answered_of_request (now : Int) (htakeover : settings.takeover = true) {r : Request}
    (hrequest : request? client = some r)
    (haccepts : Accepts (payloadFor routes (some r)) client) :
    Answered routes client (some r) (serve settings routes now client) := by
  obtain ⟨message, hread, hparse⟩ := exists_message hrequest
  have hne : message ≠ [] := by
    rintro rfl
    contradiction
  rw [← hrequest] at haccepts ⊢
  apply serve_answered_of_accepts now htakeover haccepts
  apply speaks_of_message hread hne
  simp [hparse]

/-- A target without a path ends the visit with nothing sent. -/
theorem serve_of_stray (settings : Settings) (routes : Routes) (now : Int) {e : Target.Error}
    (h : Stray client e) :
    (serve settings routes now client).fault = some (.target e) ∧
      (serve settings routes now client).socket.sent = client.socket.sent := by
  obtain ⟨message, hread, hparse⟩ := stray_iff.1 h
  have hturn := serve_turn settings routes now client
  generalize serve settings routes now client = visit at hturn
  cases hturn with
  | silent _ hread' =>
    obtain rfl := Except.ok.inj (hread.symm.trans hread')
    obtain ⟨parts, fieldLines, hline, -⟩ := parse_eq_target_iff.1 hparse
    exact absurd rfl hline.ne_nil
  | lost _ hread' =>
    rw [hread] at hread'
    contradiction
  | stray hc hread' hparse' =>
    obtain rfl := Except.ok.inj (hread.symm.trans hread')
    rw [hparse] at hparse'
    cases hparse'
    exact ⟨rfl, (close_sent _).trans hc.untouched.sent⟩
  | answered _ _ _ hstray _ => exact absurd hparse (hstray message e hread)

/-! ## Clients that send one piece -/

/-- A message that arrives in one piece is read, whatever becomes of its answer. -/
theorem reading_of_delivers {bytes : Bytes}
    (h : Delivers [bytes] (client.socket.setPatience patience))
    (hpending : client.socket.pending = []) (hshort : bytes.length ≤ Reading.receiveLimit)
    (hmessage : Framing.message? bytes = .ok (some bytes)) : reading client = .ok bytes := by
  have hne : bytes ≠ [] := h.nonempty bytes (by simp)
  obtain ⟨s', hreceive, -⟩ := receive_whole h hpending hshort
  unfold reading Reading.readMessage
  rw [readFrom_of_piece message?_nil hreceive hne, List.nil_append, readFrom_eq, hmessage]

/-- A client of which `bytes` arrive in one piece. -/
def clientOf (bytes : Bytes) : Client := { socket := { arrivals := [.data bytes] } }

theorem clientOf_reachable (htakeover : settings.takeover = true) (bytes : Bytes) :
    Reachable settings (clientOf bytes) :=
  ⟨htakeover, rfl, rfl⟩

theorem clientOf_faultless (bytes : Bytes) :
    Faultless ((clientOf bytes).socket.setPatience patience) := by
  refine faultless_of_script rfl fun e hmem => ?_
  simp [clientOf, Socket.setPatience] at hmem

variable {bytes : Bytes}

theorem receive_clientOf (hne : bytes ≠ []) (hshort : bytes.length ≤ Reading.receiveLimit) :
    ∃ s', ((clientOf bytes).socket.setPatience patience).receive Reading.receiveLimit =
      (.ok bytes, s') := by
  have hdelivers : Delivers [bytes] ((clientOf bytes).socket.setPatience patience) :=
    ⟨rfl, rfl, by simpa using hne⟩
  obtain ⟨s', hreceive, -⟩ := receive_whole hdelivers rfl hshort
  exact ⟨s', hreceive⟩

theorem clientOf_speaks (hne : bytes ≠ []) (hshort : bytes.length ≤ Reading.receiveLimit) :
    ¬ EndsAtOnce ((clientOf bytes).socket.setPatience patience) := by
  rintro ⟨s', hend⟩
  obtain ⟨s'', hreceive⟩ := receive_clientOf hne hshort
  rw [hreceive] at hend
  exact hne (Except.ok.inj (congrArg Prod.fst hend))

theorem reading_clientOf (hne : bytes ≠ []) (hshort : bytes.length ≤ Reading.receiveLimit)
    (h : Framing.message? bytes = .ok (some bytes)) :
    reading (clientOf bytes) = .ok bytes :=
  reading_of_delivers ⟨rfl, rfl, by simpa using hne⟩ rfl hshort h

theorem serve_clientOf (settings : Settings) (routes : Routes) (now : Int)
    (htakeover : settings.takeover = true)
    {r : Request} (hrequest : request? (clientOf bytes) = some r) :
    Answered routes (clientOf bytes) (some r) (serve settings routes now (clientOf bytes)) := by
  apply serve_answered_of_request now htakeover hrequest
  exact accepts_of_reachable (clientOf_reachable htakeover bytes) rfl _

/-! ## A client that posts -/

/-- A request for the canned reply. -/
def posted : Bytes := Bytes.ofText "POST /v1/chat/completions HTTP/1.1\r\n\r\n"

def poster : Client := clientOf posted

theorem reading_poster : reading poster = .ok posted :=
  reading_clientOf (by decide) (by decide) rfl

/-- A client from which this request is read is answered. -/
theorem speaks_of_posted (hread : reading client = .ok posted) : Speaks client := by
  have hparse (e : Target.Error) : Request.parse posted ≠ .error (.target e) := by
    intro he
    contradiction
  exact speaks_of_message hread (by decide) hparse

/-! ## The answer -/

/-- A client that does not end its stream at once and is not cut off is answered exactly when its
target is not stray: it is sent the payload of its route, or the payload for everything unknown if
its message is unreadable, is no request or has no route.  A stray target leaves it without an
answer. -/
theorem serve_answers_unless_stray (settings : Settings) (routes : Routes) (now : Int)
    (client : Client) (hclient : Reachable settings client)
    (hspeaks : ¬ EndsAtOnce (client.socket.setPatience patience))
    (hfault : Faultless (client.socket.setPatience patience)) :
    ((∀ e, ¬ Stray client e) ↔
      (serve settings routes now client).fault = none ∧
        (serve settings routes now client).socket.sent =
          client.socket.sent ++ payloadFor routes (request? client)) ∧
      ∀ e, Stray client e → (serve settings routes now client).fault = some (.target e) ∧
        (serve settings routes now client).socket.sent = client.socket.sent := by
  refine ⟨⟨fun hstray => ?_, fun hanswer e hstray => ?_⟩, fun e hstray =>
    serve_of_stray settings routes now hstray⟩
  · have hanswered := serve_answered routes now hclient (speaks_of_not_stray
      (fun hempty => hspeaks (readMessage_eq_nil_iff.1 hempty)) (readMessage_ne_lost hfault) hstray)
    exact ⟨hanswered.fault, hanswered.sent⟩
  · have hfaulty := (serve_of_stray settings routes now hstray).1
    rw [hanswer.1] at hfaulty
    contradiction

theorem serve_answers_post :
    (serve {} (Routes.canned [65]) 0
      (clientOf (Bytes.ofText "POST /v1/chat/completions HTTP/1.1\r\n\r\n"))).socket.sent =
      [65] := by
  have hanswers := (serve_answers_unless_stray {} (Routes.canned [65]) 0 poster
    (clientOf_reachable rfl posted) (clientOf_speaks (by decide) (by decide))
    (clientOf_faultless posted)).1.1
  have hpayload : payloadFor (Routes.canned [65]) (request? poster) = [65] := by
    rw [request?_of_reading reading_poster]
    rfl
  refine (hanswers fun e hstray => ?_).2.trans hpayload
  obtain ⟨message, hread, hparse⟩ := stray_iff.1 hstray
  exact (speaks_of_posted reading_poster).straight message e hread hparse

/-- A client whose target opens a bracket in its authority and does not close it. -/
def openBracket : Client := clientOf (Bytes.ofText "POST http://[::1 HTTP/1.1\r\n\r\n")

theorem open_bracket_is_not_answered :
    Reachable {} openBracket ∧ ¬ EndsAtOnce (openBracket.socket.setPatience patience) ∧
      Faultless (openBracket.socket.setPatience patience) ∧
      (serve {} (Routes.canned []) 0 openBracket).fault = some (.target .misplacedBracket) ∧
      (serve {} (Routes.canned []) 0 openBracket).socket.sent = [] := by
  have hstray : Stray openBracket .misplacedBracket :=
    stray_iff.2 ⟨_, reading_clientOf (by decide) (by decide) rfl, rfl⟩
  exact ⟨clientOf_reachable rfl _, clientOf_speaks (by decide) (by decide),
    clientOf_faultless _, serve_of_stray {} (Routes.canned []) 0 hstray⟩

end CannedReply.Proofs.Service.Answers
