import CannedReply.Proofs.Service.Answers
import CannedReply.Proofs.Service.Refusal
/-!
# Log format and echo

Two settings only say how the server reports on itself.  Whatever they are, a client is served
alike; and the echo shows the payload of every visit that took its socket over, also of one whose
payload could not be sent.  Main statement: `format_and_echo_change_no_service`.
-/

namespace CannedReply.Proofs.Service.Presentation

open CannedReply.Service
open CannedReply.Proofs.Service.Accounting
open CannedReply.Proofs.Service.Answers
open CannedReply.Proofs.Service.Refusal
open CannedReply.Proofs.Service.Turns

/-- Two visits that a client cannot tell apart: the same socket is left, with all that was received
and sent on it, and the same error escapes. -/
structure ServedAlike (visit visit' : Visit) : Prop where
  socket : visit.socket = visit'.socket
  fault : visit.fault = visit'.fault

/-- The message of the client is answered, and its socket can be taken over. -/
structure TakesOver (settings : Settings) (client : Client) : Prop where
  speaks : reading client ≠ .ok []
  kept : ∀ e, reading client ≠ .error (.lost e)
  straight : ∀ e, ¬ Stray client e
  offered : settings.takeover = true
  peer : client.socket.checkPeer = .ok ()

variable {settings : Settings} {routes : Routes} {now : Int} {client : Client}
  {request : Option Request} {c : Connection} {log : List Log.Record}

/-! ## Service -/

theorem deliver_servedAlike (settings settings' : Settings) (client : Client)
    (request : Option Request) (payload : Bytes) (outcome : Outcome) (c : Connection)
    (log : List Log.Record) :
    ServedAlike (deliver settings client request payload outcome c log)
      (deliver settings' client request payload outcome c log) := by
  unfold deliver
  cases c.sendRaw payload with
  | ok sent => exact ⟨rfl, rfl⟩
  | error e => exact ⟨rfl, rfl⟩

theorem answer_servedAlike (settings settings' : Settings) (routes : Routes) (now : Int)
    (client : Client) (request : Option Request) (c : Connection) (log : List Log.Record) :
    ServedAlike (answer settings routes now client request c log)
      (answer settings' routes now client request c log) := by
  unfold answer
  dsimp only
  cases c.takeOver with
  | ok taken => apply deliver_servedAlike
  | error e =>
    have halike := refuse_alike settings settings' now client request e c (log ++ received request)
    exact ⟨halike.socket, halike.fault⟩

theorem serve_servedAlike {settings settings' : Settings}
    (htakeover : settings.takeover = settings'.takeover) (routes : Routes) (now : Int)
    (client : Client) :
    ServedAlike (serve settings routes now client) (serve settings' routes now client) := by
  apply serve_congr (fun visit => ⟨rfl, rfl⟩) htakeover
  intro c _ request log
  apply answer_servedAlike

/-! ## Echo -/

theorem deliver_echo (settings : Settings) (client : Client) (request : Option Request)
    (payload : Bytes) (outcome : Outcome) (c : Connection) (log : List Log.Record) :
    (deliver settings client request payload outcome c log).echo =
      if settings.echo then Text.Utf8.decode payload ++ "\n" else "" := by
  unfold deliver
  dsimp only
  cases c.sendRaw payload with
  | ok sent => rfl
  | error e => rfl

theorem refused_or_peer (settings : Settings) (client : Client) :
    (∃ e, Refused settings client e) ∨
      settings.takeover = true ∧ client.socket.checkPeer = .ok () := by
  cases htakeover : settings.takeover with
  | false => exact .inl ⟨_, .inl ⟨htakeover, rfl⟩⟩
  | true =>
    cases hpeer : client.socket.checkPeer with
    | error e => exact .inl ⟨_, .inr ⟨htakeover, e, hpeer, rfl⟩⟩
    | ok there => exact .inr ⟨rfl, rfl⟩

/-- The echo comes before the payload is sent, so it does not depend on whether that works. -/
theorem answer_echo (htakeover : settings.takeover = true)
    (hpeer : client.socket.checkPeer = .ok ()) (hc : AfterReading settings client c)
    (routes : Routes) (now : Int) (request : Option Request) (log : List Log.Record) :
    (answer settings routes now client request c log).echo =
      if settings.echo then Text.Utf8.decode (payloadFor routes request) ++ "\n"
      else "" := by
  unfold answer
  rw [select_eq, takeOver_of_peer htakeover hpeer hc]
  apply deliver_echo

/-- Where a message is answered, only the takeover is left to decide. -/
theorem takesOver_of_peer (hspeaks : Speaks client) (htakeover : settings.takeover = true)
    (hpeer : client.socket.checkPeer = .ok ()) : TakesOver settings client := by
  refine ⟨hspeaks.bytes, hspeaks.kept, fun e hstray => ?_, htakeover, hpeer⟩
  obtain ⟨message, hread, hparse⟩ := stray_iff.1 hstray
  exact hspeaks.straight message e hread hparse

theorem serve_echo (h : TakesOver settings client) (routes : Routes) (now : Int) :
    (serve settings routes now client).echo =
      if settings.echo then Text.Utf8.decode (payloadFor routes (request? client)) ++ "\n"
      else "" := by
  obtain ⟨c, log, hc, -, hserve⟩ :=
    serve_of_speaks (speaks_of_not_stray h.speaks h.kept h.straight) settings routes now
  rw [hserve]
  exact answer_echo h.offered h.peer hc routes now _ _

theorem serve_echo_of_not_takesOver (h : ¬ TakesOver settings client) (routes : Routes)
    (now : Int) : (serve settings routes now client).echo = "" := by
  have hturn := serve_turn settings routes now client
  generalize serve settings routes now client = visit at hturn
  cases hturn with
  | silent _ _ => rfl
  | lost _ _ => rfl
  | stray _ _ _ => rfl
  | answered hc hspeaks hkept hstraight _ =>
    obtain ⟨e, hrefused⟩ | ⟨htakeover, hpeer⟩ := refused_or_peer settings client
    · rw [answer_of_refused hrefused hc]
      apply refuse_echo
    · exact absurd (takesOver_of_peer ⟨hspeaks, hkept, hstraight⟩ htakeover hpeer) h

/-! ## Both settings -/

/-- Whatever the log format and the echo are changed to, a client is served alike.  Without echo
the output stays empty; with it, it is the text of the selected payload and a line end if the
socket is taken over, also if the payload cannot be sent then, and empty if it is not. -/
theorem format_and_echo_change_no_service (settings : Settings) (routes : Routes) (now : Int)
    (client : Client) (logFormat : String) (echo : Bool) :
    ServedAlike (serve settings routes now client)
        (serve { settings with logFormat, echo } routes now client) ∧
      (settings.echo = false → (serve settings routes now client).echo = "") ∧
      (settings.echo = true → TakesOver settings client →
        (serve settings routes now client).echo =
          Text.Utf8.decode (payloadFor routes (request? client)) ++ "\n") ∧
      (settings.echo = true → ¬ TakesOver settings client →
        (serve settings routes now client).echo = "") := by
  refine ⟨?_, fun hquiet => ?_, fun hecho htakes => ?_, fun _ hnot => ?_⟩
  · apply serve_servedAlike
    rfl
  · by_cases htakes : TakesOver settings client
    · rw [serve_echo htakes, hquiet]
      rfl
    · exact serve_echo_of_not_takesOver htakes routes now
  · rw [serve_echo htakes, hecho]
    rfl
  · exact serve_echo_of_not_takesOver hnot routes now

/-- A client that asks for the canned reply and cannot be written to. -/
def unwritable : Client :=
  { poster with socket := { poster.socket with sendFault := some ⟨32, "Broken pipe"⟩ } }

/-- The reply is sent under both settings and echoed under one of them, which it also is for a
client to which it cannot be sent. -/
theorem format_and_echo_change_no_service_written_or_not :
    let loud : Settings := {}
    let quiet : Settings := { logFormat := "json", echo := false }
    let routes := Routes.canned [65]
    (TakesOver loud poster ∧ (serve loud routes 0 poster).socket.sent = [65] ∧
      (serve quiet routes 0 poster).socket.sent = [65] ∧
      (serve loud routes 0 poster).echo = "A\n" ∧ (serve quiet routes 0 poster).echo = "") ∧
    TakesOver loud unwritable ∧ (serve loud routes 0 unwritable).echo = "A\n" ∧
      (serve quiet routes 0 unwritable).echo = "" := by
  intro loud quiet routes
  have hread : reading unwritable = .ok posted :=
    reading_of_delivers ⟨rfl, rfl, by decide⟩ rfl (by decide) rfl
  have htakes : TakesOver loud poster := takesOver_of_peer (speaks_of_posted reading_poster) rfl rfl
  have htakes' : TakesOver loud unwritable := takesOver_of_peer (speaks_of_posted hread) rfl rfl
  have hpayload {client : Client} (h : reading client = .ok posted) :
      payloadFor routes (request? client) = [65] := by
    rw [request?_of_reading h]
    rfl
  have hdecoded : Text.Utf8.decode [65] ++ "\n" = "A\n" := by decide +kernel
  obtain ⟨hsame, -, hechoes, -⟩ :=
    format_and_echo_change_no_service loud routes 0 poster "json" false
  obtain ⟨-, -, hechoes', -⟩ :=
    format_and_echo_change_no_service loud routes 0 unwritable "json" false
  have hquiet (client : Client) : (serve quiet routes 0 client).echo = "" :=
    (format_and_echo_change_no_service quiet routes 0 client "plain" true).2.1 rfl
  have hsent : (serve loud routes 0 poster).socket.sent = [65] := by
    have hreachable : Reachable loud poster := clientOf_reachable rfl posted
    have hanswered := serve_answered routes 0 hreachable (speaks_of_posted reading_poster)
    exact hanswered.sent.trans (hpayload reading_poster)
  refine ⟨⟨htakes, hsent, ?_, ?_, hquiet poster⟩, htakes', ?_, hquiet unwritable⟩
  · rw [← hsent]
    exact congrArg Socket.sent hsame.socket.symm
  · rw [hechoes rfl htakes, hpayload reading_poster, hdecoded]
  · rw [hechoes' rfl htakes', hpayload hread, hdecoded]

end CannedReply.Proofs.Service.Presentation
