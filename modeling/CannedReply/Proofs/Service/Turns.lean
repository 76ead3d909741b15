import CannedReply.Proofs.Connection.Turns
import CannedReply.Service
/-!
# The ways in which a visit ends

A visit reads a message and parses it, and only then answers, so there are three ends before an
answer.  Main statement: `serve_turn`, which leads every visit to one of the four.
-/

namespace CannedReply.Proofs.Service.Turns

open CannedReply.Service
open CannedReply.Proofs.Reading.Receives

/-- What the reading of a client's message comes to. -/
def reading (client : Client) : Except Reading.Error Bytes :=
  (Reading.readMessage (client.socket.setPatience patience)).1

/-- The request of a client, if it sends a message that is one. -/
def request? (client : Client) : Option Request :=
  (reading client).toOption.bind fun message => (Request.parse message).toOption

theorem request?_of_reading {client : Client} {message : Bytes}
    (h : reading client = .ok message) :
    request? client = (Request.parse message).toOption := by
  unfold request?
  rw [h]
  rfl

/-- The connection of a client after its message has been read. -/
structure AfterReading (settings : Settings) (client : Client) (c : Connection) : Prop where
  whole : c.takenOver = false
  offers : c.offersTakeover = settings.takeover
  untouched : Untouched (client.socket.setPatience patience) c.socket

/-- A visit by the way in which it ends. -/
inductive Ends (settings : Settings) (routes : Routes) (now : Int) (client : Client) :
    Visit → Prop where
  | silent {c : Connection} : AfterReading settings client c → reading client = .ok [] →
      Ends settings routes now client { socket := c.close.socket }
  | lost {c : Connection} {e : SysError} : AfterReading settings client c →
      reading client = .error (.lost e) →
      Ends settings routes now client
        { socket := c.close.socket, log := [.dropped client.host e] }
  | stray {c : Connection} {message : Bytes} {e : Target.Error} :
      AfterReading settings client c → reading client = .ok message →
      Request.parse message = .error (.target e) →
      Ends settings routes now client { socket := c.close.socket, fault := some (.target e) }
  | answered {c : Connection} {log : List Log.Record} : AfterReading settings client c →
      reading client ≠ .ok [] → (∀ e, reading client ≠ .error (.lost e)) →
      (∀ message e, reading client = .ok message → Request.parse message ≠ .error (.target e)) →
      log.filterMap Log.Record.summary? = [] →
      Ends settings routes now client
        (answer settings routes now client (request? client) c log)

/-- Every visit ends in one of these ways. -/
theorem serve_turn (settings : Settings) (routes : Routes) (now : Int) (client : Client) :
    Ends settings routes now client (serve settings routes now client) := by
  have huntouched : Untouched (client.socket.setPatience patience)
      (Reading.readMessage (client.socket.setPatience patience)).2 :=
    readFrom_untouched [] (client.socket.setPatience patience)
  have hreading : reading client =
      (Reading.readMessage (client.socket.setPatience patience)).1 := rfl
  unfold serve
  generalize Reading.readMessage (client.socket.setPatience patience) = turn at *
  obtain ⟨result, socket⟩ := turn
  dsimp only at hreading
  have hc : AfterReading settings client { socket, offersTakeover := settings.takeover } :=
    ⟨rfl, rfl, huntouched⟩
  have hunread {e : Reading.Error} (he : reading client = .error e)
      (hkept : ∀ fault, e ≠ .lost fault) :
      Ends settings routes now client (answer settings routes now client none
        { socket, offersTakeover := settings.takeover } [.unreadable client.host e]) := by
    have hrequest : request? client = none := by
      unfold request?
      rw [he]
      rfl
    rw [← hrequest]
    refine .answered hc ?_ ?_ ?_ rfl
    · simp [he]
    · simpa [he] using hkept
    · simp [he]
  match result with
  | .ok [] => exact .silent hc hreading
  | .ok (b :: bs) =>
    have hread {request : Option Request} {log : List Log.Record}
        (hrequest : (Request.parse (b :: bs)).toOption = request)
        (hstray : ∀ e, Request.parse (b :: bs) ≠ .error (.target e))
        (hlog : log.filterMap Log.Record.summary? = []) :
        Ends settings routes now client (answer settings routes now client request
          { socket, offersTakeover := settings.takeover } log) := by
      rw [← hrequest, ← request?_of_reading hreading]
      refine .answered hc ?_ ?_ (fun message e hmessage => ?_) hlog
      · simp [hreading]
      · simp [hreading]
      · obtain rfl := Except.ok.inj (hreading.symm.trans hmessage)
        exact hstray e
    dsimp only
    match hparse : Request.parse (b :: bs) with
    | .error (.target e) => exact .stray hc hreading hparse
    | .error (.head e) => exact hread (by rw [hparse]; rfl) (by simp [hparse]) rfl
    | .ok request => exact hread (by rw [hparse]; rfl) (by simp [hparse]) rfl
  | .error (.lost e) => exact .lost hc hreading
  | .error .timedOut => exact hunread hreading (by simp)
  | .error .endedEarly => exact hunread hreading (by simp)
  | .error (.framing e) => exact hunread hreading (by simp)

/-- The client sends a message that is to be answered. -/
structure Speaks (client : Client) : Prop where
  bytes : reading client ≠ .ok []
  kept : ∀ e, reading client ≠ .error (.lost e)
  straight : ∀ message e, reading client = .ok message →
    Request.parse message ≠ .error (.target e)

theorem speaks_of_message {client : Client} {message : Bytes} (hread : reading client = .ok message)
    (hne : message ≠ []) (hparse : ∀ e, Request.parse message ≠ .error (.target e)) :
    Speaks client where
  bytes := by
    rw [hread]
    exact fun hempty => hne (Except.ok.inj hempty)
  kept := by
    simp [hread]
  straight := by
    intro message' e hread'
    obtain rfl := Except.ok.inj (hread.symm.trans hread')
    exact hparse e

/-- Whoever sends such a message is answered. -/
theorem serve_of_speaks {client : Client} (h : Speaks client) (settings : Settings)
    (routes : Routes) (now : Int) : ∃ c log, AfterReading settings client c ∧
      log.filterMap Log.Record.summary? = [] ∧
      serve settings routes now client =
        answer settings routes now client (request? client) c log := by
  have hturn := serve_turn settings routes now client
  generalize serve settings routes now client = visit at hturn
  cases hturn with
  | silent _ hread => exact absurd hread h.bytes
  | lost _ hread => exact absurd hread (h.kept _)
  | stray _ hread hparse => exact absurd hparse (h.straight _ _ hread)
  | answered hc _ _ _ hlog => exact ⟨_, _, hc, hlog, rfl⟩

/-- Two visits of one client part only where it is answered, so what relates every two answers
relates the visits. -/
theorem serve_congr {settings settings' : Settings} {routes routes' : Routes} {now : Int}
    {client : Client} {R : Visit → Visit → Prop} (hrefl : ∀ visit, R visit visit)
    (htakeover : settings.takeover = settings'.takeover)
    (hanswer : ∀ {c : Connection}, AfterReading settings client c → ∀ request log,
      R (answer settings routes now client request c log)
        (answer settings' routes' now client request c log)) :
    R (serve settings routes now client) (serve settings' routes' now client) := by
  have huntouched : Untouched (client.socket.setPatience patience)
      (Reading.readMessage (client.socket.setPatience patience)).2 :=
    readFrom_untouched [] (client.socket.setPatience patience)
  unfold serve
  generalize Reading.readMessage (client.socket.setPatience patience) = turn at *
  obtain ⟨result, socket⟩ := turn
  have hanswer' := hanswer (c := { socket, offersTakeover := settings.takeover })
    ⟨rfl, rfl, huntouched⟩
  dsimp only
  rw [← htakeover]
  match result with
  | .ok [] => exact hrefl _
  | .ok (b :: bs) =>
    dsimp only
    match Request.parse (b :: bs) with
    | .ok request => exact hanswer' (some request) []
    | .error (.head cause) => exact hanswer' none [.malformed client.host cause]
    | .error (.target cause) => exact hrefl _
  | .error (.lost cause) => exact hrefl _
  | .error .timedOut => exact hanswer' none [.unreadable client.host .timedOut]
  | .error .endedEarly => exact hanswer' none [.unreadable client.host .endedEarly]
  | .error (.framing cause) => exact hanswer' none [.unreadable client.host (.framing cause)]

end CannedReply.Proofs.Service.Turns
