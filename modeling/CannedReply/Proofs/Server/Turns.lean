import CannedReply.Server
/-!
# What a server does in one step

A start binds and listens, serves the clients that come before it is ended, and closes its
listening socket.  Each loop and each step is inverted once: `accept_served` for the accepting,
`start_cases` for a start, and `perform_performed` for any step.
-/

namespace CannedReply.Proofs.Server.Turns

open CannedReply.Server

/-! ## Events -/

/-- Being told to stop, an interrupt, and a fault that is no timeout end the accepting. -/
def endsAccepting : Event → Bool
  | .stop | .interrupt => true
  | .fault e => !e.isTimeout
  | .client _ | .timeout => false

def client? : Event → Option Client
  | .client c => some c
  | _ => none

/-- The clients that come before the first event that ends the accepting. -/
def clientsOf (events : List Event) : List Client :=
  (events.takeWhile fun event => !endsAccepting event).filterMap client?

section Events

variable {event : Event} {events : List Event}

theorem clientsOf_client (client : Client) (events : List Event) :
    clientsOf (.client client :: events) = client :: clientsOf events :=
  rfl

theorem clientsOf_timeout (events : List Event) :
    clientsOf (.timeout :: events) = clientsOf events :=
  rfl

theorem clientsOf_late {e : SysError} (h : e.isTimeout = true) (events : List Event) :
    clientsOf (.fault e :: events) = clientsOf events := by
  unfold clientsOf
  rw [List.takeWhile_cons_of_pos (by simp [endsAccepting, h])]
  rfl

theorem clientsOf_ended (h : endsAccepting event = true) : clientsOf (event :: events) = [] := by
  unfold clientsOf
  rw [List.takeWhile_cons_of_neg (by simp [h])]
  rfl

end Events

/-! ## Accepting -/

/-- The names of the workers for `count` clients, after `before` others. -/
def workerNames (before count : Nat) : List String :=
  (List.range' (before + 1) count).map workerName

theorem workerNames_add (before first second : Nat) :
    workerNames before (first + second) =
      workerNames before first ++ workerNames (before + first) second := by
  unfold workerNames
  rw [← List.map_append, Nat.add_right_comm before first 1, List.range'_append_1]

/-- A session goes on from `s` to `s'` by serving `clients`, one after the other. -/
structure Served (now : Int) (clients : List Client) (s s' : Session) : Prop where
  settings : s'.server.settings = s.server.settings
  routes : s'.server.routes = s.server.routes
  port : s'.server.port = s.server.port
  accepted : s'.server.accepted = s.server.accepted + clients.length
  visits : s'.visits =
    s.visits ++ clients.map (Service.serve s.server.settings s.server.routes now)
  workers : s'.workers = s.workers ++ workerNames s.server.accepted clients.length
  calls : ∃ closes, s'.calls = s.calls ++ List.replicate closes .close

variable {now : Int} {s s' : Session} {clients : List Client}

theorem Served.refl (now : Int) (s : Session) : Served now [] s s where
  settings := rfl
  routes := rfl
  port := rfl
  accepted := rfl
  visits := (List.append_nil _).symm
  workers := (List.append_nil _).symm
  calls := ⟨0, (List.append_nil _).symm⟩

/-- Whoever is served first is served by the server as it stands, with the next free number. -/
theorem Served.cons {client : Client} (h : Served now clients (s.visit now client) s') :
    Served now (client :: clients) s s' where
  settings := h.settings
  routes := h.routes
  port := h.port
  accepted := by
    rw [h.accepted, List.length_cons]
    simp only [Session.visit]
    omega
  visits := by
    rw [h.visits, List.map_cons]
    simp [Session.visit]
  workers := by
    rw [h.workers, List.length_cons, Nat.add_comm, workerNames_add]
    simp [Session.visit, workerNames]
  calls := h.calls

/-- A stop closes the listening socket once if there is one, and changes nothing that has been
done. -/
theorem stop_eq (s : Session) : s.stop =
    { s with
      server := { s.server with running := false, listening := false }
      calls := s.calls ++ List.replicate s.server.listening.toNat .close } := by
  unfold Session.stop
  cases s.server.listening with
  | true => rfl
  | false =>
    rw [Bool.toNat_false, List.replicate_zero, List.append_nil]
    rfl

theorem served_stop (now : Int) (s : Session) : Served now [] s s.stop := by
  rw [stop_eq]
  exact { Served.refl now s with calls := ⟨_, rfl⟩ }

theorem accept_of_idle (now : Int) (events : List Event) (h : s.server.running = false) :
    s.accept now events = s := by
  cases events with
  | nil => rfl
  | cons event events =>
    unfold Session.accept
    rw [h]
    rfl

/-- A running server serves the clients that come before the first event that ends the
accepting. -/
theorem accept_served (events : List Event) (h : s.server.running = true) :
    Served now (clientsOf events) s (s.accept now events) := by
  fun_induction Session.accept now events s with
  | case1 s => exact .refl now s
  | case2 s event rest hidle =>
    rw [h] at hidle
    contradiction
  | case3 s rest hrunning client ih =>
    rw [clientsOf_client]
    exact .cons (ih h)
  | case4 s rest hrunning ih =>
    rw [clientsOf_timeout]
    exact ih h
  | case5 rest s hrunning ih =>
    have hidle : s.stop.server.running = false := by rw [stop_eq]
    rw [clientsOf_ended rfl, accept_of_idle now rest hidle]
    exact served_stop now s
  | case6 rest s hrunning =>
    rw [clientsOf_ended rfl]
    exact { Served.refl now s with }
  | case7 rest s hrunning e hlate ih =>
    rw [clientsOf_late hlate]
    exact ih h
  | case8 rest s hrunning e hlost =>
    rw [clientsOf_ended (by simpa [endsAccepting] using hlost)]
    exact .refl now s

/-- No event makes the accepting fail otherwise than by an interrupt. -/
theorem failure_accept (events : List Event) (h : s.failure = none) :
    (s.accept now events).failure = none ∨
      (s.accept now events).failure = some .interrupted := by
  fun_induction Session.accept now events s with
  | case3 s rest hrunning client ih => exact ih h
  | case4 s rest hrunning ih => exact ih h
  | case5 rest s hrunning ih =>
    apply ih
    rw [stop_eq]
    exact h
  | case6 rest s hrunning => exact .inr rfl
  | case7 rest s hrunning e hlate ih => exact ih h
  | _ => exact .inl h

/-! ## Starting -/

/-- Neither the bind nor the listen fails. -/
def Opens (listener : Listener) : Prop := listener.bindFault = none ∧ listener.listenFault = none

instance (listener : Listener) : Decidable (Opens listener) :=
  inferInstanceAs (Decidable (_ ∧ _))

/-- The port that a listening socket reports when it is bound to `port`. -/
def reportedPort (listener : Listener) (port : Int) : Int :=
  if port = 0 then listener.freePort else port

/-- The calls of a start before its listening socket is open, in a session of its own. -/
def opening (server : Server) (calls : List ListenerCall) : Session :=
  { server := { server with listening := true }
    calls := [.reuseAddress, .bind server.settings.host server.port] ++ calls }

/-- The session of a server that has opened its listening socket and serves nobody yet. -/
def openedSession (listener : Listener) (server : Server) : Session :=
  opened listener.freePort (opening server [.listen backlog, .setTimeout acceptTimeout])

/-- A start fails before it accepts anyone, or it opens its listening socket and accepts.  It closes
that socket in either case. -/
theorem start_cases (now : Int) (listener : Listener) (server : Server) :
    (¬ Opens listener ∧ ∃ e calls, (∀ c ∈ calls, c = .listen backlog) ∧
      server.start now listener = ((opening server calls).fail (.system e)).call .close) ∨
    Opens listener ∧ server.start now listener =
      ((openedSession listener server).accept now listener.events).call .close := by
  unfold Server.start Opens
  cases hbind : listener.bindFault with
  | some e => exact .inl ⟨by simp, e, [], by simp, rfl⟩
  | none =>
    cases hlisten : listener.listenFault with
    | some e => exact .inl ⟨by simp, e, [.listen backlog], by simp, rfl⟩
    | none => exact .inr ⟨by simp, rfl⟩

/-- A start that fails has served nobody, and any other serves the clients before the end of the
accepting. -/
theorem start_turn (now : Int) (listener : Listener) (server : Server) :
    (¬ Opens listener ∧ ∃ e calls, (∀ c ∈ calls, c = .listen backlog) ∧
      server.start now listener = ((opening server calls).fail (.system e)).call .close) ∨
    Opens listener ∧ ∃ s, Served now (clientsOf listener.events) (openedSession listener server) s ∧
      server.start now listener = s.call .close := by
  obtain hfails | ⟨hopens, hstart⟩ := start_cases now listener server
  · exact .inl hfails
  · exact .inr ⟨hopens, _, accept_served listener.events rfl, hstart⟩

/-- A start fails by the system just if its listening socket does not open. -/
theorem failure_start (now : Int) (listener : Listener) (server : Server) :
    (¬ Opens listener ∧ ∃ e, (server.start now listener).failure = some (.system e)) ∨
    Opens listener ∧ ((server.start now listener).failure = none ∨
      (server.start now listener).failure = some .interrupted) := by
  obtain ⟨hfails, e, calls, -, hstart⟩ | ⟨hopens, hstart⟩ := start_cases now listener server
  · rw [hstart]
    exact .inl ⟨hfails, e, rfl⟩
  · rw [hstart]
    exact .inr ⟨hopens, failure_accept listener.events rfl⟩

theorem getLast?_calls_start (now : Int) (listener : Listener) (server : Server) :
    (server.start now listener).calls.getLast? = some .close := by
  obtain ⟨-, e, calls, -, hstart⟩ | ⟨-, s, -, hstart⟩ := start_turn now listener server
  · rw [hstart]
    apply List.getLast?_concat
  · rw [hstart]
    apply List.getLast?_concat

/-- Where a session binds its listening socket to. -/
def binds (s : Session) : List ListenerCall := s.calls.filter fun c => c matches .bind ..

/-- A start binds once, to the host and the port that the server has then. -/
theorem binds_start (now : Int) (listener : Listener) (server : Server) :
    binds (server.start now listener) = [.bind server.settings.host server.port] := by
  unfold binds
  obtain ⟨-, e, calls, hcalls, hstart⟩ | ⟨-, s, hserved, hstart⟩ := start_turn now listener server
  · have hnone : (calls.filter fun c => c matches .bind ..) = [] := by
      rw [List.filter_eq_nil_iff]
      intro c hc
      simp [hcalls c hc]
    rw [hstart]
    simp [Session.call, Session.fail, opening, hnone]
  · obtain ⟨closes, hcloses⟩ := hserved.calls
    rw [hstart]
    simp [Session.call, hcloses, openedSession, opened, opening]

theorem port_start {listener : Listener} (h : Opens listener) (now : Int) (server : Server) :
    (server.start now listener).server.port = reportedPort listener server.port := by
  obtain ⟨hfails, -⟩ | ⟨-, s, hserved, hstart⟩ := start_turn now listener server
  · exact absurd h hfails
  · rw [hstart]
    exact hserved.port

/-! ## Steps -/

/-- The clients that a step serves. -/
def clientsServed : Step → List Client
  | .start listener => if Opens listener then clientsOf listener.events else []
  | .stop => []

/-- What a step leaves of the server, and what it has served. -/
structure Performed (now : Int) (server : Server) (step : Step) (s : Session) : Prop where
  settings : s.server.settings = server.settings
  routes : s.server.routes = server.routes
  port : server.port ≠ 0 → s.server.port = server.port
  accepted : s.server.accepted = server.accepted + (clientsServed step).length
  visits : s.visits =
    (clientsServed step).map (Service.serve server.settings server.routes now)
  workers : s.workers = workerNames server.accepted (clientsServed step).length

theorem performed_start (now : Int) (listener : Listener) (server : Server) :
    Performed now server (.start listener) (server.start now listener) := by
  obtain ⟨hfails, e, calls, -, hstart⟩ | ⟨hopens, s, hserved, hstart⟩ :=
    start_turn now listener server
  · have hnobody : clientsServed (.start listener) = [] := if_neg hfails
    rw [hstart]
    constructor <;> simp [hnobody, Session.call, Session.fail, opening, workerNames]
  · have hclients : clientsServed (.start listener) = clientsOf listener.events := if_pos hopens
    rw [hstart]
    constructor
    case settings => exact hserved.settings
    case routes => exact hserved.routes
    case port =>
      intro hport
      exact hserved.port.trans (if_neg hport)
    case accepted => rw [hclients]; exact hserved.accepted
    case visits => rw [hclients]; exact hserved.visits
    case workers => rw [hclients]; exact hserved.workers

theorem performed_stop (now : Int) (server : Server) :
    Performed now server .stop server.stop := by
  unfold Server.stop
  rw [stop_eq]
  constructor <;> simp [clientsServed, workerNames]

theorem perform_performed (now : Int) (server : Server) (step : Step) :
    Performed now server step (server.perform now step) := by
  cases step with
  | start listener => exact performed_start now listener server
  | stop => exact performed_stop now server

end CannedReply.Proofs.Server.Turns
