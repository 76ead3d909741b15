import CannedReply.Proofs.Server.History
/-!
# What a start leaves behind

A server that has been stopped claims neither to run nor to listen.  A start comes to that only if
it is told to stop while it accepts.  However else it ends, it leaves its listening socket behind,
closed, and once that was open the server still claims to run.  Main statement:
`start_ends_at_rest_iff`.
-/

namespace CannedReply.Proofs.Server.Leftovers

open CannedReply.Server
open CannedReply.Proofs.Server.History
open CannedReply.Proofs.Server.Turns

/-- The server claims neither to run nor to hold a listening socket. -/
structure AtRest (server : Server) : Prop where
  running : server.running = false
  listening : server.listening = false

/-- A stop brings every server to rest. -/
theorem atRest_stop (server : Server) : AtRest server.stop.server := by
  unfold Server.stop
  rw [stop_eq]
  exact ⟨rfl, rfl⟩

/-! ## Accepting -/

def isStop (event : Event) : Bool := event matches .stop

/-- The first event that ends the accepting is the order to stop. -/
def endsInStop (events : List Event) : Bool := (events.find? endsAccepting).any isStop

section Accepting

variable {s : Session} {event : Event} {events : List Event}

theorem endsInStop_passed (h : endsAccepting event = false) :
    endsInStop (event :: events) = endsInStop events := by
  unfold endsInStop
  rw [List.find?_cons_of_neg (by simp [h])]

theorem endsInStop_ended (h : endsAccepting event = true) :
    endsInStop (event :: events) = isStop event := by
  unfold endsInStop
  rw [List.find?_cons_of_pos h]
  rfl

/-- What a session claims of its server: to run, and to hold a listening socket that `held` says it
held before, both unless it was `stopped`. -/
def Claims (s : Session) (held stopped : Bool) : Prop :=
  s.server.running = !stopped ∧ s.server.listening = (held && !stopped)

theorem claims_of_running (h : s.server.running = true) : Claims s s.server.listening false :=
  ⟨h, (Bool.and_true _).symm⟩

/-- A running server keeps to its claims, unless it is told to stop. -/
theorem accept_claims (now : Int) (events : List Event) (h : s.server.running = true) :
    Claims (s.accept now events) s.server.listening (endsInStop events) := by
  fun_induction Session.accept now events s with
  | case1 s => exact claims_of_running h
  | case2 s event rest hidle =>
    rw [h] at hidle
    contradiction
  | case3 s rest hrunning client ih =>
    rw [endsInStop_passed rfl]
    exact ih h
  | case4 s rest hrunning ih =>
    rw [endsInStop_passed rfl]
    exact ih h
  | case5 rest s hrunning ih =>
    -- The loop looks at `running` once more and ends, whatever comes behind the order.
    have hidle : s.stop.server.running = false := by rw [stop_eq]
    rw [accept_of_idle now rest hidle, endsInStop_ended rfl, stop_eq]
    exact ⟨rfl, (Bool.and_false _).symm⟩
  | case6 rest s hrunning =>
    rw [endsInStop_ended rfl]
    exact claims_of_running h
  | case7 rest s hrunning e hlate ih =>
    rw [endsInStop_passed (by simp [endsAccepting, hlate])]
    exact ih h
  | case8 rest s hrunning e hlost =>
    rw [endsInStop_ended (by simpa [endsAccepting] using hlost)]
    exact claims_of_running h

end Accepting

/-! ## Steps -/

/-- The start opens its listening socket and is then ended by the order to stop. -/
def IsStopped (listener : Listener) : Prop :=
  Opens listener ∧ endsInStop listener.events = true

instance (listener : Listener) : Decidable (IsStopped listener) :=
  inferInstanceAs (Decidable (_ ∧ _))

/-- Whether a server claims to run after a step, if it did so or not before it. -/
def runsAfter (running : Bool) : Step → Bool
  | .start listener => if Opens listener then !endsInStop listener.events else running
  | .stop => false

variable (now : Int) (listener : Listener) (server : Server)

theorem start_leaves :
    (server.start now listener).server.running = runsAfter server.running (.start listener) ∧
      (server.start now listener).server.listening = !decide (IsStopped listener) := by
  unfold runsAfter
  obtain ⟨hfails, e, calls, -, hstart⟩ | ⟨hopens, hstart⟩ := start_cases now listener server
  · have hnot : ¬ IsStopped listener := fun hstopped => hfails hstopped.1
    rw [hstart]
    dsimp only
    rw [if_neg hfails, decide_eq_false hnot]
    exact ⟨rfl, rfl⟩
  · have hstops : decide (IsStopped listener) = endsInStop listener.events := by
      simp [IsStopped, hopens]
    rw [hstart]
    dsimp only
    rw [if_pos hopens, hstops]
    exact accept_claims (s := openedSession listener server) now listener.events rfl

theorem running_serverAfter (steps : List Step) :
    (serverAfter now server steps).running = steps.foldl runsAfter server.running := by
  induction steps generalizing server with
  | nil => rfl
  | cons step steps ih =>
    have hstep : (server.perform now step).server.running = runsAfter server.running step := by
      cases step with
      | start listener => exact (start_leaves now listener server).1
      | stop => exact (atRest_stop server).running
    calc (serverAfter now server (step :: steps)).running
      _ = steps.foldl runsAfter (server.perform now step).server.running := ih _
      _ = (step :: steps).foldl runsAfter server.running := by rw [hstep, List.foldl_cons]

/-! ## Starts in a history -/

/-- Whatever was done with the server before, a start comes to rest just if it is ended by the order
to stop.  Otherwise the server keeps hold of the listening socket, which is closed by then, and
claims to run, unless that socket never opened: then it claims what it claimed before. -/
theorem start_ends_at_rest_iff (settings : Settings) (routes : Option Routes) (steps : List Step) :
    let s := (serverAfter now (Server.create settings routes) steps).start now listener
    (AtRest s.server ↔ IsStopped listener) ∧
      s.server.listening = !decide (IsStopped listener) ∧
      s.server.running = (steps ++ [Step.start listener]).foldl runsAfter false ∧
      s.calls.getLast? = some .close := by
  intro s
  obtain ⟨hrunning, hlistening⟩ :=
    start_leaves now listener (serverAfter now (Server.create settings routes) steps)
  refine ⟨⟨fun hrest => ?_, fun hstopped => ⟨?_, ?_⟩⟩, hlistening, ?_, ?_⟩
  · have hheld := hlistening.symm.trans hrest.listening
    simpa using hheld
  · refine hrunning.trans ?_
    rw [runsAfter, if_pos hstopped.1, hstopped.2]
    rfl
  · refine hlistening.trans ?_
    simp [hstopped]
  · rw [running_serverAfter] at hrunning
    rw [List.foldl_concat]
    exact hrunning
  · apply getLast?_calls_start

/-- A start that can accept no more leaves a server that claims to run and to hold a listening
socket, although that is closed.  A stop behind it brings the server to rest. -/
theorem broken_start_leaves_claims :
    let tooManyFiles : Event := .fault ⟨24, "Too many open files"⟩
    let s := (Server.create {} none).start 0 { events := [tooManyFiles] }
    s.failure = none ∧ s.calls.getLast? = some .close ∧ s.server.running = true ∧
      s.server.listening = true ∧ ¬ AtRest s.server ∧ AtRest s.server.stop.server := by
  refine ⟨rfl, rfl, rfl, rfl, fun hrest => ?_, atRest_stop _⟩
  exact Bool.noConfusion hrest.running

end CannedReply.Proofs.Server.Leftovers
