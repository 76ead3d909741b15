import CannedReply.Proofs.Server.Turns
import Mathlib.Data.List.Nodup
/-!
# The history of a server

However often a server is started and stopped, every start serves its own clients and closes its
listening socket, and the port and the count of clients go on from one start to the next.  Main
statement: `history_accounted`.
-/

namespace CannedReply.Proofs.Server.History

open CannedReply.Server
open CannedReply.Proofs.Server.Turns

/-! ## Steps in a history -/

/-- The server that a history leaves behind. -/
def serverAfter (now : Int) (server : Server) (steps : List Step) : Server :=
  steps.foldl (fun server step => (server.perform now step).server) server

section Steps

variable (now : Int) (server : Server) (steps : List Step)

theorem length_history : (server.history now steps).length = steps.length := by
  induction steps generalizing server with
  | nil => rfl
  | cons step steps ih =>
    simp only [history, List.length_cons]
    rw [ih]

/-- Every step is performed by the server that the steps before it leave behind. -/
theorem getElem?_history (i : Nat) : (server.history now steps)[i]? =
    steps[i]?.map ((serverAfter now server (steps.take i)).perform now) := by
  induction steps generalizing server i with
  | nil => rfl
  | cons step steps ih =>
    cases i with
    | zero => rfl
    | succ i =>
      simp only [history, List.getElem?_cons_succ, List.take_succ_cons]
      rw [ih]
      rfl

theorem take_history (n : Nat) :
    (server.history now steps).take n = server.history now (steps.take n) := by
  induction steps generalizing server n with
  | nil => simp [history]
  | cons step steps ih =>
    cases n with
    | zero => rfl
    | succ n =>
      simp only [history, List.take_succ_cons]
      rw [ih]

theorem serverAfter_append (more : List Step) : serverAfter now server (steps ++ more) =
    serverAfter now (serverAfter now server steps) more :=
  List.foldl_append

variable {now server} in
/-- What every step keeps, a history keeps. -/
theorem serverAfter_keeps {P : Server → Prop}
    (hstep : ∀ server step, P server → P (server.perform now step).server) (h : P server) :
    P (serverAfter now server steps) := by
  induction steps generalizing server with
  | nil => exact h
  | cons step steps ih => exact ih (hstep server step h)

theorem settings_serverAfter : (serverAfter now server steps).settings = server.settings := by
  apply serverAfter_keeps (P := fun server' => server'.settings = server.settings)
  · intro server' step hkept
    exact (perform_performed now server' step).settings.trans hkept
  · rfl

theorem routes_serverAfter : (serverAfter now server steps).routes = server.routes := by
  apply serverAfter_keeps (P := fun server' => server'.routes = server.routes)
  · intro server' step hkept
    exact (perform_performed now server' step).routes.trans hkept
  · rfl

/-- A port that is not 0 is never given up. -/
theorem port_serverAfter (hport : server.port ≠ 0) :
    (serverAfter now server steps).port = server.port := by
  apply serverAfter_keeps (P := fun server' => server'.port = server.port)
  · intro server' step hkept
    have hport' : server'.port ≠ 0 := by rwa [hkept]
    exact ((perform_performed now server' step).port hport').trans hkept
  · rfl

theorem accepted_serverAfter : (serverAfter now server steps).accepted =
    server.accepted + ((server.history now steps).flatMap Session.visits).length := by
  induction steps generalizing server with
  | nil => rfl
  | cons step steps ih =>
    have hstep := perform_performed now server step
    simp only [history, List.flatMap_cons, List.length_append, hstep.visits, List.length_map]
    calc (serverAfter now server (step :: steps)).accepted
      _ = (server.perform now step).server.accepted + _ := ih _
      _ = _ := by rw [hstep.accepted, Nat.add_assoc]

theorem workers_history : (server.history now steps).flatMap Session.workers =
    workerNames server.accepted ((server.history now steps).flatMap Session.visits).length := by
  induction steps generalizing server with
  | nil => rfl
  | cons step steps ih =>
    have hstep := perform_performed now server step
    simp only [history, List.flatMap_cons, List.length_append, hstep.visits, List.length_map]
    rw [hstep.workers, ih, hstep.accepted, workerNames_add]

end Steps

/-! ## Names -/

theorem workerName_injective : Function.Injective workerName := by
  intro first second h
  have htext : toString first = toString second := (String.append_right_inj "mock-conn-").1 h
  have hdigits : Nat.toDigits 10 first = Nat.toDigits 10 second := by
    rwa [Nat.toString_eq_ofList_toDigits, Nat.toString_eq_ofList_toDigits,
      String.ofList_inj] at htext
  calc first
    _ = Nat.ofDigitChars 10 (Nat.toDigits 10 first) 0 := Nat.ofDigitChars_ten_toDigits.symm
    _ = second := by rw [hdigits, Nat.ofDigitChars_ten_toDigits]

theorem nodup_workerNames (before count : Nat) : (workerNames before count).Nodup := by
  unfold workerNames
  apply List.Nodup.map workerName_injective
  exact List.nodup_range'

/-! ## The account of a history -/

/-- What the sessions of a server account for that is told to take `steps`. -/
structure Accounted (settings : Settings) (routes : Routes) (now : Int) (steps : List Step)
    (sessions : List Session) : Prop where
  length : sessions.length = steps.length
  visits : ∀ (i : Nat) (step : Step) (s : Session), steps[i]? = some step →
    sessions[i]? = some s →
    s.visits = (clientsServed step).map (Service.serve settings routes now)
  paired : ∀ s ∈ sessions, s.workers.length = s.visits.length
  workers : sessions.flatMap Session.workers =
    (List.range' 1 (sessions.flatMap Session.visits).length).map workerName
  distinct : (sessions.flatMap Session.workers).Nodup
  accepted : ∀ (i : Nat) (s : Session), sessions[i]? = some s →
    s.server.accepted = ((sessions.take (i + 1)).flatMap Session.visits).length
  closes : ∀ (i : Nat) (listener : Listener) (s : Session), steps[i]? = some (.start listener) →
    sessions[i]? = some s → s.calls.getLast? = some .close
  reports : ∀ (i : Nat) (listener : Listener) (s : Session), steps[i]? = some (.start listener) →
    sessions[i]? = some s → ∃ port, binds s = [.bind settings.host port] ∧
      (Opens listener → s.server.port = reportedPort listener port)
  rebinds : ∀ (i j : Nat) (listener : Listener) (s s' : Session), i < j →
    sessions[i]? = some s → s.server.port ≠ 0 → steps[j]? = some (.start listener) →
    sessions[j]? = some s' → binds s' = [.bind settings.host s.server.port]

section Account

variable {now : Int} {server : Server} {steps : List Step} {i : Nat} {s : Session}

/-- A session is what the server before it makes of its step. -/
theorem eq_perform_of_getElem? {step : Step} (hstep : steps[i]? = some step)
    (hs : (server.history now steps)[i]? = some s) :
    s = (serverAfter now server (steps.take i)).perform now step := by
  rw [getElem?_history, hstep, Option.map_some] at hs
  exact (Option.some.inj hs).symm

theorem exists_step_of_getElem? (hs : (server.history now steps)[i]? = some s) :
    ∃ step, steps[i]? = some step ∧
      s = (serverAfter now server (steps.take i)).perform now step := by
  rw [getElem?_history] at hs
  obtain ⟨step, hstep, hperform⟩ := Option.map_eq_some_iff.1 hs
  exact ⟨step, hstep, hperform.symm⟩

/-- The server of a session is the one that its step and all before it leave behind. -/
theorem server_eq_serverAfter (hs : (server.history now steps)[i]? = some s) :
    s.server = serverAfter now server (steps.take (i + 1)) := by
  obtain ⟨step, hstep, rfl⟩ := exists_step_of_getElem? hs
  rw [List.take_add_one, hstep, serverAfter_append]
  rfl

theorem binds_of_start {listener : Listener} (hstep : steps[i]? = some (.start listener))
    (hs : (server.history now steps)[i]? = some s) :
    binds s =
      [.bind server.settings.host (serverAfter now server (steps.take i)).port] := by
  rw [eq_perform_of_getElem? hstep hs, ← settings_serverAfter now server (steps.take i)]
  exact binds_start now listener _

/-- Once a session ends with a port that is not 0, later starts bind that one. -/
theorem binds_of_later {listener : Listener} {j : Nat} {s' : Session} (hlater : i < j)
    (hs : (server.history now steps)[i]? = some s) (hport : s.server.port ≠ 0)
    (hstep : steps[j]? = some (.start listener))
    (hs' : (server.history now steps)[j]? = some s') :
    binds s' = [.bind server.settings.host s.server.port] := by
  obtain ⟨k, rfl⟩ : ∃ k, j = i + 1 + k := Nat.exists_eq_add_of_le hlater
  have hserver := server_eq_serverAfter hs
  have hkept : (serverAfter now server (steps.take (i + 1 + k))).port = s.server.port := by
    rw [List.take_add, serverAfter_append, ← hserver]
    exact port_serverAfter now s.server _ hport
  rw [binds_of_start hstep hs', hkept]

end Account

/-- Over its whole history a server serves, at every start that opens its listening socket, exactly
the clients that come before the end of the accepting, each as it would be served alone, and
numbers them from 1 on without a gap or a repetition.  Every start closes its listening socket, and
keeps to the port that an earlier one was given. -/
theorem history_accounted (settings : Settings) (routes : Option Routes) (now : Int)
    (steps : List Step) :
    Accounted settings (Server.create settings routes).routes now steps
      ((Server.create settings routes).history now steps) := by
  let server := Server.create settings routes
  constructor
  case length => exact length_history now server steps
  case visits =>
    intro i step s hstep hs
    rw [eq_perform_of_getElem? hstep hs, (perform_performed now _ step).visits,
      settings_serverAfter, routes_serverAfter]
    rfl
  case paired =>
    intro s hs
    obtain ⟨i, hi⟩ := List.mem_iff_getElem?.1 hs
    obtain ⟨step, -, rfl⟩ := exists_step_of_getElem? hi
    have hperformed := perform_performed now (serverAfter now server (steps.take i)) step
    rw [hperformed.workers, hperformed.visits]
    simp [workerNames]
  case workers => exact workers_history now server steps
  case distinct =>
    rw [workers_history]
    apply nodup_workerNames
  case accepted =>
    intro i s hs
    rw [server_eq_serverAfter hs, accepted_serverAfter, take_history]
    exact Nat.zero_add _
  case closes =>
    intro i listener s hstep hs
    rw [eq_perform_of_getElem? hstep hs]
    apply getLast?_calls_start
  case reports =>
    intro i listener s hstep hs
    refine ⟨_, binds_of_start hstep hs, fun hopens => ?_⟩
    rw [eq_perform_of_getElem? hstep hs]
    exact port_start hopens now _
  case rebinds =>
    intro i j listener s s' hlater hs hport hstep hs'
    exact binds_of_later hlater hs hport hstep hs'

end CannedReply.Proofs.Server.History
