import CannedReply.Proofs.Connection.Turns
/-!
# The life of a connection

Whatever its owner does, a connection gives its socket away at most once, and from then on neither
answers nor closes.  A block that holds a connection ends in `close`, and asking the connection
itself for its socket is `takeOver`.  Main statement: `connection_lifecycle`.
-/

namespace CannedReply.Proofs.Connection.Lifecycle

open CannedReply.Connection
open CannedReply.Proofs.Connection.Turns

/-! ## One operation -/

/-- An operation with its answer and the connection after it: all that can happen. -/
inductive Turn (now : Int) (c : Connection) :
    Operation → Except OperationError Nat → Connection → Prop where
  | tookOver : c.offersTakeover = true → c.takenOver = false → c.socket.checkPeer = .ok () →
      Turn now c .takeOver (.ok 0) { c with takenOver := true }
  | refused {e : TakeoverError} : c.takeOver = .error e →
      Turn now c .takeOver (.error (.takeover e)) c
  | responded {r : Response} {bytes : Bytes} : c.takenOver = false → r.toBytes now = .ok bytes →
      Turn now c (.sendResponse r) (.ok bytes.length)
        { c with socket := { c.socket with sent := c.socket.sent ++ bytes } }
  | unanswered {r : Response} {e : SendError} : c.sendResponse now r = .error e →
      Turn now c (.sendResponse r) (.error (.send e)) c
  | wrote {payload : Bytes} : Turn now c (.sendRaw payload) (.ok payload.length)
      { c with socket := { c.socket with sent := c.socket.sent ++ payload } }
  | unwritten {payload : Bytes} {e : SysError} : c.sendRaw payload = .error e →
      Turn now c (.sendRaw payload) (.error (.send (.system e))) c
  | left : c.takenOver = true → Turn now c .close (.ok 0) c
  | closed : c.takenOver = false → Turn now c .close (.ok 0) c.closeSocket
  | closedSocket : Turn now c .closeSocket (.ok 0) c.closeSocket
  | peerFault {e : Option SysError} : Turn now c (.setPeerFault e) (.ok 0)
      { c with socket := { c.socket with peerFault := e } }
  | sendFault {e : Option SysError} : Turn now c (.setSendFault e) (.ok 0)
      { c with socket := { c.socket with sendFault := e } }

/-- What an operation answers: how many bytes it sent, or its error. -/
def answer (now : Int) (c : Connection) (operation : Operation) : Except OperationError Nat :=
  (c.perform now operation).map Prod.fst

theorem takeOver_eq_ok_iff {c c' : Connection} : c.takeOver = .ok c' ↔
    c.offersTakeover = true ∧ c.takenOver = false ∧ c.socket.checkPeer = .ok () ∧
      c' = { c with takenOver := true } := by
  cases htaken : c.takenOver with
  | true =>
    unfold Connection.takeOver
    rw [htaken]
    cases c.offersTakeover <;> simp
  | false =>
    obtain ⟨hoffers, hturn⟩ | ⟨hoffers, ⟨e, hpeer, hturn⟩ | ⟨hpeer, hturn⟩⟩ := takeOver_turn htaken
    · simp [hturn, hoffers]
    · simp [hturn, hpeer]
    · simp [hturn, hoffers, hpeer, eq_comm]

theorem sendResponse_of_takenOver (now : Int) (r : Response) {c : Connection}
    (h : c.takenOver = true) : c.sendResponse now r = .error .takenOver := by
  unfold Connection.sendResponse
  rw [if_pos h]

theorem perform_turn (now : Int) (c : Connection) (operation : Operation) :
    Turn now c operation (answer now c operation) (c.after now operation) := by
  unfold answer Connection.after
  cases operation with
  | takeOver =>
    rw [Connection.perform]
    cases hturn : c.takeOver with
    | error e => exact .refused hturn
    | ok c' =>
      obtain ⟨hoffers, hwhole, hpeer, rfl⟩ := takeOver_eq_ok_iff.1 hturn
      exact .tookOver hoffers hwhole hpeer
  | sendResponse r =>
    rw [Connection.perform]
    cases htaken : c.takenOver with
    | true =>
      have hturn := sendResponse_of_takenOver now r htaken
      rw [hturn]
      exact .unanswered hturn
    | false =>
      obtain ⟨bytes, hbytes, hturn⟩ | ⟨e, hturn⟩ := sendResponse_turn now r htaken
      · rw [hturn]
        exact .responded htaken hbytes
      · rw [hturn]
        exact .unanswered hturn
  | sendRaw payload =>
    rw [Connection.perform]
    obtain ⟨-, e, -, hturn⟩ | ⟨-, hturn⟩ := sendRaw_turn payload c
    · rw [hturn]
      exact .unwritten hturn
    · rw [hturn]
      exact .wrote
  | close =>
    rw [Connection.perform, Connection.close]
    cases htaken : c.takenOver with
    | true => exact .left htaken
    | false => exact .closed htaken
  | closeSocket => exact .closedSocket
  | setPeerFault e => exact .peerFault
  | setSendFault e => exact .sendFault

/-! ## Whole lives -/

/-- The connection after operations that are performed one after the other, each at its time. -/
def run (c : Connection) (operations : List (Int × Operation)) : Connection :=
  operations.foldl (fun c step => c.after step.1 step.2) c

/-- The operations with what each of them answers. -/
def answers (c : Connection) :
    List (Int × Operation) → List (Operation × Except OperationError Nat)
  | [] => []
  | (now, operation) :: rest =>
    (operation, answer now c operation) :: answers (c.after now operation) rest

def isTakeover : Operation × Except OperationError Nat → Bool
  | (.takeOver, .ok _) => true
  | _ => false

/-- How often the socket was given away. -/
def takeovers (answered : List (Operation × Except OperationError Nat)) : Nat :=
  answered.countP isTakeover

def bytesOf : Except OperationError Nat → Nat
  | .ok n => n
  | .error _ => 0

/-- How many bytes the answers report in all. -/
def reported : List (Operation × Except OperationError Nat) → Nat
  | [] => 0
  | (_, answered) :: rest => bytesOf answered + reported rest

section Steps

variable {now : Int} {c c' : Connection} {operation : Operation}
  {answered : Except OperationError Nat}

theorem Turn.offersTakeover (h : Turn now c operation answered c') :
    c'.offersTakeover = c.offersTakeover := by
  cases h <;> rfl

/-- A turn gives the socket away just if it turns a whole connection into one taken over. -/
theorem Turn.takenOver (h : Turn now c operation answered c') :
    c'.takenOver.toNat = c.takenOver.toNat + (isTakeover (operation, answered)).toNat := by
  cases h with
  | tookOver _ hwhole _ => simp [hwhole, isTakeover]
  | _ => rfl

/-- A connection that does not offer its socket keeps it. -/
theorem Turn.takenOver_of_plain (h : Turn now c operation answered c')
    (hplain : c.offersTakeover = false) : c'.takenOver = c.takenOver := by
  cases h with
  | tookOver hoffers _ _ =>
    rw [hplain] at hoffers
    contradiction
  | _ => rfl

/-- The bytes that a turn sends are the ones that it reports. -/
theorem Turn.sent (h : Turn now c operation answered c') :
    ∃ bytes, c'.socket.sent = c.socket.sent ++ bytes ∧ bytes.length = bytesOf answered := by
  cases h with
  | responded _ _ => exact ⟨_, rfl, rfl⟩
  | wrote => exact ⟨_, rfl, rfl⟩
  | _ => exact ⟨[], (List.append_nil _).symm, rfl⟩

end Steps

section Runs

variable (c : Connection) (operations : List (Int × Operation))

theorem run_offersTakeover : (run c operations).offersTakeover = c.offersTakeover := by
  induction operations generalizing c with
  | nil => rfl
  | cons step operations ih =>
    show (run (c.after step.1 step.2) operations).offersTakeover = _
    rw [ih, (perform_turn step.1 c step.2).offersTakeover]

theorem run_takenOver : (run c operations).takenOver.toNat =
    c.takenOver.toNat + takeovers (answers c operations) := by
  induction operations generalizing c with
  | nil => rfl
  | cons step operations ih =>
    have hturn := (perform_turn step.1 c step.2).takenOver
    have hcount : takeovers (answers c (step :: operations)) =
        takeovers (answers (c.after step.1 step.2) operations) +
          (isTakeover (step.2, answer step.1 c step.2)).toNat := by
      rw [takeovers, answers, List.countP_cons]
      cases isTakeover (step.2, answer step.1 c step.2) <;> rfl
    show (run (c.after step.1 step.2) operations).takenOver.toNat = _
    rw [ih, hturn, hcount]
    omega

theorem run_takenOver_of_plain (hplain : c.offersTakeover = false) :
    (run c operations).takenOver = c.takenOver := by
  induction operations generalizing c with
  | nil => rfl
  | cons step operations ih =>
    have hturn := perform_turn step.1 c step.2
    show (run (c.after step.1 step.2) operations).takenOver = _
    rw [ih _ (hturn.offersTakeover.trans hplain), hturn.takenOver_of_plain hplain]

theorem run_takenOver_of_takenOver (htaken : c.takenOver = true) :
    (run c operations).takenOver = true := by
  have hflag := run_takenOver c operations
  have hle := Bool.toNat_le (run c operations).takenOver
  rw [htaken, Bool.toNat_true] at hflag
  rw [← Bool.toNat_eq_one]
  omega

theorem run_sent : ∃ bytes, (run c operations).socket.sent = c.socket.sent ++ bytes ∧
    bytes.length = reported (answers c operations) := by
  induction operations generalizing c with
  | nil => exact ⟨[], (List.append_nil _).symm, rfl⟩
  | cons step operations ih =>
    obtain ⟨first, hfirst, hfirstLength⟩ := (perform_turn step.1 c step.2).sent
    obtain ⟨more, hmore, hmoreLength⟩ := ih (c.after step.1 step.2)
    refine ⟨first ++ more, ?_, ?_⟩
    · show (run (c.after step.1 step.2) operations).socket.sent = _
      rw [hmore, hfirst, List.append_assoc]
    · rw [List.length_append, hfirstLength, hmoreLength]
      rfl

theorem run_append (more : List (Int × Operation)) :
    run c (operations ++ more) = run (run c operations) more :=
  List.foldl_append

end Runs

/-! ## Promises -/

theorem checkPeer_eq_ok_iff {s : Socket} :
    s.checkPeer = .ok () ↔ s.closed = false ∧ s.peerFault = none := by
  unfold Socket.checkPeer
  cases s.closed with
  | true => simp
  | false => cases s.peerFault <;> simp

/-- What a connection promises about its next operation. -/
structure Promises (c : Connection) : Prop where
  takes : ∀ now, (∃ n, answer now c .takeOver = .ok n) ↔
    c.takenOver = false ∧ c.socket.closed = false ∧ c.socket.peerFault = none
  refuses : ∀ now e, answer now c .takeOver = .error e → c.after now .takeOver = c
  stays : c.takenOver = true → ∀ now operation, (c.after now operation).takenOver = true
  silent : c.takenOver = true → ∀ now r,
    answer now c (.sendResponse r) = .error (.send .takenOver) ∧
      (c.after now (.sendResponse r)).socket.sent = c.socket.sent
  leaves : c.takenOver = true → ∀ now, (c.after now .close).socket.closed = c.socket.closed
  closes : c.takenOver = false → ∀ now, (c.after now .close).socket.closed = true
  unsent : ∀ now operation e, answer now c operation = .error e →
    (c.after now operation).socket.sent = c.socket.sent
  sends : ∀ now operation n, answer now c operation = .ok n →
    ∃ bytes, (c.after now operation).socket.sent = c.socket.sent ++ bytes ∧ bytes.length = n

section Promises

variable {now : Int} {c : Connection} {operation : Operation}

theorem answer_takeOver_isOk_iff (hoffers : c.offersTakeover = true) :
    (∃ n, answer now c .takeOver = .ok n) ↔
      c.takenOver = false ∧ c.socket.closed = false ∧ c.socket.peerFault = none := by
  have hok : (∃ n, answer now c .takeOver = .ok n) ↔ ∃ c', c.takeOver = .ok c' := by
    unfold answer
    rw [Connection.perform]
    cases c.takeOver with
    | error e =>
      constructor
      · rintro ⟨n, h⟩
        cases h
      · rintro ⟨c', h⟩
        cases h
    | ok c' => exact ⟨fun _ => ⟨c', rfl⟩, fun _ => ⟨0, rfl⟩⟩
  rw [hok]
  simp [takeOver_eq_ok_iff, hoffers, checkPeer_eq_ok_iff]

theorem after_of_error {e : OperationError} (h : answer now c operation = .error e) :
    c.after now operation = c := by
  have hturn := perform_turn now c operation
  rw [h] at hturn
  generalize c.after now operation = c' at hturn
  cases hturn <;> rfl

theorem answer_takeOver_of_plain (hplain : c.offersTakeover = false) (now : Int) :
    answer now c .takeOver = .error (.takeover .unsupported) := by
  unfold answer
  rw [Connection.perform, Connection.takeOver, hplain]
  rfl

theorem answer_sendResponse_of_takenOver (htaken : c.takenOver = true) (now : Int) (r : Response) :
    answer now c (.sendResponse r) = .error (.send .takenOver) := by
  unfold answer
  rw [Connection.perform, sendResponse_of_takenOver now r htaken]
  rfl

theorem promises_of_offersTakeover (hoffers : c.offersTakeover = true) : Promises c where
  takes now := answer_takeOver_isOk_iff hoffers
  refuses now e := after_of_error
  stays htaken now operation := run_takenOver_of_takenOver c [(now, operation)] htaken
  silent htaken now r := by
    have hanswer := answer_sendResponse_of_takenOver htaken now r
    exact ⟨hanswer, by rw [after_of_error hanswer]⟩
  leaves htaken now := by
    have hclose : c.after now .close = c.close := rfl
    rw [hclose, Connection.close, if_pos htaken]
  closes hwhole now := close_closed hwhole
  unsent now operation e h := by rw [after_of_error h]
  sends now operation n h := by
    obtain ⟨bytes, hsent, hlength⟩ := (perform_turn now c operation).sent
    rw [h] at hlength
    exact ⟨bytes, hsent, hlength⟩

end Promises

/-- However a connection is used, its socket is given away at most once, and not by a connection
that does not offer it; every operation on the way keeps the promises, and the bytes sent are the
ones reported. -/
theorem connection_lifecycle (s : Socket) (operations : List (Int × Operation)) :
    let offering : Connection := { socket := s, offersTakeover := true }
    let plain : Connection := { socket := s, offersTakeover := false }
    takeovers (answers offering operations) ≤ 1 ∧
    ((run offering operations).takenOver = true ↔
      takeovers (answers offering operations) = 1) ∧
    (∀ more, (run offering operations).takenOver = true →
      (run offering (operations ++ more)).takenOver = true) ∧
    Promises (run offering operations) ∧
    (run offering operations).socket.sent.length =
      s.sent.length + reported (answers offering operations) ∧
    (run plain operations).takenOver = false ∧
    ∀ now, answer now (run plain operations) .takeOver = .error (.takeover .unsupported) := by
  intro offering plain
  have hflag : (run offering operations).takenOver.toNat =
      0 + takeovers (answers offering operations) := run_takenOver offering operations
  have hplain : (run plain operations).offersTakeover = false := run_offersTakeover plain operations
  refine ⟨?_, ?_, fun more htaken => ?_, ?_, ?_, ?_, fun now => ?_⟩
  · have hle := Bool.toNat_le (run offering operations).takenOver
    omega
  · rw [← Bool.toNat_eq_one]
    omega
  · rw [run_append]
    exact run_takenOver_of_takenOver _ more htaken
  · exact promises_of_offersTakeover (run_offersTakeover offering operations)
  · obtain ⟨bytes, hsent, hlength⟩ := run_sent offering operations
    rw [hsent, List.length_append, hlength]
  · exact run_takenOver_of_plain plain operations rfl
  · exact answer_takeOver_of_plain hplain now

end CannedReply.Proofs.Connection.Lifecycle
