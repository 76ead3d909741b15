import CannedReply.Connection
import CannedReply.Proofs.Reading.Receives
/-!
# What the operations of a connection can do

One inversion for each operation: the ways in which it ends, each with its condition and with all
that it changes.
-/

namespace CannedReply.Proofs.Connection.Turns

open CannedReply.Connection
open CannedReply.Proofs.Reading.Receives

theorem send_eq_ok {payload : Bytes} {s s' : Socket} (h : s.send payload = .ok s') :
    s' = { s with sent := s.sent ++ payload } := by
  unfold Socket.send at h
  split at h
  · contradiction
  · split at h
    · contradiction
    · exact (Except.ok.inj h).symm

/-- A connection that is still whole refuses its socket for one of two reasons. -/
theorem takeOver_turn {c : Connection} (h : c.takenOver = false) :
    c.offersTakeover = false ∧ c.takeOver = .error .unsupported ∨
    c.offersTakeover = true ∧
      ((∃ e, c.socket.checkPeer = .error e ∧ c.takeOver = .error (.peerGone e)) ∨
        c.socket.checkPeer = .ok () ∧ c.takeOver = .ok { c with takenOver := true }) := by
  unfold takeOver
  cases hoffer : c.offersTakeover with
  | false => exact .inl ⟨rfl, rfl⟩
  | true =>
    refine .inr ⟨rfl, ?_⟩
    simp only [h, Bool.not_true, Bool.false_eq_true, if_false]
    cases hpeer : c.socket.checkPeer with
    | error e => exact .inl ⟨e, rfl, rfl⟩
    | ok peer => exact .inr ⟨rfl, rfl⟩

/-- A response is sent as a whole or not at all. -/
theorem sendResponse_turn (now : Int) (r : Response) {c : Connection} (h : c.takenOver = false) :
    (∃ bytes, r.toBytes now = .ok bytes ∧ c.sendResponse now r =
      .ok (bytes.length, { c with socket := { c.socket with sent := c.socket.sent ++ bytes } })) ∨
    ∃ failure, c.sendResponse now r = .error failure := by
  unfold sendResponse
  simp only [h, Bool.false_eq_true, if_false]
  cases hbytes : r.toBytes now with
  | error e => exact .inr ⟨_, rfl⟩
  | ok bytes =>
    dsimp only
    cases hsend : c.socket.send bytes with
    | error e => exact .inr ⟨_, rfl⟩
    | ok socket => exact .inl ⟨bytes, rfl, by rw [send_eq_ok hsend]⟩

/-- A response that has bytes is sent if its socket takes them. -/
theorem sendResponse_of_send {now : Int} {r : Response} {c : Connection} {bytes : Bytes}
    {socket : Socket} (h : c.takenOver = false) (hbytes : r.toBytes now = .ok bytes)
    (hsend : c.socket.send bytes = .ok socket) :
    c.sendResponse now r = .ok (bytes.length, { c with socket }) := by
  unfold sendResponse
  simp only [h, Bool.false_eq_true, if_false, hbytes, hsend]

theorem send_of_writable {s : Socket} (hopen : s.closed = false) (hfault : s.sendFault = none)
    (payload : Bytes) : s.send payload = .ok { s with sent := s.sent ++ payload } := by
  unfold Socket.send
  simp only [hopen, hfault, Bool.false_eq_true, if_false]

/-- A payload is sent as a whole or not at all, and an empty one never fails. -/
theorem sendRaw_turn (payload : Bytes) (c : Connection) :
    (payload ≠ [] ∧ ∃ e, c.socket.send payload = .error e ∧ c.sendRaw payload = .error e) ∨
    (payload = [] ∨ ∃ socket, c.socket.send payload = .ok socket) ∧ c.sendRaw payload =
      .ok (payload.length,
        { c with socket := { c.socket with sent := c.socket.sent ++ payload } }) := by
  unfold sendRaw Socket.sendRaw
  by_cases hempty : payload = []
  · subst hempty
    simp
  · simp only [List.isEmpty_iff, hempty, if_false, false_or, ne_eq, not_false_eq_true, true_and]
    cases hsend : c.socket.send payload with
    | error e => exact .inl ⟨e, rfl, rfl⟩
    | ok socket => exact .inr ⟨⟨socket, rfl⟩, by rw [send_eq_ok hsend]⟩

/-! ## Closing -/

@[simp] theorem close_closed {c : Connection} (h : c.takenOver = false) :
    c.close.socket.closed = true := by
  simp [Connection.close, h, closeSocket, Socket.close]

@[simp] theorem close_sent (c : Connection) : c.close.socket.sent = c.socket.sent := by
  unfold Connection.close
  split <;> rfl

@[simp] theorem closeSocket_close_closed (c : Connection) :
    c.closeSocket.close.socket.closed = true := by
  unfold Connection.close
  split <;> rfl

@[simp] theorem closeSocket_sent (c : Connection) : c.closeSocket.socket.sent = c.socket.sent :=
  rfl

/-! ## After a reading -/

theorem checkPeer_of_untouched {s s' : Socket} (h : Untouched s s') :
    s'.checkPeer = s.checkPeer := by
  unfold Socket.checkPeer
  rw [h.closed, h.peerFault]

theorem send_eq_error_iff {s s' : Socket} (hclosed : s'.closed = s.closed)
    (hfault : s'.sendFault = s.sendFault) {payload : Bytes} {e : SysError} :
    s'.send payload = .error e ↔ s.send payload = .error e := by
  unfold Socket.send
  rw [hclosed, hfault]
  split
  · rfl
  · split <;> simp

end CannedReply.Proofs.Connection.Turns
