import CannedReply.Bytes
import CannedReply.SysError
/-!
# Client sockets

The server's end of a connection: what will arrive, what has been sent, and the faults that the
system reports. Main statement: a receive that returns bytes leaves less to arrive, so reading to
the end of a stream ends.
-/

namespace CannedReply

/-- What a receive finds when nothing is pending. -/
inductive Arrival where
  | data (bytes : Bytes)
  | timeout
  | fault (e : SysError)
  deriving Repr

structure Socket where
  arrivals : List Arrival := []
  /-- Bytes that have arrived and are not received yet. -/
  pending : Bytes := []
  /-- Why the peer's name cannot be asked for. -/
  peerFault : Option SysError := none
  /-- Why nothing can be sent. -/
  sendFault : Option SysError := none
  sent : Bytes := []
  closed : Bool := false
  /-- How often the open socket was asked to receive. -/
  receives : Nat := 0
  /-- How many seconds a receive may wait. -/
  patience : Option Nat := none

namespace Socket

inductive ReceiveError where
  | timedOut
  | fault (e : SysError)
  deriving DecidableEq, Repr

def ReceiveError.ofSysError (e : SysError) : ReceiveError :=
  if e.isTimeout then timedOut else fault e

/-- Hands out the first `limit` pending bytes. -/
def takePending (limit : Nat) (s : Socket) : Except ReceiveError Bytes × Socket :=
  (.ok (s.pending.take limit), { s with pending := s.pending.drop limit })

/-- Receives at most `limit` bytes; none means that the stream has ended. -/
def receive (limit : Nat) (s : Socket) : Except ReceiveError Bytes × Socket :=
  if s.closed then (.error (.ofSysError .badDescriptor), s)
  else
    let s := { s with receives := s.receives + 1 }
    match s.pending with
    | _ :: _ => s.takePending limit
    | [] =>
      match s.arrivals with
      | [] => (.ok [], s)
      | .data bytes :: rest => { s with arrivals := rest, pending := bytes }.takePending limit
      | .timeout :: rest => (.error .timedOut, { s with arrivals := rest })
      | .fault e :: rest => (.error (.ofSysError e), { s with arrivals := rest })

/-- Sends all of `payload`, or nothing of it. -/
def send (payload : Bytes) (s : Socket) : Except SysError Socket :=
  if s.closed then .error .badDescriptor
  else
    match s.sendFault with
    | some e => .error e
    | none => .ok { s with sent := s.sent ++ payload }

/-- Asks for the peer's name, which fails if the peer is gone. -/
def checkPeer (s : Socket) : Except SysError Unit :=
  if s.closed then .error .badDescriptor
  else
    match s.peerFault with
    | some e => .error e
    | none => .ok ()

def close (s : Socket) : Socket := { s with closed := true }

def setPatience (seconds : Nat) (s : Socket) : Socket := { s with patience := some seconds }

/-- Sends a payload as it is. An empty payload does not touch the socket. -/
def sendRaw (payload : Bytes) (s : Socket) : Except SysError Socket :=
  if payload.isEmpty then .ok s else s.send payload

/-- What an arrival still has to offer: its bytes, and itself. -/
def Arrival.weight : Arrival → Nat
  | .data bytes => bytes.length + 1
  | _ => 1

/-- How much may still be received. -/
def remaining (s : Socket) : Nat :=
  s.pending.length + s.arrivals.foldr (fun arrival n => Arrival.weight arrival + n) 0

theorem remaining_takePending {limit : Nat} {s : Socket} {bytes : Bytes} {s' : Socket}
    (h : s.takePending limit = (.ok bytes, s')) :
    s'.remaining + bytes.length = s.remaining := by
  simp only [takePending, Prod.mk.injEq, Except.ok.injEq] at h
  obtain ⟨rfl, rfl⟩ := h
  simp only [remaining, List.length_drop, List.length_take]
  omega

theorem remaining_lt_of_receive {limit : Nat} {s : Socket} {b : UInt8} {bs : Bytes} {s' : Socket}
    (h : s.receive limit = (.ok (b :: bs), s')) : s'.remaining < s.remaining := by
  unfold receive at h
  split at h
  · simp at h
  · dsimp only at h
    split at h
    · have := remaining_takePending h
      simp only [remaining, List.length_cons] at this ⊢
      omega
    · split at h
      · simp at h
      · rename_i hp _ _ rest ha
        have := remaining_takePending h
        simp only [remaining, ha, List.foldr_cons, Arrival.weight, hp,
          List.length_nil, List.length_cons] at this ⊢
        omega
      · simp at h
      · simp at h

end Socket

end CannedReply
