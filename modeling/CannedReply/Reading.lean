import CannedReply.Framing.Message
import CannedReply.Socket
/-!
# Reading a message

Receives until the buffer holds a complete message.
-/

namespace CannedReply.Reading

inductive Error where
  | framing (e : Framing.Error)
  | timedOut
  /-- The stream ended inside a message. -/
  | endedEarly
  /-- The connection was lost. -/
  | lost (e : SysError)
  deriving DecidableEq, Repr

def Error.message : Error → String
  | framing e => e.message
  | timedOut => "Timed out waiting for request bytes"
  | endedEarly => "Connection closed before request completed"
  | lost e => e.message

/-- How many bytes one receive asks for. -/
def receiveLimit : Nat := 65536

/-- Reads on behind the bytes in `buffer`. -/
def readFrom (buffer : Bytes) (s : Socket) : Except Error Bytes × Socket :=
  match Framing.message? buffer with
  | .error e => (.error (.framing e), s)
  | .ok (some message) => (.ok message, s)
  | .ok none =>
    match _h : s.receive receiveLimit with
    | (.error .timedOut, s') => (.error .timedOut, s')
    | (.error (.fault e), s') => (.error (.lost e), s')
    | (.ok [], s') => if buffer.isEmpty then (.ok [], s') else (.error .endedEarly, s')
    | (.ok (b :: bs), s') => readFrom (buffer ++ b :: bs) s'
termination_by s.remaining
decreasing_by exact Socket.remaining_lt_of_receive ‹_›

/-- The first message of a connection, or nothing if the peer sends nothing. -/
def readMessage (s : Socket) : Except Error Bytes × Socket := readFrom [] s

end CannedReply.Reading
