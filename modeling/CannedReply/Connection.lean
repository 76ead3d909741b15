import CannedReply.Response
import CannedReply.Socket
/-!
# Connections

A connection sends structured responses until its socket is taken over. A takeover succeeds at
most once, and closing the socket is then the business of whoever took it. All that can happen to
a connection is an `Operation`, and one that fails changes nothing.
-/

namespace CannedReply

structure Connection where
  socket : Socket
  /-- Whether the connection offers its socket at all. -/
  offersTakeover : Bool
  takenOver : Bool := false

namespace Connection

inductive TakeoverError where
  | unsupported
  | alreadyTaken
  | peerGone (e : SysError)
  deriving DecidableEq, Repr

def TakeoverError.message : TakeoverError → String
  | unsupported => "webserver doesn't support hijacking"
  | alreadyTaken => "connection has already been hijacked"
  | peerGone e => "cannot hijack connection: " ++ e.message

inductive SendError where
  | takenOver
  | response (e : Response.Error)
  | system (e : SysError)
  deriving DecidableEq, Repr

def SendError.message : SendError → String
  | takenOver => "cannot write a response on a hijacked connection"
  | response e => e.message
  | system e => e.message

/-- The error of a response that has no bytes, unless the system reports it. -/
def SendError.escaping? : SendError → Option Response.Error
  | response e => if e.isSystem then none else some e
  | _ => none

/-- Hands the socket over. -/
def takeOver (c : Connection) : Except TakeoverError Connection :=
  if !c.offersTakeover then .error .unsupported
  else if c.takenOver then .error .alreadyTaken
  else
    match c.socket.checkPeer with
    | .error e => .error (.peerGone e)
    | .ok () => .ok { c with takenOver := true }

/-- Sends a response; the result counts its bytes. -/
def sendResponse (now : Int) (r : Response) (c : Connection) :
    Except SendError (Nat × Connection) :=
  if c.takenOver then .error .takenOver
  else
    match r.toBytes now with
    | .error e => .error (.response e)
    | .ok bytes =>
      match c.socket.send bytes with
      | .error e => .error (.system e)
      | .ok socket => .ok (bytes.length, { c with socket })

/-- Sends a payload on the socket itself; the result counts its bytes. -/
def sendRaw (payload : Bytes) (c : Connection) : Except SysError (Nat × Connection) :=
  match c.socket.sendRaw payload with
  | .error e => .error e
  | .ok socket => .ok (payload.length, { c with socket })

def closeSocket (c : Connection) : Connection := { c with socket := c.socket.close }

/-- Closes the socket, unless it has been taken over. -/
def close (c : Connection) : Connection := if c.takenOver then c else c.closeSocket

/-- What the owner of a connection, or the system behind its socket, does. -/
inductive Operation where
  | takeOver
  | sendResponse (r : Response)
  | sendRaw (payload : Bytes)
  | close
  | closeSocket
  | setPeerFault (e : Option SysError)
  | setSendFault (e : Option SysError)

inductive OperationError where
  | takeover (e : TakeoverError)
  | send (e : SendError)
  deriving DecidableEq, Repr

/-- Performs an operation; the result counts the bytes that it sends. -/
def perform (now : Int) (c : Connection) : Operation → Except OperationError (Nat × Connection)
  | .takeOver => (c.takeOver.mapError .takeover).map fun c => (0, c)
  | .sendResponse r => (c.sendResponse now r).mapError .send
  | .sendRaw payload => (c.sendRaw payload).mapError fun e => .send (.system e)
  | .close => .ok (0, c.close)
  | .closeSocket => .ok (0, c.closeSocket)
  | .setPeerFault e => .ok (0, { c with socket := { c.socket with peerFault := e } })
  | .setSendFault e => .ok (0, { c with socket := { c.socket with sendFault := e } })

/-- What is left of a connection after an operation. -/
def after (now : Int) (c : Connection) (operation : Operation) : Connection :=
  match c.perform now operation with
  | .ok (_, c) => c
  | .error _ => c

end Connection

end CannedReply
