import CannedReply.Log
import CannedReply.Routes
import CannedReply.Settings
/-!
# Serving a client

One client from its first byte to its closed socket: read a message, choose the payload, take the
socket over, echo and send. Every way out closes the socket.
-/

namespace CannedReply

/-- A client as it is accepted, with the readings of the clock at the start and the end of its
visit, in microseconds. -/
structure Client where
  socket : Socket
  host : String := "127.0.0.1"
  start : Int := 0
  stop : Int := 0

/-- An error that ends a visit without an outcome. -/
inductive Fault where
  | target (e : Target.Error)
  | response (e : Response.Error)
  deriving DecidableEq, Repr

def Fault.message : Fault → String
  | target e => e.message
  | response e => e.message

/-- What a visit leaves behind. -/
structure Visit where
  socket : Socket
  log : List Log.Record := []
  echo : String := ""
  fault : Option Fault := none

namespace Service

/-- How long a client may keep the server waiting, in seconds. -/
def patience : Nat := 5

/-- The payload for a request, or for a message that is none. -/
def select (routes : Routes) (request : Option Request) : Bytes × Outcome :=
  match request with
  | none => (Handler.unknownRequest none, .unknown)
  | some r =>
    match routes.resolve? r.method r.path with
    | none => (Handler.unknownRequest (some r), .unknown)
    | some handler => (handler r, .reply)

/-- The record of a request that was understood. -/
def received (request : Option Request) : List Log.Record :=
  request.toList.map fun r => .received r.host r.target

/-- The record of an outcome. -/
def concluded (settings : Settings) (client : Client) (request : Option Request)
    (outcome : Outcome) (bytesSent : Nat) : Log.Record :=
  .concluded
    { client := client.host
      request := request.map fun r => (r.method, r.path)
      outcome
      bytesSent
      millis := elapsedMillis client.start client.stop }
    settings.logsJson

/-- Tells the client by a response that its connection could not be taken over. -/
def refuse (settings : Settings) (now : Int) (client : Client) (request : Option Request)
    (e : Connection.TakeoverError) (c : Connection) (log : List Log.Record) : Visit :=
  let conclude (sent : Nat) :=
    concluded settings client request
      (if e = .unsupported then .takeoverUnsupported else .takeoverFailed) sent
  let log := log ++ [.takeoverFailed e]
  match c.sendResponse now (.internalError e.message) with
  | .ok (sent, c) => { socket := c.close.socket, log := log ++ [conclude sent] }
  | .error failure =>
    match failure.escaping? with
    | some e => { socket := c.close.socket, log, fault := some (.response e) }
    | none => { socket := c.close.socket, log := log ++ [.unreported failure, conclude 0] }

/-- Sends the payload on a connection that has been taken over, and closes its socket. -/
def deliver (settings : Settings) (client : Client) (request : Option Request) (payload : Bytes)
    (outcome : Outcome) (c : Connection) (log : List Log.Record) : Visit :=
  let echo := if settings.echo then Text.Utf8.decode payload ++ "\n" else ""
  match c.sendRaw payload with
  | .ok (sent, c) =>
    { socket := c.closeSocket.close.socket
      echo
      log := log ++ [concluded settings client request outcome sent, .ended] }
  | .error e =>
    { socket := c.closeSocket.close.socket
      echo
      log := log ++
        [.writeFailed client.host e, concluded settings client request .writeFailed 0, .ended] }

/-- Answers a request, or a message that is none. -/
def answer (settings : Settings) (routes : Routes) (now : Int) (client : Client)
    (request : Option Request) (c : Connection) (log : List Log.Record) : Visit :=
  let (payload, outcome) := select routes request
  let log := log ++ received request
  match c.takeOver with
  | .error e => refuse settings now client request e c log
  | .ok taken => deliver settings client request payload outcome taken log

def serve (settings : Settings) (routes : Routes) (now : Int) (client : Client) : Visit :=
  let (result, socket) := Reading.readMessage (client.socket.setPatience patience)
  let c : Connection := { socket, offersTakeover := settings.takeover }
  match result with
  | .ok [] => { socket := c.close.socket }
  | .ok message =>
    match Request.parse message with
    | .ok request => answer settings routes now client (some request) c []
    | .error (.head e) => answer settings routes now client none c [.malformed client.host e]
    | .error (.target e) => { socket := c.close.socket, fault := some (.target e) }
  | .error (.lost e) => { socket := c.close.socket, log := [.dropped client.host e] }
  | .error e => answer settings routes now client none c [.unreadable client.host e]

end Service

end CannedReply
