import CannedReply.Service
/-!
# Servers

A server listens on a port and serves the clients that it accepts, one after the other, until it
is stopped, interrupted, or no longer able to accept. It can be started again, and then goes on
with the port and the count of clients that it had.
-/

namespace CannedReply

/-- What waiting for the next client ends in. -/
inductive Event where
  | client (c : Client)
  | timeout
  /-- The server is told to stop while it waits. -/
  | stop
  | interrupt
  | fault (e : SysError)

/-- What a server asks of its listening socket. -/
inductive ListenerCall where
  | reuseAddress
  | bind (host : String) (port : Int)
  | listen (backlog : Nat)
  | setTimeout (millis : Nat)
  | close
  deriving DecidableEq, Repr

/-- What a listening socket will meet. -/
structure Listener where
  events : List Event := []
  bindFault : Option SysError := none
  listenFault : Option SysError := none
  /-- The port that the system chooses when asked for port 0. -/
  freePort : Int := 40000

structure Server where
  settings : Settings
  routes : Routes
  port : Int
  running : Bool := false
  /-- Whether the server holds a listening socket, open or closed. -/
  listening : Bool := false
  /-- How many clients have been accepted. -/
  accepted : Nat := 0

namespace Server

/-- The name of the worker that serves the client with the given number, counted from 1. -/
def workerName (number : Nat) : String := "mock-conn-" ++ toString number

/-- A server with the given routes, or with the canned route if there are none. -/
def create (settings : Settings) (routes : Option Routes) : Server :=
  let given := routes.getD .empty
  { settings
    port := settings.port
    routes := if given.size = 0 then Routes.canned settings.reply else given }

inductive Failure where
  | system (e : SysError)
  | interrupted
  deriving DecidableEq, Repr

/-- What a run of a server, or a part of one, leaves behind. -/
structure Session where
  server : Server
  calls : List ListenerCall := []
  visits : List Visit := []
  /-- The names of the workers that made the visits. -/
  workers : List String := []
  log : List Log.Record := []
  failure : Option Failure := none

namespace Session

def call (c : ListenerCall) (s : Session) : Session := { s with calls := s.calls ++ [c] }

def fail (f : Failure) (s : Session) : Session := { s with failure := some f }

/-- Closes the listening socket, if the server holds one, and lets go of it. -/
def stop (s : Session) : Session :=
  let s := if s.server.listening then s.call .close else s
  { s with server := { s.server with running := false, listening := false } }

/-- Serves the next client. -/
def visit (now : Int) (client : Client) (s : Session) : Session :=
  let v := Service.serve s.server.settings s.server.routes now client
  let number := s.server.accepted + 1
  { s with
    server := { s.server with accepted := number }
    visits := s.visits ++ [v]
    workers := s.workers ++ [workerName number]
    log := s.log ++ v.log }

/-- Accepts clients as long as the server runs. -/
def accept (now : Int) : List Event → Session → Session
  | [], s => s
  | event :: rest, s =>
    if !s.server.running then s
    else
      match event with
      | .client c => accept now rest (s.visit now c)
      | .timeout => accept now rest s
      | .stop => accept now rest s.stop
      | .interrupt => s.fail .interrupted
      | .fault e => if e.isTimeout then accept now rest s else s

/-- What the visits echoed. -/
def echo (s : Session) : String := String.join (s.visits.map Visit.echo)

end Session

/-- How many clients may wait to be accepted. -/
def backlog : Nat := 128

/-- How long the server waits for a client before it looks whether it still runs, in
milliseconds. -/
def acceptTimeout : Nat := 200

def stop (server : Server) : Session := { server : Session }.stop

/-- A bound and listening server before its first client. -/
def opened (freePort : Int) (s : Session) : Session :=
  let port := if s.server.port = 0 then freePort else s.server.port
  { s with
    server := { s.server with port, running := true }
    log := s.log ++ [.listening port] }

/-- Listens and serves until the listening socket is given up, which is then closed. -/
def start (now : Int) (listener : Listener) (server : Server) : Session :=
  let s : Session := { server := { server with listening := true } }
  let s := (s.call .reuseAddress).call (.bind server.settings.host server.port)
  let s := match listener.bindFault with
    | some e => s.fail (.system e)
    | none =>
      let s := s.call (.listen backlog)
      match listener.listenFault with
      | some e => s.fail (.system e)
      | none =>
        (opened listener.freePort (s.call (.setTimeout acceptTimeout))).accept now listener.events
  s.call .close

/-- What the owner of a server does with it. -/
inductive Step where
  | start (listener : Listener)
  | stop

def perform (now : Int) (server : Server) : Step → Session
  | .start listener => server.start now listener
  | .stop => server.stop

/-- The sessions of a history, each with the server that the session before it left behind. -/
def history (now : Int) (server : Server) : List Step → List Session
  | [] => []
  | step :: rest =>
    let s := server.perform now step
    s :: s.server.history now rest

end Server

end CannedReply
