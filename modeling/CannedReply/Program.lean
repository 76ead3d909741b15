import CannedReply.CommandLine
import CannedReply.ReplyFile.Fallback
import CannedReply.Server
/-!
# The program

From the words of the command line to the exit code: choose the port, load the reply, and serve
until the listening socket is given up.
-/

namespace CannedReply.Program

/-- What the program meets: its files, its listening socket and its clock. -/
structure World where
  storage : ReplyFile.Storage := {}
  listener : Listener := {}
  now : Int := 0

inductive Ending where
  | returned (code : Nat)
  /-- The command line ended the program. -/
  | exited (code : Nat)
  /-- The program broke off with a message. -/
  | failed (message : String)
  deriving DecidableEq, Repr

structure Run where
  ending : Ending
  output : String := ""
  errors : String := ""
  calls : List ListenerCall := []
  visits : List Visit := []
  /-- The names of the workers that made the visits. -/
  workers : List String := []

/-- A run whose server came to an end, with the records made before it started. -/
def ofSession (ending : Ending) (log : List Log.Record) (s : Server.Session) : Run :=
  { ending
    output := s.echo
    errors := Log.shown (log ++ s.log)
    calls := s.calls
    visits := s.visits
    workers := s.workers }

def ofRecord (code : Nat) (record : Log.Record) : Run :=
  { ending := .returned code, errors := Log.shown [record] }

/-- Serves on a port, with the records made before. -/
def listen (world : World) (settings : Settings) (log : List Log.Record) : Run :=
  let s := (Server.create settings none).start world.now world.listener
  match s.failure with
  | none => ofSession (.returned 0) log s
  | some .interrupted => ofSession (.returned 0) log s.stop
  | some (.system e) =>
    ofSession (.returned 1) log { s with log := s.log ++ [.listenerFailed settings.port e] }

def serve (world : World) (arguments : CommandLine.Arguments) (port : Int) : Run :=
  match ReplyFile.loadOrEmpty world.storage ReplyFile.defaultPath with
  | .error e => { ending := .failed e.message }
  | .ok (reply, record) =>
    listen world
      { port, reply, logFormat := arguments.logFormat, echo := !arguments.quiet } [record]

def defaultPort : Int := 80

def run (words : List String) (world : World) : Run :=
  match CommandLine.parse words with
  | .error e => { ending := .exited 2, errors := e.text }
  | .ok .help => { ending := .exited 0, output := CommandLine.helpText }
  | .ok (.serve arguments) =>
    match arguments.port with
    | none => serve world arguments defaultPort
    | some text =>
      match Port.parse text with
      | .ok port => serve world arguments port
      | .error (.tooManyDigits count) =>
        { ending := .failed ((Port.Error.tooManyDigits count).message text) }
      | .error e => ofRecord 1 (.badPort text e)

end CannedReply.Program
