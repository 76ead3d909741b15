import CannedReply.Connection
import CannedReply.Outcome
import CannedReply.Port
import CannedReply.Reading
import CannedReply.ReplyFile
import CannedReply.Request
/-!
# Log records

A record holds what happened, so that its level, its source and its sentence follow from it. The
sentence of an outcome is its summary, in a plain or in a JSON format.
-/

namespace CannedReply.Log

inductive Level where
  | debug
  | info
  | warning
  | error
  | critical
  deriving DecidableEq, Repr

namespace Level

def name : Level → String
  | debug => "DEBUG"
  | info => "INFO"
  | warning => "WARNING"
  | error => "ERROR"
  | critical => "CRITICAL"

/-- Whether records of this level are shown to the user of the program. -/
def isShown : Level → Bool
  | debug => false
  | _ => true

end Level

inductive Source where
  | server
  | replyFile
  deriving DecidableEq, Repr

def Source.name : Source → String
  | server => "server"
  | replyFile => "reply_loader"

inductive Record where
  | replyLoaded (count : Nat) (path : String)
  | replyMissing (cause : ReplyFile.Error)
  | badPort (text : String) (cause : Port.Error)
  | listening (port : Int)
  | listenerFailed (port : Int) (cause : SysError)
  /-- The connection was lost before the message was complete. -/
  | dropped (client : String) (cause : SysError)
  /-- No message could be read. -/
  | unreadable (client : String) (cause : Reading.Error)
  /-- A message was read that is no request. -/
  | malformed (client : String) (cause : Request.HeadError)
  | received (host target : String)
  | takeoverFailed (cause : Connection.TakeoverError)
  /-- The client could not be told that the takeover failed. -/
  | unreported (cause : Connection.SendError)
  | writeFailed (client : String) (cause : SysError)
  | concluded (summary : Summary) (json : Bool)
  /-- The visit ended after a takeover. -/
  | ended
  deriving DecidableEq, Repr

namespace Record

def level : Record → Level
  | replyLoaded .. | listening .. | unreadable .. | malformed .. | received .. | concluded .. =>
    .info
  | replyMissing .. => .warning
  | badPort .. | takeoverFailed .. => .error
  | listenerFailed .. => .critical
  | dropped .. | unreported .. | writeFailed .. | ended => .debug

def source : Record → Source
  | replyLoaded .. | replyMissing .. => .replyFile
  | _ => .server

def message : Record → String
  | replyLoaded count path => "Loaded " ++ toString count ++ " reply bytes from " ++ path
  | replyMissing cause => "Serving empty reply: " ++ cause.message
  | badPort text cause => cause.message text
  | listening port => "Starting Mock Server listening to " ++ toString port
  | listenerFailed port cause =>
    "Listener failed on port " ++ toString port ++ ": " ++ cause.message
  | dropped client cause =>
    "Connection from " ++ client ++ " dropped while reading: " ++ cause.message
  | unreadable client cause => "Unreadable request from " ++ client ++ ": " ++ cause.message
  | malformed client cause => "Malformed request from " ++ client ++ ": " ++ cause.message
  | received host target => "Received request for host " ++ host ++ " and url " ++ target
  | takeoverFailed cause => "Connection takeover failed: " ++ cause.message
  | unreported cause => "Could not report takeover failure: " ++ cause.message
  | writeFailed client cause => "Raw write to " ++ client ++ " failed: " ++ cause.message
  | concluded summary json => if json then summary.jsonLine else summary.plainLine
  | ended => "End of handler"

/-- The summary of an outcome, if the record is one. -/
def summary? : Record → Option Summary
  | concluded summary _ => some summary
  | _ => none

/-- A record as a line of the error output. -/
def line (r : Record) : String :=
  r.level.name ++ ":" ++ r.source.name ++ ":" ++ r.message ++ "\n"

end Record

/-- The lines of the records that the user sees. -/
def shown (records : List Record) : String :=
  String.join ((records.filter fun r => r.level.isShown).map Record.line)

end CannedReply.Log
