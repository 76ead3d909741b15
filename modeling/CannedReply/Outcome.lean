import CannedReply.Decimal
import CannedReply.Text.JsonString
/-!
# Outcomes

How a connection ended, and the line that logs it, in a plain and in a JSON format.
-/

namespace CannedReply

inductive Outcome where
  | reply
  | unknown
  | writeFailed
  | takeoverUnsupported
  | takeoverFailed
  deriving DecidableEq, Repr

def Outcome.name : Outcome → String
  | reply => "reply"
  | unknown => "unknown"
  | writeFailed => "write_failed"
  | takeoverUnsupported => "hijack_unsupported"
  | takeoverFailed => "hijack_failed"

/-- A reading of a clock that counts microseconds, in seconds. -/
def readingSeconds (micros : Int) : Rat := Binary64.round ((micros : Rat) / 1000000)

/-- The milliseconds between two readings of a clock that counts microseconds, in floating-point
arithmetic. -/
def elapsedMillis (start stop : Int) : Binary64 :=
  match Binary64.ofRat (readingSeconds stop - readingSeconds start) with
  | .finite elapsed => .ofRat (elapsed * 1000)
  | infinite => infinite

structure Summary where
  client : String
  /-- Method and path of the request, if one was understood. -/
  request : Option (String × String)
  outcome : Outcome
  bytesSent : Nat
  millis : Binary64
  deriving DecidableEq, Repr

namespace Summary

def method (s : Summary) : String := (s.request.map Prod.fst).getD "-"

def path (s : Summary) : String := (s.request.map Prod.snd).getD "-"

def signed (negative : Bool) (text : String) : List Char :=
  if negative then '-' :: text.toList else text.toList

/-- A duration with two decimal places. -/
def plainDuration : Binary64 → List Char
  | .finite q => Decimal.fixed 2 q
  | .infinity negative => signed negative "inf"

/-- A duration to three decimal places, in as few digits as possible. -/
def jsonDuration : Binary64 → List Char
  | .finite q => Decimal.shortest (Decimal.roundPlaces 3 q)
  | .infinity negative => signed negative "Infinity"

def plainLine (s : Summary) : String :=
  "client=" ++ s.client ++ " method=" ++ s.method ++ " path=" ++ s.path ++ " outcome=" ++
    s.outcome.name ++ " bytes_out=" ++ toString s.bytesSent ++ " duration_ms=" ++
    String.ofList (plainDuration s.millis)

/-- The members of the JSON object, by name, with the texts of their values. -/
def members (s : Summary) : List (String × List Char) := [
  ("bytes_out", Decimal.digits s.bytesSent),
  ("client", Text.JsonString.literal s.client),
  ("latency_ms", jsonDuration s.millis),
  ("method", Text.JsonString.literal s.method),
  ("outcome", Text.JsonString.literal s.outcome.name),
  ("path", Text.JsonString.literal s.path)]

def member (m : String × List Char) : List Char :=
  Text.JsonString.literal m.1 ++ ':' :: ' ' :: m.2

def jsonLine (s : Summary) : String :=
  String.ofList ('\x7b' :: [',', ' '].intercalate (s.members.map member) ++ ['\x7d'])

end Summary

end CannedReply
