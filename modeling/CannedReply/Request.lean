import CannedReply.Latin1
import CannedReply.OrderedMap
import CannedReply.Target.Path
/-!
# Requests

The head of a message read as a request: a request line of three parts, and header fields whose
names are in small letters. A field keeps the place of its first line and the value of its last.
-/

namespace CannedReply

inductive Version where
  | http10
  | http11
  deriving DecidableEq, Repr

namespace Version

def text : Version → String
  | http10 => "HTTP/1.0"
  | http11 => "HTTP/1.1"

def ofBytes? (s : Bytes) : Option Version :=
  if s == Bytes.ofText "HTTP/1.1" then some http11
  else if s == Bytes.ofText "HTTP/1.0" then some http10
  else none

end Version

structure Request where
  method : String
  /-- The path that the request is routed by. -/
  path : String
  /-- The target as it stands in the request line. -/
  target : String
  version : Version
  fields : OrderedMap String String

namespace Request

/-- Why a head is no request. -/
inductive HeadError where
  | missingRequestLine
  | invalidRequestLine
  | emptyToken
  | unsupportedVersion
  | targetTooLong
  | malformedField
  | emptyFieldName
  deriving DecidableEq, Repr

def HeadError.message : HeadError → String
  | missingRequestLine => "Missing request line"
  | invalidRequestLine => "Invalid request line"
  | emptyToken => "Request line contains empty tokens"
  | unsupportedVersion => "Unsupported HTTP version"
  | targetTooLong => "Request target too long"
  | malformedField => "Malformed header line"
  | emptyFieldName => "Header name cannot be empty"

inductive Error where
  | head (e : HeadError)
  | target (e : Target.Error)
  deriving DecidableEq, Repr

def Error.message : Error → String
  | head e => e.message
  | target e => e.message

/-- The longest target, in characters. -/
def maxTargetLength : Nat := 8192

structure Line where
  method : Bytes
  target : Bytes
  version : Version
  deriving DecidableEq, Repr

/-- The three parts of a request line, with single spaces between them. -/
def Line.parse (line : Bytes) : Except HeadError Line :=
  match line.splitOn 32 with
  | [method, target, version] =>
    if method.isEmpty || target.isEmpty || version.isEmpty then .error .emptyToken
    else
      match Version.ofBytes? version with
      | none => .error .unsupportedVersion
      | some version =>
        if maxTargetLength < target.length then .error .targetTooLong
        else .ok { method, target, version }
  | _ => .error .invalidRequestLine

/-- Name and value of a header line. -/
def parseField (line : Bytes) : Except HeadError (String × String) :=
  match Delimiter.cut? [58] line with
  | none => .error .malformedField
  | some (name, value) =>
    match Latin1.lowerAll (Latin1.trim name) with
    | [] => .error .emptyFieldName
    | name => .ok (Latin1.decode name, Latin1.decode (Latin1.trim value))

/-- Adds the header lines to `fields` one by one; an empty line is passed over. -/
def readFields (fields : OrderedMap String String) :
    List Bytes → Except HeadError (OrderedMap String String)
  | [] => .ok fields
  | [] :: rest => readFields fields rest
  | line :: rest =>
    match parseField line with
    | .error e => .error e
    | .ok (name, value) => readFields (fields.insert name value) rest

def ofLines : List Bytes → Except Error Request
  | [] => .error (.head .missingRequestLine)
  | [] :: _ => .error (.head .missingRequestLine)
  | first :: rest => do
    let line ← (Line.parse first).mapError .head
    let path ← (Target.path line.target).mapError .target
    let fields ← (readFields .empty rest).mapError .head
    return { method := Latin1.decode line.method
             path := Latin1.decode path
             target := Latin1.decode line.target
             version := line.version
             fields }

/-- Reads the head of a message; what follows the head does not matter. -/
def parse (message : Bytes) : Except Error Request :=
  ofLines (Bytes.lines (Delimiter.before Bytes.emptyLine message))

/-- The value of the `Host` field. -/
def host (r : Request) : String := (r.fields.get? "host").getD ""

end Request

end CannedReply
