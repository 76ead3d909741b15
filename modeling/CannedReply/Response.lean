import CannedReply.HttpDate
import CannedReply.Latin1
import CannedReply.Numeral
import CannedReply.OrderedMap
import CannedReply.Text.Utf8
/-!
# Responses

Structured responses and their bytes. Fields that the response does not set get defaults, and
`Content-Length` is always the length of the body. A response has no bytes if there is no date for
it, if its status is too long a number, or if its head has a character that Latin-1 does not have.
-/

namespace CannedReply

structure Response where
  status : Int
  reason : Option String := none
  fields : OrderedMap String String := .empty
  body : Bytes := []

namespace Response

/-- The name that the `Server` field carries. -/
def serverName : String := "mockprox"

def standardReason (status : Int) : String :=
  if status = 200 then "OK"
  else if status = 400 then "Bad Request"
  else if status = 404 then "Not Found"
  else if status = 500 then "Internal Server Error"
  else "Unknown"

/-- The reason given, unless it is empty; else the standard one. -/
def reasonText (r : Response) : String :=
  match r.reason with
  | none => standardReason r.status
  | some text => if text.isEmpty then standardReason r.status else text

inductive Error where
  | date (e : HttpDate.Error)
  | overlongStatus
  | unencodable (e : Latin1.Unencodable)
  deriving DecidableEq, Repr

def Error.message : Error → String
  | date e => e.message
  | overlongStatus =>
    "Exceeds the limit (" ++ toString Numeral.maxDecimalDigits ++
      " digits) for integer string conversion; " ++
      "use sys.set_int_max_str_digits() to increase the limit"
  | unencodable e => e.message

/-- Whether it is the system that reports the error. -/
def Error.isSystem : Error → Bool
  | date .calendarOverflow => true
  | _ => false

/-- The fields as they are written: the given ones in their order, then the defaults. -/
def completeFields (date : String) (r : Response) : OrderedMap String String :=
  ((((r.fields.insertNew "Date" date).insertNew "Server" serverName).insertNew
    "Content-Type" "text/plain; charset=utf-8").insertNew "Connection" "close").insert
    "Content-Length" (toString r.body.length)

/-- The status has no more digits than a numeral may have. -/
def StatusFits (r : Response) : Prop :=
  (toString r.status.natAbs).length ≤ Numeral.maxDecimalDigits

instance (r : Response) : Decidable r.StatusFits := inferInstanceAs (Decidable (_ ≤ _))

def statusLine (r : Response) : String :=
  "HTTP/1.1 " ++ toString r.status ++ " " ++ r.reasonText

def headText (date : String) (r : Response) : String :=
  String.intercalate "\r\n"
    (r.statusLine :: (r.completeFields date).entries.map fun (name, value) => name ++ ": " ++ value)

/-- The bytes of a response sent at the Unix time `now`. -/
def toBytes (now : Int) (r : Response) : Except Error Bytes := do
  let date ← (HttpDate.ofUnix now).mapError .date
  if r.StatusFits then
    let head ← (Latin1.encode (r.headText date)).mapError .unencodable
    return head ++ Bytes.emptyLine ++ r.body
  else throw .overlongStatus

/-- The response that reports a failure of the server. -/
def internalError (text : String) : Response :=
  { status := 500, body := Text.Utf8.encode (text ++ "\n") }

end Response

end CannedReply
