import CannedReply.Framing.Error
import CannedReply.Latin1
import CannedReply.Numeral
/-!
# The framing fields of a head

`Content-Length` and `Transfer-Encoding` as the reader looks them up: the first line of that name
decides, and only the lines before it have to be header lines.
-/

namespace CannedReply.Framing.Head

/-- The value of the first field called `name`, which is in small letters. A line without a colon
before that field is an error; an empty line is passed over. -/
def firstValue? (name : Bytes) : List Bytes → Except Error (Option Bytes)
  | [] => .ok none
  | [] :: rest => firstValue? name rest
  | line :: rest =>
    match Delimiter.cut? [58] line with
    | none => .error .malformedHeader
    | some (key, value) =>
      if Latin1.lowerAll (Latin1.trim key) == name then .ok (some (Latin1.trim value))
      else firstValue? name rest

/-- The lines of a head below its first line. -/
def fieldLines (head : Bytes) : List Bytes := (Bytes.lines head).tail

def contentLengthName : Bytes := Bytes.ofText "content-length"

def transferEncodingName : Bytes := Bytes.ofText "transfer-encoding"

/-- How long the body is, going by `Content-Length`: zero without that field. -/
def contentLength (head : Bytes) : Except Error Nat :=
  match firstValue? contentLengthName (fieldLines head) with
  | .error e => .error e
  | .ok none => .ok 0
  | .ok (some value) =>
    match Numeral.decimal? value with
    | none => .error .invalidContentLength
    | some n => if n < 0 then .error .negativeContentLength else .ok n.toNat

/-- The value of `Transfer-Encoding` in small letters. -/
def transferEncoding? (head : Bytes) : Except Error (Option Bytes) :=
  (firstValue? transferEncodingName (fieldLines head)).map fun value => value.map Latin1.lowerAll

end CannedReply.Framing.Head
