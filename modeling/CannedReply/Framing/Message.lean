import CannedReply.Framing.Chunked
import CannedReply.Framing.Head
/-!
# The first message of a buffer

A message is a head, the empty line behind it, and a body that is chunked or of declared length.
-/

namespace CannedReply.Framing

/-- Whether a transfer encoding announces chunks. -/
def isChunked (encoding : Bytes) : Bool :=
  Delimiter.occursIn (Bytes.ofText "chunked") encoding

/-- The length of the body that starts `rest`, or `none` if it is not complete. -/
def bodyLength? (head rest : Bytes) : Except Error (Option Nat) := do
  if ((← Head.transferEncoding? head).map isChunked).getD false then
    Chunked.length? rest
  else
    let length ← Head.contentLength head
    if maxBodyBytes < length then .error .bodyTooLarge
    else if rest.length < length then .ok none
    else .ok (some length)

/-- The first message of a buffer, or `none` if it is not complete. -/
def message? (buffer : Bytes) : Except Error (Option Bytes) :=
  match Delimiter.cut? Bytes.emptyLine buffer with
  | none => if maxHeadBytes < buffer.length then .error .headTooLarge else .ok none
  | some (head, rest) =>
    if maxHeadBytes < head.length + 4 then .error .headTooLarge
    else (bodyLength? head rest).map fun length =>
      length.map fun n => buffer.take (head.length + 4 + n)

end CannedReply.Framing
