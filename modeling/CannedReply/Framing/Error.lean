/-!
# Framing errors

Why a byte stream cannot be a request, and the sentence that says so.
-/

namespace CannedReply.Framing

inductive Error where
  | malformedHeader
  | invalidContentLength
  | negativeContentLength
  | missingChunkSize
  | malformedChunkSize
  | chunkSizeTooLong
  | missingChunkEnd
  | malformedTrailer
  | headTooLarge
  | trailersTooLarge
  | bodyTooLarge
  | chunkedBodyTooLarge
  deriving DecidableEq, Repr

/-- What a limit or the grammar has to do with an error. -/
inductive Error.Category where
  | malformed
  | headTooLarge
  | bodyTooLarge
  deriving DecidableEq, Repr

namespace Error

def category : Error → Category
  | headTooLarge | trailersTooLarge => .headTooLarge
  | bodyTooLarge | chunkedBodyTooLarge => .bodyTooLarge
  | _ => .malformed

def message : Error → String
  | malformedHeader => "Malformed header while reading request"
  | invalidContentLength => "Invalid Content-Length header"
  | negativeContentLength => "Negative Content-Length header"
  | missingChunkSize => "Missing chunk size"
  | malformedChunkSize => "Malformed chunk size"
  | chunkSizeTooLong => "Chunk size line too long"
  | missingChunkEnd => "Chunk missing CRLF terminator"
  | malformedTrailer => "Malformed chunked trailer"
  | headTooLarge => "Headers exceeded MAX_HEADER_BYTES"
  | trailersTooLarge => "Chunked trailers exceeded MAX_HEADER_BYTES"
  | bodyTooLarge => "Body exceeded MAX_BODY_BYTES"
  | chunkedBodyTooLarge => "Decoded chunked body exceeded MAX_BODY_BYTES"

end Error

end CannedReply.Framing
