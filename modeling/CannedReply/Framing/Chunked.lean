import CannedReply.Framing.Error
import CannedReply.Numeral
/-!
# Chunked bodies

Where a chunked body ends: chunks of a size line and data, a size line of value zero, trailer
lines and an empty line. `Chunked.length?` answers `none` while the end has not arrived.
-/

namespace CannedReply.Framing

/-- The longest head, and the longest unfinished size or trailer line. -/
def maxHeadBytes : Nat := 16384

/-- The longest body, chunk framing not counted. -/
def maxBodyBytes : Nat := 1048576

namespace Chunked

/-- The number on a size line: what stands before the first semicolon, without the blanks around
it, is a hexadecimal numeral. -/
def size? (line : Bytes) : Except Error Nat :=
  match Delimiter.trim Bytes.isBlank (Delimiter.before [59] line) with
  | [] => .error .missingChunkSize
  | token =>
    match Numeral.hexadecimal? token with
    | none => .error .malformedChunkSize
    | some n => if n < 0 then .error .malformedChunkSize else .ok n.toNat

/-- The length of `consumed` bytes and the trailers that start `s`, with their empty line. -/
def trailersFrom (consumed : Nat) (s : Bytes) : Except Error (Option Nat) :=
  match _h : Bytes.line? s with
  | none => if maxHeadBytes < s.length then .error .trailersTooLarge else .ok none
  | some ([], _) => .ok (some (consumed + 2))
  | some (line, rest) =>
    if line.contains 58 then trailersFrom (consumed + line.length + 2) rest
    else .error .malformedTrailer
termination_by s.length
decreasing_by exact Bytes.length_lt_of_line? ‹_›

/-- The length of `consumed` bytes and the chunks and trailers that start `s`, where `decoded`
counts the data bytes of the chunks passed so far. -/
def chunksFrom (consumed decoded : Nat) (s : Bytes) : Except Error (Option Nat) :=
  match _h : Bytes.line? s with
  | none => if maxHeadBytes < s.length then .error .chunkSizeTooLong else .ok none
  | some (line, rest) =>
    match size? line with
    | .error e => .error e
    | .ok 0 => trailersFrom (consumed + line.length + 2) rest
    | .ok size =>
      if maxBodyBytes < decoded + size then .error .chunkedBodyTooLarge
      else
        match _ht : rest.drop size with
        | [] => .ok none
        | [_] => .ok none
        | 13 :: 10 :: tail =>
          chunksFrom (consumed + line.length + 2 + size + 2) (decoded + size) tail
        | _ => .error .missingChunkEnd
termination_by s.length
decreasing_by
  have h₁ := Bytes.length_lt_of_line? ‹_›
  have h₂ := congrArg List.length ‹rest.drop _ = _›
  simp only [List.length_drop, List.length_cons] at h₂
  omega

/-- The length of the chunked body that starts `s`, or `none` if it is not complete. -/
def length? (s : Bytes) : Except Error (Option Nat) := chunksFrom 0 0 s

end Chunked

end CannedReply.Framing
