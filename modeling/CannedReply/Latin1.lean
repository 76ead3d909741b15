import CannedReply.Bytes
import CannedReply.Text.Quoted
/-!
# Latin-1 text

Message heads are Latin-1: each byte is the character with the same code. Reading them never
fails; writing fails at the first character beyond U+00FF. Main statement: what was read is written
back as it was, `encode_decode`.
-/

namespace CannedReply.Latin1

/-- The white space of Latin-1: the controls U+0009 to U+000D and U+001C to U+001F, the space,
NEXT LINE and the no-break space. -/
def isBlank (b : UInt8) : Bool :=
  (9 ≤ b && b ≤ 13) || (28 ≤ b && b ≤ 32) || b == 0x85 || b == 0xa0

/-- The small letter of a capital; every other byte stays. -/
def lower (b : UInt8) : UInt8 :=
  if (65 ≤ b && b ≤ 90) || (0xc0 ≤ b && b ≤ 0xde && b != 0xd7) then b + 32 else b

/-- A field name or value without the white space around it. -/
def trim (s : Bytes) : Bytes := Delimiter.trim isBlank s

def lowerAll (s : Bytes) : Bytes := s.map lower

def decode (s : Bytes) : String := String.ofList (s.map Char.ofUInt8)

/-- A run of characters beyond U+00FF: the first one, where it stands, and how many follow it
directly. -/
structure Unencodable where
  position : Nat
  first : Char
  following : Nat
  deriving DecidableEq, Repr

/-- The run by its first position, or by its first and last if it is longer than one character. -/
def Unencodable.message (e : Unencodable) : String :=
  let place :=
    if e.following = 0 then
      " '" ++ String.ofList (Text.Quoted.codeEscape e.first) ++ "' in position " ++
        toString e.position
    else "s in position " ++ toString e.position ++ "-" ++ toString (e.position + e.following)
  "'latin-1' codec can't encode character" ++ place ++ ": ordinal not in range(256)"

def fits (c : Char) : Bool := c.toNat < 256

/-- The byte with the same code, of a character that fits. -/
def byteOf (c : Char) : UInt8 := UInt8.ofNat c.toNat

def encode (text : String) : Except Unencodable Bytes :=
  let front := text.toList.takeWhile fits
  match text.toList.dropWhile fits with
  | [] => .ok (front.map byteOf)
  | c :: rest => .error ⟨front.length, c, (rest.takeWhile fun d => !fits d).length⟩

@[simp] theorem fits_ofUInt8 (b : UInt8) : fits (Char.ofUInt8 b) = true :=
  decide_eq_true b.toNat_lt

@[simp] theorem byteOf_ofUInt8 (b : UInt8) : byteOf (Char.ofUInt8 b) = b :=
  UInt8.ofNat_toNat

theorem encode_decode (s : Bytes) : encode (decode s) = .ok s := by
  have hfits : (s.map Char.ofUInt8).takeWhile fits = s.map Char.ofUInt8 := by
    induction s with
    | nil => rfl
    | cons b s ih => rw [List.map_cons, List.takeWhile_cons_of_pos (fits_ofUInt8 b), ih]
  have hrest : (s.map Char.ofUInt8).dropWhile fits = [] := by
    rw [← List.append_cancel_left_eq, List.takeWhile_append_dropWhile, hfits, List.append_nil]
  rw [encode, decode, String.toList_ofList, hrest, hfits]
  simp [List.map_map, Function.comp_def]

end CannedReply.Latin1
