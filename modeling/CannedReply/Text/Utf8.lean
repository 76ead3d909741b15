import CannedReply.Bytes
/-!
# UTF-8

Encoding of texts, and a decoding that never fails: each longest piece that starts a character
but does not finish it, and each byte that can start none, reads as U+FFFD.
-/

namespace CannedReply.Text.Utf8

def encode (text : String) : Bytes := text.toList.flatMap String.utf8EncodeChar

def replacement : Char := Char.ofNat 0xfffd

def isTail (b : UInt8) : Bool := 0x80 ≤ b && b ≤ 0xbf

/-- The second bytes that may follow the first byte of a three-byte character. -/
def second3 (a b : UInt8) : Bool :=
  if a == 0xe0 then 0xa0 ≤ b && b ≤ 0xbf
  else if a == 0xed then 0x80 ≤ b && b ≤ 0x9f
  else isTail b

/-- The second bytes that may follow the first byte of a four-byte character. -/
def second4 (a b : UInt8) : Bool :=
  if a == 0xf0 then 0x90 ≤ b && b ≤ 0xbf
  else if a == 0xf4 then 0x80 ≤ b && b ≤ 0x8f
  else isTail b

def bits (b : UInt8) (n : Nat) : Nat := b.toNat % n

def char2 (a b : UInt8) : Char := Char.ofNat (bits a 32 * 64 + bits b 64)

def char3 (a b c : UInt8) : Char :=
  Char.ofNat ((bits a 16 * 64 + bits b 64) * 64 + bits c 64)

def char4 (a b c d : UInt8) : Char :=
  Char.ofNat (((bits a 8 * 64 + bits b 64) * 64 + bits c 64) * 64 + bits d 64)

/-- The loop behind `decode`; `read` holds the characters read so far, last first. -/
def decodeFrom (read : List Char) : Bytes → List Char
  | [] => read.reverse
  | a :: s =>
    if a < 0x80 then decodeFrom (Char.ofNat a.toNat :: read) s
    else if 0xc2 ≤ a && a ≤ 0xdf then
      match s with
      | b :: s₁ =>
        if isTail b then decodeFrom (char2 a b :: read) s₁
        else decodeFrom (replacement :: read) (b :: s₁)
      | [] => (replacement :: read).reverse
    else if 0xe0 ≤ a && a ≤ 0xef then
      match s with
      | b :: s₁ =>
        if second3 a b then
          match s₁ with
          | c :: s₂ =>
            if isTail c then decodeFrom (char3 a b c :: read) s₂
            else decodeFrom (replacement :: read) (c :: s₂)
          | [] => (replacement :: read).reverse
        else decodeFrom (replacement :: read) (b :: s₁)
      | [] => (replacement :: read).reverse
    else if 0xf0 ≤ a && a ≤ 0xf4 then
      match s with
      | b :: s₁ =>
        if second4 a b then
          match s₁ with
          | c :: s₂ =>
            if isTail c then
              match s₂ with
              | d :: s₃ =>
                if isTail d then decodeFrom (char4 a b c d :: read) s₃
                else decodeFrom (replacement :: read) (d :: s₃)
              | [] => (replacement :: read).reverse
            else decodeFrom (replacement :: read) (c :: s₂)
          | [] => (replacement :: read).reverse
        else decodeFrom (replacement :: read) (b :: s₁)
      | [] => (replacement :: read).reverse
    else decodeFrom (replacement :: read) s

def decode (s : Bytes) : String := String.ofList (decodeFrom [] s)

end CannedReply.Text.Utf8
