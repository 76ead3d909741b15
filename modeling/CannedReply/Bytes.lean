import CannedReply.Delimiter
/-!
# Bytes

Byte strings as lists, the classes of ASCII bytes, and the cut at line ends.
-/

namespace CannedReply

/-- What a peer sends or is sent. -/
abbrev Bytes := List UInt8

end CannedReply

namespace CannedReply.Bytes

open Delimiter

/-- The bytes of a text whose characters all lie below U+0100. -/
def ofText (text : String) : Bytes :=
  text.toList.map fun c => UInt8.ofNat c.toNat

/-- The line end of the protocol. -/
def crlf : Bytes := [13, 10]

/-- The line end of a last line and the empty line behind it. -/
def emptyLine : Bytes := [13, 10, 13, 10]

def isDigit (b : UInt8) : Bool := 48 ≤ b && b ≤ 57

def isLetter (b : UInt8) : Bool := (65 ≤ b && b ≤ 90) || (97 ≤ b && b ≤ 122)

/-- The blanks of ASCII: TAB, LF, VT, FF, CR and the space. -/
def isBlank (b : UInt8) : Bool := (9 ≤ b && b ≤ 13) || b == 32

def decimalDigit? (b : UInt8) : Option Nat :=
  if isDigit b then some (b.toNat - 48) else none

/-- The value of a hexadecimal digit, in either letter case. -/
def hexDigit? (b : UInt8) : Option Nat :=
  if isDigit b then some (b.toNat - 48)
  else if 97 ≤ b && b ≤ 102 then some (b.toNat - 87)
  else if 65 ≤ b && b ≤ 70 then some (b.toNat - 55)
  else none

/-- The loop behind `lines`: `done` holds the finished lines and `line` the bytes of the current
one, both last first. -/
def linesFrom (done : List Bytes) (line : Bytes) : Bytes → List Bytes
  | [] => (line.reverse :: done).reverse
  | 13 :: 10 :: rest => linesFrom (line.reverse :: done) [] rest
  | b :: rest => linesFrom done (b :: line) rest

/-- The lines of a text, cut at every CR LF. A bare CR or LF is part of its line. -/
def lines (s : Bytes) : List Bytes := linesFrom [] [] s

/-- The first line and what follows its CR LF, if one is there. -/
def line? (s : Bytes) : Option (Bytes × Bytes) := cut? crlf s

theorem append_of_line? {s line rest : Bytes} (h : line? s = some (line, rest)) :
    s = line ++ (crlf ++ rest) :=
  append_of_cut? h

theorem length_lt_of_line? {s line rest : Bytes} (h : line? s = some (line, rest)) :
    rest.length < s.length :=
  length_lt_of_cut? (by decide) h

end CannedReply.Bytes
