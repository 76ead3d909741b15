import CannedReply.Text.Hex
/-!
# JSON strings

String literals in printable ASCII: everything else is escaped, characters beyond U+FFFF as a
pair of surrogates.
-/

namespace CannedReply.Text.JsonString

def unit (n : Nat) : List Char := '\\' :: 'u' :: hex 4 n

def escape (c : Char) : List Char :=
  let n := c.toNat
  if c == '"' || c == '\\' then ['\\', c]
  else if c == '\n' then ['\\', 'n']
  else if c == '\r' then ['\\', 'r']
  else if c == '\t' then ['\\', 't']
  else if n == 8 then ['\\', 'b']
  else if n == 12 then ['\\', 'f']
  else if 0x20 ≤ n && n ≤ 0x7e then [c]
  else if n < 0x10000 then unit n
  else unit (0xd800 + (n - 0x10000) / 0x400) ++ unit (0xdc00 + (n - 0x10000) % 0x400)

def literal (text : String) : List Char :=
  '"' :: text.toList.flatMap escape ++ ['"']

end CannedReply.Text.JsonString
