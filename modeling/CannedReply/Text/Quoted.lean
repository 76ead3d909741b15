import CannedReply.Text.Hex
import CannedReply.Text.Printable
/-!
# Quoted text

Texts as messages quote them: between apostrophes, or between quotation marks where the text
holds an apostrophe and no quotation mark; what is not printable is escaped.
-/

namespace CannedReply.Text.Quoted

/-- The shortest escape for the code of a character: two, four or eight digits. -/
def codeEscape (c : Char) : List Char :=
  let n := c.toNat
  if n < 0x100 then '\\' :: 'x' :: hex 2 n
  else if n < 0x10000 then '\\' :: 'u' :: hex 4 n
  else '\\' :: 'U' :: hex 8 n

def escape (quote c : Char) : List Char :=
  if c == quote || c == '\\' then ['\\', c]
  else if c == '\t' then ['\\', 't']
  else if c == '\n' then ['\\', 'n']
  else if c == '\r' then ['\\', 'r']
  else if isPrintable c then [c]
  else codeEscape c

def apostrophe : Char := Char.ofNat 39

def quoteFor (text : List Char) : Char :=
  if text.contains apostrophe && !text.contains '"' then '"' else apostrophe

def quoted (text : String) : String :=
  let quote := quoteFor text.toList
  String.ofList (quote :: text.toList.flatMap (escape quote) ++ [quote])

end CannedReply.Text.Quoted
