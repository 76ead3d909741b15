import CannedReply.Numeral
/-!
# Port arguments

A port is written as a decimal numeral of ASCII digits with an optional sign, and lies between 0
and 65535.
-/

namespace CannedReply.Port

inductive Error where
  | notANumeral
  | tooManyDigits (count : Nat)
  | outOfRange
  deriving DecidableEq, Repr

def isDigit (c : Char) : Bool := '0' ≤ c && c ≤ '9'

/-- Whether a minus sign leads, and what follows the optional sign. -/
def sign : List Char → Bool × List Char
  | '+' :: rest => (false, rest)
  | '-' :: rest => (true, rest)
  | s => (false, s)

def value (digits : List Char) : Nat := Numeral.value 10 (digits.map fun c => c.toNat - 48)

def parse (text : String) : Except Error Nat :=
  let (negative, digits) := sign text.toList
  if digits.isEmpty || !digits.all isDigit then .error .notANumeral
  else if Numeral.maxDecimalDigits < digits.length then .error (.tooManyDigits digits.length)
  else
    let n := value digits
    if (negative && n ≠ 0) || 65535 < n then .error .outOfRange else .ok n

/-- What is said about an argument that is no port. -/
def Error.message (text : String) : Error → String
  | notANumeral => "Cannot parse argument " ++ text
  | outOfRange => "Port out of range: " ++ text
  | tooManyDigits count =>
    "Exceeds the limit (" ++ toString Numeral.maxDecimalDigits ++
      " digits) for integer string conversion: value has " ++ toString count ++
      " digits; use sys.set_int_max_str_digits() to increase the limit"

end CannedReply.Port
