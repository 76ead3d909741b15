/-!
# Fixed-width hexadecimal

Character codes as escapes write them: small hexadecimal digits, filled up with zeros.
-/

namespace CannedReply.Text

def hexDigit (n : Nat) : Char := Nat.digitChar (n % 16)

/-- The last `width` hexadecimal digits of `n`. -/
def hex : Nat → Nat → List Char
  | 0, _ => []
  | width + 1, n => hex width (n / 16) ++ [hexDigit n]

end CannedReply.Text
