import CannedReply.Bytes
/-!
# Integer numerals

Signed numerals as header values and chunk sizes write them: a single underscore may stand
between two digits, and a hexadecimal numeral may announce itself by `0x`. Main statement: long
numerals can be valued by halves, `longValue_eq_value`.
-/

namespace CannedReply.Numeral

/-- The loop behind `digits?`: a digit is due at the start and after every underscore. -/
@[specialize] def digitsFrom (digit? : UInt8 → Option Nat) (read : List Nat) :
    Bytes → Option (List Nat)
  | [] => none
  | [b] => (digit? b).map fun d => (d :: read).reverse
  | b :: 95 :: rest =>
    match digit? b with
    | some d => digitsFrom digit? (d :: read) rest
    | none => none
  | b :: rest =>
    match digit? b with
    | some d => digitsFrom digit? (d :: read) rest
    | none => none

/-- The digits of an unsigned numeral, first digit first. -/
def digits? (digit? : UInt8 → Option Nat) (s : Bytes) : Option (List Nat) :=
  digitsFrom digit? [] s

def value (base : Nat) (digits : List Nat) : Nat :=
  digits.foldl (fun n d => n * base + d) 0

theorem foldl_eq_value_add (base n : Nat) (digits : List Nat) :
    digits.foldl (fun n d => n * base + d) n =
      n * Nat.pow base digits.length + value base digits := by
  induction digits generalizing n with
  | nil => simp [value]
  | cons d ds ih =>
    rw [value, List.foldl_cons, List.foldl_cons, ih, ih (0 * base + d), List.length_cons,
      Nat.pow_eq, Nat.pow_eq, Nat.pow_succ, Nat.add_mul, Nat.zero_mul, Nat.zero_add, Nat.mul_assoc,
      Nat.mul_comm base]
    omega

theorem value_append (base : Nat) (high low : List Nat) :
    value base (high ++ low) = value base high * Nat.pow base low.length + value base low := by
  rw [value, List.foldl_append, foldl_eq_value_add]
  rfl

/-- The value of a numeral of many digits, from the values of its two halves: multiplications of
numbers of like size are fewer than steps of one digit each. -/
def longValue (base : Nat) (digits : List Nat) : Nat :=
  if _h : digits.length < 64 then value base digits
  else
    let count := digits.length / 2
    longValue base (digits.take count) * Nat.pow base (digits.length - count) +
      longValue base (digits.drop count)
termination_by digits.length
decreasing_by
  · simp only [List.length_take]
    omega
  · simp only [List.length_drop]
    omega

@[simp] theorem longValue_eq_value (base : Nat) (digits : List Nat) :
    longValue base digits = value base digits := by
  fun_induction longValue base digits with
  | case1 => rfl
  | case2 digits h count ihHigh ihLow =>
    rw [ihHigh, ihLow, ← List.length_drop, ← value_append, List.take_append_drop]

/-- Whether a minus sign leads, and what follows the optional sign. -/
def sign : Bytes → Bool × Bytes
  | 43 :: rest => (false, rest)
  | 45 :: rest => (true, rest)
  | s => (false, s)

def signed (negative : Bool) (n : Nat) : Int := if negative then -(n : Int) else n

/-- A decimal numeral of more digits than this is not read, leading zeros counted, and not
written. -/
def maxDecimalDigits : Nat := 4300

def decimal? (s : Bytes) : Option Int :=
  let (negative, body) := sign s
  match digits? Bytes.decimalDigit? body with
  | none => none
  | some ds =>
    if maxDecimalDigits < ds.length then none else some (signed negative (value 10 ds))

/-- What follows `0x`, and one underscore after it, if the numeral starts with them. -/
def dropHexMark : Bytes → Bytes
  | 48 :: x :: 95 :: rest => if x == 120 || x == 88 then rest else 48 :: x :: 95 :: rest
  | 48 :: x :: rest => if x == 120 || x == 88 then rest else 48 :: x :: rest
  | s => s

def hexadecimal? (s : Bytes) : Option Int :=
  let (negative, body) := sign s
  (digits? Bytes.hexDigit? (dropHexMark body)).map fun ds => signed negative (longValue 16 ds)

end CannedReply.Numeral
