import CannedReply.Binary64
/-!
# Decimal texts of floating-point numbers

With a fixed number of places, and with the fewest digits that read back as the same number.
-/

namespace CannedReply.Decimal

def digits (n : Nat) : List Char := Nat.toDigits 10 n

/-- The digits of `n`, filled up with zeros from the left. -/
def padded (width n : Nat) : List Char :=
  List.replicate (width - (digits n).length) '0' ++ digits n

def minus (q : Rat) : List Char := if q < 0 then ['-'] else []

def magnitude (q : Rat) : Rat := if q < 0 then -q else q

/-- `q` with `places` digits behind the point, rounded half to even; a negative number keeps its
sign also if all its digits are zero. -/
def fixed (places : Nat) (q : Rat) : List Char :=
  let n := (Binary64.nearestInt (magnitude q * (Nat.pow 10 places : Rat))).toNat
  minus q ++ digits (n / Nat.pow 10 places) ++ '.' :: padded places (n % Nat.pow 10 places)

/-- The floating-point number nearest to `q` rounded to `places` decimal places. -/
def roundPlaces (places : Nat) (q : Rat) : Rat :=
  let scale : Rat := (Nat.pow 10 places : Rat)
  Binary64.round ((Binary64.nearestInt (q * scale) : Rat) / scale)

def powerOfTen (e : Int) : Rat :=
  if 0 ≤ e then (Nat.pow 10 e.toNat : Rat) else 1 / (Nat.pow 10 (-e).toNat : Rat)

/-- The exponent of the first decimal digit of a positive number. -/
def leadingExponent (q : Rat) : Int :=
  let e : Int := ((digits q.num.natAbs).length : Int) - ((digits q.den).length : Int)
  if q < powerOfTen e then e - 1 else e

/-- The multiple of `10 ^ e` next to `q` that reads back as `q`; the nearer one of two. -/
def readsBackAt? (q : Rat) (e : Int) : Option Nat :=
  let scaled := q / powerOfTen e
  let low := scaled.floor
  let reads (n : Int) : Bool := Binary64.round ((n : Rat) * powerOfTen e) == q
  let near := Binary64.nearestInt scaled
  let far := if near = low then low + 1 else low
  if reads near then some near.toNat
  else if reads far then some far.toNat
  else none

/-- The shortest decimal `n * 10 ^ e` that reads back as `q`, trying `count` digits first and one
more at a time; `first` is the exponent of the first digit. Seventeen digits are enough for every
number. -/
def shortestFrom (q : Rat) (first : Int) : Nat → Nat → Nat × Int
  | 0, count => ((q / powerOfTen (first - count)).floor.toNat, first - count)
  | fuel + 1, count =>
    match readsBackAt? q (first - count) with
    | some n => (n, first - count)
    | none => shortestFrom q first fuel (count + 1)

/-- A number without its trailing zeros, and the exponent of its last digit. -/
def dropZeros : Nat → Nat × Int → Nat × Int
  | 0, p => p
  | fuel + 1, (n, e) => if n ≠ 0 && n % 10 = 0 then dropZeros fuel (n / 10, e + 1) else (n, e)

/-- The digits `n * 10 ^ e` written out, with a point and at least one digit on either side. -/
def positional (ds : List Char) (e : Int) : List Char :=
  let point := (ds.length : Int) + e
  if 0 ≤ e then ds ++ List.replicate e.toNat '0' ++ ['.', '0']
  else if 0 < point then ds.take point.toNat ++ '.' :: ds.drop point.toNat
  else '0' :: '.' :: List.replicate (-point).toNat '0' ++ ds

def exponential (ds : List Char) (exponent : Int) : List Char :=
  let fraction := match ds.drop 1 with
    | [] => []
    | more => '.' :: more
  ds.take 1 ++ fraction ++ 'e' :: (if exponent < 0 then '-' else '+') ::
    padded 2 exponent.natAbs

/-- The fewest digits that read back as `q`: positional from `1e-4` to below `1e16`. -/
def shortest (q : Rat) : List Char :=
  if q = 0 then ['0', '.', '0']
  else
    let size := magnitude q
    let (n, e) := dropZeros 20 (shortestFrom size (leadingExponent size) 17 0)
    let ds := digits n
    let exponent := (ds.length : Int) + e - 1
    minus q ++ if -4 ≤ exponent && exponent < 16 then positional ds e else exponential ds exponent

end CannedReply.Decimal
