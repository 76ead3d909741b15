/-!
# Binary floating point

Arithmetic in 53-bit binary floating point, as exact rationals that are rounded after each
operation. A result beyond the finite numbers is an infinity.
-/

namespace CannedReply

inductive Binary64 where
  | finite (q : Rat)
  | infinity (negative : Bool)
  deriving DecidableEq, Repr

namespace Binary64

/-- The integer nearest to `q`; of two equally near ones the even one. -/
def nearestInt (q : Rat) : Int :=
  let low := q.floor
  let part := q - low
  if part < 1 / 2 then low
  else if 1 / 2 < part then low + 1
  else if low % 2 = 0 then low else low + 1

def powerOfTwo (e : Int) : Rat :=
  if 0 ≤ e then (Nat.pow 2 e.toNat : Rat) else 1 / (Nat.pow 2 (-e).toNat : Rat)

/-- The weight of the last of the 53 bits of `q`, as a power of two. -/
def lastBit (q : Rat) : Int :=
  let e : Int := (Nat.log2 q.num.natAbs : Int) - (Nat.log2 q.den : Int) - 52
  let size : Rat := ((q.num.natAbs : Nat) : Rat) / ((q.den : Nat) : Rat)
  max (-1074) (if size < powerOfTwo (e + 52) then e - 1 else e)

/-- The number of 53 bits nearest to `q`, however large; of two equally near ones the one whose
last bit is zero. -/
def round (q : Rat) : Rat :=
  if q = 0 then 0 else (nearestInt (q / powerOfTwo (lastBit q)) : Rat) * powerOfTwo (lastBit q)

/-- The least power of two that is beyond the finite numbers. -/
def limit : Rat := powerOfTwo 1024

/-- The floating-point number that stands for `q`. -/
def ofRat (q : Rat) : Binary64 :=
  let rounded := round q
  if limit ≤ rounded then .infinity false
  else if rounded ≤ -limit then .infinity true
  else .finite rounded

end Binary64

end CannedReply
