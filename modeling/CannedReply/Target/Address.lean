import CannedReply.Numeral
/-!
# Internet addresses

Which texts are IPv4 and IPv6 addresses. An IPv6 address may end in an IPv4 address and may carry
a scope behind a percent sign.
-/

namespace CannedReply.Target.Address

/-- At most three digits, no leading zero, at most 255. -/
def isOctet (s : Bytes) : Bool :=
  !s.isEmpty && s.length ≤ 3 && s.all Bytes.isDigit && (s == [48] || s.head? != some 48) &&
    Numeral.value 10 (s.filterMap Bytes.decimalDigit?) ≤ 255

def isIPv4 (s : Bytes) : Bool :=
  let octets := s.splitOn 46
  octets.length == 4 && octets.all isOctet

/-- One to four hexadecimal digits. -/
def isHextet (s : Bytes) : Bool :=
  !s.isEmpty && s.length ≤ 4 && s.all fun b => (Bytes.hexDigit? b).isSome

/-- The groups between the colons, three or more, where an IPv4 address at the end counts as two
groups. -/
def groups? (s : Bytes) : Option (List Bytes) :=
  let groups := s.splitOn 58
  match groups.getLast? with
  | none => none
  | some last =>
    if groups.length < 3 then none
    else if last.contains 46 then
      if isIPv4 last then some (groups.dropLast ++ [[48], [48]]) else none
    else some groups

/-- The groups of an address that leaves none out. -/
def isFull (groups : List Bytes) : Bool := groups.length == 8 && groups.all isHextet

/-- The groups on one side of the gap: none if the side is the single empty text at an end. -/
def sideOf (groups : List Bytes) : List Bytes := if groups == [[]] then [] else groups

/-- Whether the groups before and after the gap are hextets and leave at least one out. -/
def isGapped (front back : List Bytes) : Bool :=
  (front ++ back).all isHextet && (front ++ back).length ≤ 7

/-- Where an empty group stands between the first and the last. -/
def gaps (groups : List Bytes) : List Nat :=
  (List.range groups.length).filter fun i =>
    0 < i && i + 1 < groups.length && groups[i]? == some []

def hasIPv6Groups (groups : List Bytes) : Bool :=
  if 9 < groups.length then false
  else
    match gaps groups with
    | [] => isFull groups
    | [i] => isGapped (sideOf (groups.take i)) (sideOf (groups.drop (i + 1)))
    | _ => false

/-- The address without its scope. A scope is not empty and holds no percent sign. -/
def unscoped? (s : Bytes) : Option Bytes :=
  match Delimiter.cut? [37] s with
  | none => some s
  | some (address, zone) => if zone.isEmpty || zone.contains 37 then none else some address

def isIPv6 (s : Bytes) : Bool := (((unscoped? s).bind groups?).map hasIPv6Groups).getD false

end CannedReply.Target.Address
