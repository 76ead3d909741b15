import CannedReply.Latin1
import CannedReply.Target.Address
import CannedReply.Text.Quoted
/-!
# Authorities with brackets

Square brackets in an authority stand around an IPv6 address or an address of a future version,
directly after the user part and before the end or the port.
-/

namespace CannedReply.Target

inductive Error where
  | misplacedBracket
  | malformedFutureAddress
  | bracketedIPv4
  | notAnAddress (host : Bytes)
  deriving DecidableEq, Repr

def Error.message : Error → String
  | misplacedBracket => "Invalid IPv6 URL"
  | malformedFutureAddress => "IPvFuture address is invalid"
  | bracketedIPv4 => "An IPv4 address cannot be in brackets"
  | notAnAddress host =>
    Text.Quoted.quoted (Latin1.decode host) ++ " does not appear to be an IPv4 or IPv6 address"

namespace Authority

/-- What stands after the last at sign. -/
def hostAndPort (authority : Bytes) : Bytes :=
  (authority.reverse.takeWhile (· != 64)).reverse

/-- The letter v, hexadecimal digits, a point, and something more. -/
def isFutureAddress (host : Bytes) : Bool :=
  match host with
  | 118 :: rest =>
    match rest.span fun b => (Bytes.hexDigit? b).isSome with
    | (_ :: _, 46 :: _ :: _) => true
    | _ => false
  | _ => false

def checkHost (host : Bytes) : Except Error Unit :=
  if host.head? == some 118 then
    if isFutureAddress host then .ok () else .error .malformedFutureAddress
  else if Address.isIPv4 host then .error .bracketedIPv4
  else if Address.isIPv6 host then .ok ()
  else .error (.notAnAddress host)

/-- The host of an authority that holds both brackets. -/
def bracketedHost (authority : Bytes) : Except Error Bytes :=
  match Delimiter.cut? [91] (hostAndPort authority) with
  | some (front, rest) =>
    let (host, port) := (Delimiter.cut? [93] rest).getD (rest, [])
    if front.isEmpty && (port.isEmpty || port.head? == some 58) then .ok host
    else .error .misplacedBracket
  | none => .ok (Delimiter.before [58] (hostAndPort authority))

/-- Refuses brackets that do not stand around an address. -/
def check (authority : Bytes) : Except Error Unit :=
  match authority.contains 91, authority.contains 93 with
  | false, false => .ok ()
  | true, true => bracketedHost authority >>= checkHost
  | _, _ => .error .misplacedBracket

end Authority

end CannedReply.Target
