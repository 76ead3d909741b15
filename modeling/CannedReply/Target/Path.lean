import CannedReply.Target.Authority
/-!
# The path of a request target

A target in origin form is its own path, up to the query. A target in absolute form has the path
behind its authority. Nothing else of a target is changed: fragments, dot segments and percent
signs stay.
-/

namespace CannedReply.Target

/-- Blanks and controls in front of an absolute form, and tabs and line breaks anywhere in it, do
not count. -/
def cleaned (target : Bytes) : Bytes :=
  (target.dropWhile (· ≤ 32)).filter fun b => b != 9 && b != 10 && b != 13

def isSchemeByte (b : UInt8) : Bool :=
  Bytes.isLetter b || Bytes.isDigit b || b == 43 || b == 45 || b == 46

/-- The scheme in front of the first colon, or nothing, and what follows. -/
def splitScheme (url : Bytes) : Bytes × Bytes :=
  match Delimiter.cut? [58] url with
  | some (b :: scheme, rest) =>
    if Bytes.isLetter b && scheme.all isSchemeByte then (b :: scheme, rest) else ([], url)
  | _ => ([], url)

/-- What ends an authority: a slash, a question mark or a number sign. -/
def endsAuthority (b : UInt8) : Bool := b == 47 || b == 63 || b == 35

/-- The authority behind two slashes, or nothing, and what follows. -/
def splitAuthority (url : Bytes) : Bytes × Bytes :=
  match url with
  | 47 :: 47 :: rest => rest.span fun b => !endsAuthority b
  | _ => ([], url)

def beforeQuery (s : Bytes) : Bytes := Delimiter.before [63] s

/-- The path of a target that does not start with a slash. -/
def absolutePath (target : Bytes) : Except Error Bytes :=
  let (scheme, rest) := splitScheme (cleaned target)
  let (authority, rest) := splitAuthority rest
  (Authority.check authority).map fun _ =>
    if scheme.isEmpty || authority.isEmpty then target
    else
      match beforeQuery rest with
      | [] => [47]
      | path => path

/-- The path that requests are routed by. -/
def path (target : Bytes) : Except Error Bytes :=
  match target with
  | 47 :: _ => .ok (beforeQuery target)
  | _ => absolutePath target

end CannedReply.Target
