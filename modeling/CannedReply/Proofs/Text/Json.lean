import Mathlib.Data.List.Forall2
import Mathlib.Data.Rat.Defs
/-!
# JSON

A reader of JSON texts, with exact numbers, and with the two names that writers of floating-point
numbers use for the infinite ones.  It leaves what stands behind a value, so the reading of a list
or an object follows from the readings of its parts.  Main statements: `enclosed?_joined`,
`read?_object`.
-/

namespace CannedReply.Proofs.Text

inductive Json where
  | null
  | bool (b : Bool)
  | number (q : Rat)
  | infinity (negative : Bool)
  | string (text : String)
  | array (items : List Json)
  | object (members : List (String × Json))

namespace Json

/-- Reads something at the front of a text, and leaves the rest. -/
abbrev Reader (α : Type) := List Char → Option (α × List Char)

def isBlank (c : Char) : Bool := c == ' ' || c == '\t' || c == '\n' || c == '\r'

def skip (s : List Char) : List Char := s.dropWhile isBlank

/-! ## Strings -/

def hexValue? (c : Char) : Option Nat :=
  if c.isDigit then some (c.toNat - 48)
  else if 'a' ≤ c ∧ c ≤ 'f' then some (c.toNat - 87)
  else if 'A' ≤ c ∧ c ≤ 'F' then some (c.toNat - 55)
  else none

def code? (digits : List Char) : Option Nat :=
  digits.foldlM (fun n c => (hexValue? c).map (16 * n + ·)) 0

/-- The code behind a backslash and a single character. -/
def shorthand? (c : Char) : Option Nat :=
  if c = '"' ∨ c = '\\' ∨ c = '/' then some c.toNat
  else if c = 'b' then some 8
  else if c = 'f' then some 12
  else if c = 'n' then some 10
  else if c = 'r' then some 13
  else if c = 't' then some 9
  else none

/-- The codes in a string up to its closing quotation mark.  A character beyond U+FFFF that is
escaped makes two of them. -/
def codes? : Reader (List Nat)
  | '"' :: s => some ([], s)
  | '\\' :: 'u' :: a :: b :: c :: d :: s => do
    let code ← code? [a, b, c, d]
    let (codes, rest) ← codes? s
    return (code :: codes, rest)
  | '\\' :: c :: s => do
    let code ← shorthand? c
    let (codes, rest) ← codes? s
    return (code :: codes, rest)
  | c :: s =>
    if 0x20 ≤ c.toNat then do
      let (codes, rest) ← codes? s
      return (c.toNat :: codes, rest)
    else none
  | [] => none

def isHigh (code : Nat) : Bool := 0xd800 ≤ code && code < 0xdc00

def isLow (code : Nat) : Bool := 0xdc00 ≤ code && code < 0xe000

/-- The characters of a string, by its codes; half a pair of surrogates is no character. -/
def characters? : List Nat → Option (List Char)
  | [] => some []
  | [code] => if isHigh code || isLow code then none else some [.ofNat code]
  | code :: low :: codes =>
    if isHigh code && isLow low then do
      let cs ← characters? codes
      return .ofNat (0x10000 + (code - 0xd800) * 0x400 + (low - 0xdc00)) :: cs
    else if isHigh code || isLow code then none
    else do
      let cs ← characters? (low :: codes)
      return .ofNat code :: cs

/-- A string behind its opening quotation mark. -/
def string? : Reader String := fun s => do
  let (codes, rest) ← codes? s
  let cs ← characters? codes
  return (.ofList cs, rest)

/-! ## Numbers -/

/-- At least one digit, and all that follow it. -/
def digits? : Reader (List Char) := fun s =>
  match s.takeWhile Char.isDigit with
  | [] => none
  | ds => some (ds, s.dropWhile Char.isDigit)

/-- The digits behind a point, if there is one. -/
def fraction? : Reader (List Char)
  | '.' :: s => digits? s
  | s => some ([], s)

def natural? : Reader Nat := fun s => do
  let (ds, rest) ← digits? s
  return (Nat.ofDigitChars 10 ds 0, rest)

def signedExponent? : Reader Int
  | '-' :: s => (natural? s).map fun (n, rest) => (-(n : Int), rest)
  | '+' :: s => (natural? s).map fun (n, rest) => ((n : Int), rest)
  | s => (natural? s).map fun (n, rest) => ((n : Int), rest)

/-- The exponent of a number, zero if it has none. -/
def exponent? : Reader Int
  | 'e' :: s => signedExponent? s
  | 'E' :: s => signedExponent? s
  | s => some (0, s)

/-- The number with these digits before and behind the point. -/
def scaled (whole fraction : List Char) (exponent : Int) : Rat :=
  (Nat.ofDigitChars 10 (whole ++ fraction) 0 : Rat) * 10 ^ (exponent - fraction.length)

/-- Digits before the point that do not start with a zero, unless it is the only one. -/
def isWhole (whole : List Char) : Bool := whole.length = 1 || whole.head? != some '0'

def unsigned? : Reader Rat := fun s => do
  let (whole, s) ← digits? s
  if isWhole whole then
    let (fraction, s) ← fraction? s
    let (exponent, s) ← exponent? s
    return (scaled whole fraction exponent, s)
  else none

def number? : Reader Rat
  | '-' :: s => (unsigned? s).map fun (q, rest) => (-q, rest)
  | s => unsigned? s

/-! ## Values -/

/-- The values that are written as a name. -/
def names : List (List Char × Json) := [
  ("null".toList, .null),
  ("true".toList, .bool true),
  ("false".toList, .bool false),
  ("Infinity".toList, .infinity false),
  ("-Infinity".toList, .infinity true)]

def named? : Reader Json := fun s =>
  names.findSome? fun (name, value) =>
    if name.isPrefixOf s then some (value, s.drop name.length) else none

/-- Parts with commas between them, and the mark that closes them; at most `limit` parts. -/
def elements? {α : Type} (element? : Reader α) (mark : Char) : Nat → Reader (List α)
  | 0, _ => none
  | limit + 1, s => do
    let (a, s) ← element? (skip s)
    match skip s with
    | [] => none
    | c :: s =>
      if c = mark then some ([a], s)
      else if c = ',' then do
        let (as, rest) ← elements? element? mark limit s
        return (a :: as, rest)
      else none

/-- Any number of parts and the mark that closes them. -/
def enclosed? {α : Type} (element? : Reader α) (mark : Char) : Reader (List α) := fun s =>
  elements? element? mark s.length s <|>
    if (skip s).head? = some mark then some ([], (skip s).drop 1) else none

/-- A name, a colon and a value. -/
def member? (value? : Reader Json) : Reader (String × Json)
  | '"' :: s => do
    let (name, s) ← string? s
    match skip s with
    | ':' :: s => do
      let (value, rest) ← value? (skip s)
      return ((name, value), rest)
    | _ => none
  | _ => none

/-- A value that is nested at most `depth` deep. -/
def value? : Nat → Reader Json
  | 0, _ => none
  | _ + 1, '"' :: s => (string? s).map fun (text, rest) => (.string text, rest)
  | depth + 1, '[' :: s => (enclosed? (value? depth) ']' s).map fun (items, rest) =>
    (.array items, rest)
  | depth + 1, '\x7b' :: s =>
    (enclosed? (member? (value? depth)) '\x7d' s).map fun (members, rest) =>
      (.object members, rest)
  | _ + 1, s => (number? s).map (fun (q, rest) => (.number q, rest)) <|> named? s

/-- The value of a whole text. -/
def read? (text : String) : Option Json := do
  let s := text.toList
  let (value, rest) ← value? s.length (skip s)
  if skip rest = [] then some value else none

/-! ## Values between marks -/

/-- What may stand behind a value in a list or an object. -/
def isMark (c : Char) : Bool := c == ',' || c == ']' || c == '\x7d'

theorem mark_cases {c : Char} (h : isMark c = true) : c = ',' ∨ c = ']' ∨ c = '\x7d' := by
  simpa [isMark, or_assoc] using h

/-- The text is read as the value wherever a mark follows it, also behind blanks. -/
def ReadsAs {α : Type} (read? : Reader α) (text : List Char) (a : α) : Prop :=
  ∀ c rest, isMark c = true → read? (skip (text ++ c :: rest)) = some (a, c :: rest)

theorem skip_mark {c : Char} (h : isMark c = true) (rest : List Char) :
    skip (c :: rest) = c :: rest := by
  obtain rfl | rfl | rfl := mark_cases h
  · rfl
  · rfl
  · rfl

variable {α : Type} {element? : Reader α} {mark : Char} {texts : List (List Char)} {values : List α}
  {a : α} {limit : Nat} {s rest : List Char}

theorem elements?_blank (limit : Nat) (s : List Char) :
    elements? element? mark limit (' ' :: s) = elements? element? mark limit s := by
  cases limit with
  | zero => rfl
  | succ limit => rfl

theorem elements?_last (hmark : isMark mark = true)
    (hread : element? (skip s) = some (a, mark :: rest)) :
    elements? element? mark (limit + 1) s = some ([a], rest) := by
  simp [elements?, hread, skip_mark hmark]

theorem elements?_next (hcomma : mark ≠ ',') (hread : element? (skip s) = some (a, ',' :: rest)) :
    elements? element? mark (limit + 1) s =
      (elements? element? mark limit rest).map (Prod.map (a :: ·) id) := by
  have hskip : skip (',' :: rest) = ',' :: rest := skip_mark rfl rest
  simp only [elements?, hread, hskip, Option.bind_eq_bind, Option.bind_some,
    if_neg hcomma.symm, if_pos]
  cases elements? element? mark limit rest <;> rfl

theorem elements?_joined (h : List.Forall₂ (ReadsAs element?) texts values) (hne : texts ≠ [])
    (hmark : isMark mark = true) (hcomma : mark ≠ ',') (hlimit : texts.length ≤ limit) :
    elements? element? mark limit ([',', ' '].intercalate texts ++ mark :: rest) =
      some (values, rest) := by
  induction h generalizing limit with
  | nil => contradiction
  | @cons text a texts values hread hreads ih =>
    cases limit with
    | zero => simp at hlimit
    | succ limit =>
      cases hreads with
      | nil =>
        rw [List.intercalate_singleton]
        exact elements?_last hmark (hread mark rest hmark)
      | @cons next b texts values hnext hreads =>
        -- The blank behind the comma belongs to no part; the next reading skips it.
        have hrest := ih (by simp) (by simpa using hlimit)
        have hspelled : [',', ' '].intercalate (text :: next :: texts) ++ mark :: rest =
            text ++ ',' :: ' ' :: ([',', ' '].intercalate (next :: texts) ++ mark :: rest) := by
          rw [List.intercalate_cons_cons]
          simp
        rw [hspelled, elements?_next hcomma (hread ',' _ rfl), elements?_blank, hrest]
        rfl

theorem length_le_joined (texts : List (List Char)) :
    texts.length ≤ ([',', ' '].intercalate texts).length + 1 := by
  induction texts with
  | nil => simp
  | cons text texts ih =>
    cases texts with
    | nil => simp
    | cons next texts =>
      rw [List.intercalate_cons_cons]
      simp only [List.length_cons, List.length_append] at ih ⊢
      omega

/-- Parts that are read one by one are read between their marks. -/
theorem enclosed?_joined (h : List.Forall₂ (ReadsAs element?) texts values) (hne : texts ≠ [])
    (hmark : isMark mark = true) (hcomma : mark ≠ ',') (rest : List Char) :
    enclosed? element? mark ([',', ' '].intercalate texts ++ mark :: rest) =
      some (values, rest) := by
  have hlimit : texts.length ≤ ([',', ' '].intercalate texts ++ mark :: rest).length := by
    have hle := length_le_joined texts
    rw [List.length_append, List.length_cons]
    omega
  unfold enclosed?
  rw [elements?_joined h hne hmark hcomma hlimit]
  rfl

/-- An object is read from its members. -/
theorem read?_object {members : List (String × Json)} (hne : texts ≠ [])
    (h : ∀ depth, List.Forall₂ (ReadsAs (member? (value? (depth + 1)))) texts members) :
    read? (.ofList ('\x7b' :: [',', ' '].intercalate texts ++ ['\x7d'])) =
      some (.object members) := by
  -- A reader may go as deep as its text is long; an object of scalars needs a depth of two.
  let inner := [',', ' '].intercalate texts ++ ['\x7d']
  obtain ⟨depth, hdepth⟩ : ∃ depth, ('\x7b' :: inner).length = depth + 2 := by
    refine ⟨([',', ' '].intercalate texts).length, ?_⟩
    simp [inner]
  have hinner : enclosed? (member? (value? (depth + 1))) '\x7d' inner = some (members, []) :=
    enclosed?_joined (h depth) hne rfl (by decide) []
  have hvalue : value? (depth + 2) ('\x7b' :: inner) = some (.object members, []) := by
    rw [value?, hinner]
    rfl
  unfold read?
  rw [String.toList_ofList]
  change (value? ('\x7b' :: inner).length ('\x7b' :: inner)).bind _ = _
  rw [hdepth, hvalue]
  rfl

example : read? "[true, \"\\u00e9\\ud83d\\ude00\", [] ]" =
    some (.array [.bool true, .string "é😀", .array []]) := by rfl

end Json

end CannedReply.Proofs.Text
