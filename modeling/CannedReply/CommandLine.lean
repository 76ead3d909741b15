import CannedReply.Delimiter
import CannedReply.Text.Digit
import CannedReply.Text.Quoted
/-!
# The command line

An optional port and three options. An option may be shortened while it stays unambiguous, and
takes its value from behind an equals sign or from the next word. Behind `--` every word is an
operand.
-/

namespace CannedReply.CommandLine

inductive Flag where
  | help
  | logFormat
  | quiet
  deriving DecidableEq, Repr

/-- The names of the options, in the order in which messages list them. -/
def names : List (String × Flag) :=
  [("-h", .help), ("--help", .help), ("--log-format", .logFormat), ("--quiet", .quiet)]

/-- An option as error messages call it. -/
def Flag.title : Flag → String
  | help => "-h/--help"
  | logFormat => "--log-format"
  | quiet => "--quiet"

inductive Error where
  | ambiguous (word : String) (candidates : List String)
  | missingValue (flag : Flag)
  | unknownFormat (value : String)
  | unusedValue (flag : Flag) (value : String)
  | unrecognized (words : List String)
  deriving DecidableEq, Repr

def formats : List String := ["plain", "json"]

def Error.message : Error → String
  | ambiguous word candidates =>
    "ambiguous option: " ++ word ++ " could match " ++ String.intercalate ", " candidates
  | missingValue flag => "argument " ++ flag.title ++ ": expected one argument"
  | unknownFormat value =>
    "argument " ++ Flag.logFormat.title ++ ": invalid choice: " ++ Text.Quoted.quoted value ++
      " (choose from " ++ String.intercalate ", " (formats.map Text.Quoted.quoted) ++ ")"
  | unusedValue flag value =>
    "argument " ++ flag.title ++ ": ignored explicit argument " ++ Text.Quoted.quoted value
  | unrecognized words => "unrecognized arguments: " ++ String.intercalate " " words

/-- A word of the command line by what it is. -/
inductive Word where
  | operand (text : String)
  | flag (flag : Flag) (value : Option String)
  /-- The short help option with letters attached to it. -/
  | letters (attached : List Char)
  | unknown (text : String)
  deriving DecidableEq, Repr

/-- The options whose names start as `start` does. -/
def candidates (start : List Char) : List (String × Flag) :=
  names.filter fun name => start.isPrefixOf name.1.toList

/-- A minus sign and a number without sign or exponent; a line break may follow. -/
def isNegativeNumber : List Char → Bool
  | '-' :: body =>
    let body := if body.getLast? == some '\n' then body.dropLast else body
    match body.span Text.isDecimalDigit with
    | (whole, []) => !whole.isEmpty
    | (_, '.' :: places) => !places.isEmpty && places.all Text.isDecimalDigit
    | _ => false
  | _ => false

/-- What a word with a leading hyphen is that no option starts with. -/
def unmatched (word : String) : Word :=
  if isNegativeNumber word.toList || word.toList.contains ' ' then .operand word
  else .unknown word

/-- What a word with two leading hyphens is. -/
def classifyLong (word : String) : Except Error Word :=
  let (start, value) := match Delimiter.cut? ['='] word.toList with
    | none => (word.toList, none)
    | some (start, value) => (start, some (String.ofList value))
  match candidates start with
  | [] => .ok (unmatched word)
  | [(_, flag)] => .ok (.flag flag value)
  | several => .error (.ambiguous word (several.map Prod.fst))

def classify (word : String) : Except Error Word :=
  match names.lookup word with
  | some flag => .ok (.flag flag none)
  | none =>
    match word.toList with
    | '-' :: '-' :: _ =>
      match names.lookup (String.ofList (Delimiter.before ['='] word.toList)) with
      | some flag =>
        .ok (.flag flag ((Delimiter.cut? ['='] word.toList).map fun p => String.ofList p.2))
      | none => classifyLong word
    | ['-', 'h', '='] => .ok (.flag .help (some ""))
    | '-' :: 'h' :: '=' :: attached => .ok (.letters attached)
    | '-' :: 'h' :: attached => .ok (.letters attached)
    | '-' :: _ :: _ => .ok (unmatched word)
    | _ => .ok (.operand word)

/-- The part of the letters attached to the short help option that has no use: each has to be
that option again. -/
def unusedLetters (attached : List Char) : List Char := attached.dropWhile (· == 'h')

def defaultFormat : String := "plain"

/-- The format that a value chooses. Two hyphens choose none, and so the default. -/
def chosenFormat? (value : String) : Option String :=
  if value = "--" then some defaultFormat
  else if formats.contains value then some value
  else none

structure Arguments where
  port : Option String := none
  logFormat : String := defaultFormat
  quiet : Bool := false
  deriving DecidableEq, Repr

inductive Command where
  | serve (arguments : Arguments)
  | help
  deriving DecidableEq, Repr

/-- The command of words that have all been read, and of which `extra` have no use. -/
def conclude (arguments : Arguments) (extra : List String) : Except Error Command :=
  if extra.isEmpty then .ok (.serve arguments) else .error (.unrecognized extra)

/-- Reads the operands behind `--`. -/
def readOperands (arguments : Arguments) (extra : List String) :
    Option (List String) → Except Error Command
  | none => conclude arguments extra
  | some operands =>
    match arguments.port, operands with
    | none, [] => conclude arguments extra
    | none, port :: more => conclude { arguments with port := some port } (extra ++ more)
    | some _, _ => conclude arguments (extra ++ "--" :: operands)

/-- Reads the words up to `--`, and then the operands behind it. A `--` directly behind the port
does not count. -/
def read (operands : Option (List String)) (arguments : Arguments) (extra : List String) :
    List Word → Except Error Command
  | [] => readOperands arguments extra operands
  | [.operand text] =>
    match arguments.port with
    | none => conclude { arguments with port := some text } (extra ++ operands.getD [])
    | some _ => readOperands arguments (extra ++ [text]) operands
  | .operand text :: rest =>
    match arguments.port with
    | none => read operands { arguments with port := some text } extra rest
    | some _ => read operands arguments (extra ++ [text]) rest
  | .unknown text :: rest => read operands arguments (extra ++ [text]) rest
  | .flag .help none :: _ => .ok .help
  | .letters attached :: _ =>
    match unusedLetters attached with
    | [] => .ok .help
    | unused => .error (.unusedValue .help (String.ofList unused))
  | .flag .quiet none :: rest => read operands { arguments with quiet := true } extra rest
  | .flag .logFormat (some value) :: rest =>
    match chosenFormat? value with
    | some format => read operands { arguments with logFormat := format } extra rest
    | none => .error (.unknownFormat value)
  | .flag .logFormat none :: .operand value :: rest =>
    match chosenFormat? value with
    | some format => read operands { arguments with logFormat := format } extra rest
    | none => .error (.unknownFormat value)
  | .flag .logFormat none :: _ => .error (.missingValue .logFormat)
  | .flag flag (some value) :: _ => .error (.unusedValue flag value)

def parse (words : List String) : Except Error Command := do
  let (words, operands) := match Delimiter.cut? ["--"] words with
    | none => (words, none)
    | some (front, back) => (front, some back)
  read operands {} [] (← words.mapM classify)

/-- The name that usage lines and error messages give the program. -/
def programName : String := "mockprox"

def usage : String :=
  "usage: " ++ programName ++ " [-h] [--log-format \x7bplain,json\x7d] [--quiet] [port]\n"

def helpText : String :=
  usage ++ "\nRun mock chat completions endpoint\n\n" ++
    "positional arguments:\n" ++
    "  port                  listen port (default 80)\n\n" ++
    "options:\n" ++
    "  -h, --help            show this help message and exit\n" ++
    "  --log-format \x7bplain,json\x7d\n" ++
    "  --quiet               do not echo payloads to stdout\n"

def Error.text (e : Error) : String := usage ++ programName ++ ": error: " ++ e.message ++ "\n"

end CannedReply.CommandLine
