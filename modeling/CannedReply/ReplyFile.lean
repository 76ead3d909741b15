import CannedReply.FileTree
import CannedReply.Text.Quoted
/-!
# The reply file

The canned reply is the whole content of a file. A file that ends before the size that the system
reports for it is refused, and one that goes on behind that size is cut there.
-/

namespace CannedReply.ReplyFile

def defaultPath : String := "reply.txt"

/-- A file tree, and how the system behaves when a file of it is opened and read. -/
structure Storage where
  tree : FileTree := {}
  /-- Why no file can be opened. -/
  openFault : Option SysError := none
  /-- The size that the system reports, if not the true one. -/
  reportedSize : Option Int := none
  /-- Why the size cannot be asked for. -/
  sizeFault : Option SysError := none
  /-- How many bytes each read delivers at most, where none counts as one, or why it fails. -/
  pace : Nat → Except SysError Nat := fun _ => .ok 65536
  /-- How many bytes there is memory for. -/
  memory : Nat := 0x400000000

inductive Error where
  | cannotOpen (path : FilePath) (cause : SysError)
  | cannotRead (path : FilePath) (cause : SysError)
  | incomplete (path : FilePath) (expected received : Nat)
  /-- The path holds the character U+0000. -/
  | nullCharacter
  /-- The system reports a size below zero. -/
  | negativeSize
  /-- The system reports a size that is no 64-bit number. -/
  | oversized
  /-- The system reports a size for which there is no memory. -/
  | outOfMemory
  deriving DecidableEq, Repr

def Error.message : Error → String
  | cannotOpen path cause =>
    "Cannot read reply file " ++ path.text ++ ": " ++ cause.message ++ ": " ++
      Text.Quoted.quoted path.text
  | cannotRead path cause => "Cannot read reply file " ++ path.text ++ ": " ++ cause.message
  | incomplete path expected received =>
    "Read " ++ toString received ++ " of " ++ toString expected ++ " bytes from " ++ path.text
  | nullCharacter => "embedded null byte"
  | negativeSize => "negative count"
  | oversized => "cannot fit 'int' into an index-sized integer"
  | outOfMemory => ""

/-- Whether a server can go on with an empty reply. -/
def Error.isRecoverable : Error → Bool
  | cannotOpen .. | cannotRead .. | incomplete .. => true
  | nullCharacter | negativeSize | oversized | outOfMemory => false

/-- The number of bytes to set aside, out of `memory`, for a file of the given size. -/
def capacity (memory : Nat) (size : Int) : Except Error Nat :=
  if size < -0x8000000000000000 || 0x8000000000000000 ≤ size then .error .oversized
  else if size < 0 then .error .negativeSize
  else if memory < size.toNat then .error .outOfMemory
  else .ok size.toNat

/-- Opens the file that a path leads to. -/
def Storage.openFile (storage : Storage) (path : FilePath) : Except SysError Bytes :=
  match storage.openFault with
  | some e => .error e
  | none => storage.tree.openFile path

/-- The next `wanted` bytes of a file, read at the given pace from the read numbered `read` on;
fewer if the file ends before. -/
def fill (pace : Nat → Except SysError Nat) (read wanted : Nat) (rest : Bytes) :
    Except SysError Bytes :=
  if wanted = 0 then .ok []
  else
    match pace read with
    | .error e => .error e
    | .ok most =>
      let count := min (max 1 most) (min wanted rest.length)
      if _h : count = 0 then .ok []
      else
        match fill pace (read + 1) (wanted - count) (rest.drop count) with
        | .error e => .error e
        | .ok more => .ok (rest.take count ++ more)
termination_by wanted
decreasing_by
  have : count ≤ wanted := Nat.le_trans (Nat.min_le_right _ _) (Nat.min_le_left _ _)
  omega

/-- What an opened file with the given content reads as. -/
def readOpened (storage : Storage) (path : FilePath) (content : Bytes) : Except Error Bytes :=
  match storage.sizeFault with
  | some e => .error (.cannotRead path e)
  | none =>
    match capacity storage.memory (storage.reportedSize.getD content.length) with
    | .error e => .error e
    | .ok size =>
      match fill storage.pace 0 size content with
      | .error e => .error (.cannotRead path e)
      | .ok reply =>
        if reply.length = size then .ok reply
        else .error (.incomplete path size reply.length)

def load (storage : Storage) (path : String) : Except Error Bytes :=
  let filePath := FilePath.ofText path
  if path.toList.contains (Char.ofNat 0) then .error .nullCharacter
  else
    match storage.openFile filePath with
    | .error e => .error (.cannotOpen filePath e)
    | .ok content => readOpened storage filePath content

end CannedReply.ReplyFile
