import CannedReply.Bytes
import CannedReply.SysError
/-!
# File trees and paths

Relative and absolute paths, their texts, and what they lead to in a working directory of which
all files are known. Outside of it directories are known to exist and nothing else is.
-/

namespace CannedReply

/-- A path with its leading slashes, none, one or two, and its components. -/
structure FilePath where
  root : String
  components : List String
  deriving DecidableEq, Repr

namespace FilePath

/-- Exactly two leading slashes are kept; any other number counts as one. -/
def rootOf (text : List Char) : String :=
  match (text.takeWhile (· == '/')).length with
  | 0 => ""
  | 2 => "//"
  | _ => "/"

/-- Empty components and single points do not count. -/
def ofText (text : String) : FilePath :=
  { root := rootOf text.toList
    components := ((text.toList.splitOn '/').map String.ofList).filter fun c =>
      c ≠ "" && c ≠ "." }

def text (p : FilePath) : String :=
  if p.root = "" && p.components.isEmpty then "."
  else p.root ++ String.intercalate "/" p.components

end FilePath

inductive FileNode where
  | file (content : Bytes)
  | directory
  deriving DecidableEq, Repr

/-- Files and directories by their components; the directories above an entry exist with it. -/
structure FileTree where
  entries : List (List String × FileNode) := []

namespace FileTree

/-- What stands at a place of the working directory. -/
def at? (tree : FileTree) (place : List String) : Option FileNode :=
  match tree.entries.find? fun entry => entry.1 == place with
  | some entry => some entry.2
  | none =>
    if place.isEmpty || tree.entries.any fun entry => place.isPrefixOf entry.1 then
      some .directory
    else none

/-- The longest name of a file, in bytes. -/
def maxNameBytes : Nat := 255

/-- The longest path, in bytes. -/
def maxPathBytes : Nat := 4095

/-- Follows components outside of the working directory, where only parents are known. -/
def walkOutside : List String → Except SysError FileNode
  | [] => .ok .directory
  | name :: rest =>
    if name = ".." then walkOutside rest
    else if maxNameBytes < name.utf8ByteSize then .error .nameTooLong
    else .error .notFound

/-- Follows components from the directory at `place`. -/
def walk (tree : FileTree) (place : List String) : List String → Except SysError FileNode
  | [] => .ok .directory
  | name :: rest =>
    if name = ".." then
      if place.isEmpty then walkOutside rest else walk tree place.dropLast rest
    else if maxNameBytes < name.utf8ByteSize then .error .nameTooLong
    else
      match tree.at? (place ++ [name]) with
      | none => .error .notFound
      | some .directory => walk tree (place ++ [name]) rest
      | some (.file content) => if rest.isEmpty then .ok (.file content) else .error .notDirectory

/-- The content of the file that a path leads to. -/
def openFile (tree : FileTree) (path : FilePath) : Except SysError Bytes := do
  if maxPathBytes < path.text.utf8ByteSize then .error .nameTooLong
  else
    match ← if path.root = "" then tree.walk [] path.components
        else walkOutside path.components with
    | .file content => .ok content
    | .directory => .error .isDirectory

end FileTree

end CannedReply
