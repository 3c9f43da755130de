import DebugAdapter.Text.Split
import DebugAdapter.Text.Utf8
/-!
# File trees

A `FileTree` is the part of a file system that paths start from. `FileTree.read` follows a path
from there, one component after the other, and gives the file's bytes or the `FileFault` met first.
Nothing is known of what lies outside the tree, except that its directories are there.
-/

namespace DebugAdapter

/-- Why a file could not be read. -/
inductive FileFault where
  | notFound
  | notDirectory
  | isDirectory
  | nameTooLong
  | nulInName
  | notText
  /-- Any other refusal, in the words and with the number of the system. -/
  | refused (text : String) (code : Nat)
  deriving DecidableEq, Repr

/-- A fault in the words of the system. -/
def systemText (text : String) (code : Nat) : String :=
  text ++ " (os error " ++ toString code ++ ")"

/-- The words for a fault. -/
def FileFault.text : FileFault → String
  | notFound => systemText "No such file or directory" 2
  | notDirectory => systemText "Not a directory" 20
  | isDirectory => systemText "Is a directory" 21
  | nameTooLong => systemText "File name too long" 36
  | nulInName => "file name contained an unexpected NUL byte"
  | notText => "stream did not contain valid UTF-8"
  | refused text code => systemText text code

/-- What the paths of a file system lead to. -/
abbrev FileView := (path : String) → Except FileFault Bytes

/-- The text of what was read. -/
def textOf (content : Except FileFault Bytes) : Except FileFault String := do
  match Utf8.toString? (← content) with
  | some text => .ok text
  | none => .error .notText

/-- The text that a path leads to. -/
def FileView.readText (view : FileView) (path : String) : Except FileFault String :=
  textOf (view path)

/-- What stands in a directory under some path. -/
inductive FileNode where
  | file (content : Bytes)
  | directory

/-- Files and directories by their components. Directories on the way to an entry exist too. -/
structure FileTree where
  /-- The entries. -/
  entries : List (List String × FileNode)

namespace FileTree

/-- What the components lead to. -/
def node? (tree : FileTree) (components : List String) : Option FileNode :=
  match tree.entries.find? (·.1 == components) with
  | some (_, node) => some node
  | none =>
    if components.isEmpty || tree.entries.any (components.isPrefixOf ·.1) then some .directory
    else none

/-- The longest name that a directory takes, in bytes. -/
def maxName : Nat := 255

/-- The longest path that is followed, in bytes. -/
def maxPath : Nat := 4095

/-- The tree without entries, which stands for all that is not in a tree. -/
def outside : FileTree where
  entries := []

/-- Follows components from the directory `here`. -/
def walk (tree : FileTree) (here : List String) : List String → Except FileFault Bytes
  | [] =>
    match tree.node? here with
    | some (.file content) => .ok content
    | some .directory => .error .isDirectory
    | none => .error .notFound
  | c :: cs =>
    match tree.node? here with
    | none => .error .notFound
    | some (.file _) => .error .notDirectory
    | some .directory =>
      if c = "" ∨ c = "." then walk tree here cs
      else if c = ".." then
        if here.isEmpty then walk outside [] cs else walk tree here.dropLast cs
      else if maxName < c.utf8ByteSize then .error .nameTooLong
      else walk tree (here ++ [c]) cs

/-- The bytes of the file that a path leads to. Absolute paths lead out of the tree. -/
def read (tree : FileTree) : FileView := fun path =>
  if path.toList.contains '\x00' then .error .nulInName
  else if path.isEmpty then .error .notFound
  else if maxPath < path.utf8ByteSize then .error .nameTooLong
  else if path.toList.head? = some '/' then outside.walk [] (Text.splitOn '/' path)
  else tree.walk [] (Text.splitOn '/' path)

/-- The tree with these files, paths given relative to it; `none` stands for a directory. -/
def ofList (files : List (String × Option Bytes)) : FileTree where
  entries := files.map fun (path, content) =>
    ((Text.splitOn '/' path).filter (fun c => c ≠ "" ∧ c ≠ "."),
      match content with
      | some bytes => .file bytes
      | none => .directory)

end FileTree

end DebugAdapter
