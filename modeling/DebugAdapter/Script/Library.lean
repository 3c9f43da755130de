import DebugAdapter.Files.Tree
import DebugAdapter.Request.Defaults
import DebugAdapter.Text.Blank
/-!
# Script libraries

A `Library` finds scripts by their ids: in a table, or as files under a root directory. There the
id `api/user/list` names the script `<root>/api/user/list.ms`, and `<root>/api/user/list.json`
holds its request defaults. Ids cannot lead out of the root: `idParts?` accepts ordinary names only.
-/

namespace DebugAdapter.Script

/-- A script as a library holds it. -/
structure StoredScript where
  /-- The script. -/
  text : String
  /-- The name without extension. -/
  name : String
  /-- What the script is to see of a request. -/
  request : RequestDefaults := {}

/-- Why a library could not answer. -/
inductive ResolveError where
  /-- A file could not be read. -/
  | unreadable (path : String) (fault : FileFault)
  /-- The id can be no script's. -/
  | invalidId (id : String)
  /-- The request defaults are malformed. -/
  | invalidDefaults (path : String) (message : String)
  deriving DecidableEq, Repr

/-- The words for an error. -/
def ResolveError.message : ResolveError → String
  | unreadable path fault => "failed to read " ++ path ++ ": " ++ fault.text
  | invalidId id => "invalid script id `" ++ id ++ "`"
  | invalidDefaults path message => "invalid request defaults in " ++ path ++ ": " ++ message

/-- What a library answers; nothing when it has no such script. -/
abbrev Resolution := Except ResolveError (Option StoredScript)

/-! ## Ids in directories -/

/-- The extension of scripts. -/
def scriptExtension : String := ".ms"

/-- The extension of request defaults. -/
def defaultsExtension : String := ".json"

/-- The characters of an id without the extensions at its end. -/
def dropExtensions (cs : List Char) : List Char :=
  if cs ≠ [] ∧ scriptExtension.toList.isSuffixOf cs then
    dropExtensions (cs.take (cs.length - scriptExtension.toList.length))
  else cs
termination_by cs.length
decreasing_by
  rename_i h
  have hcs : 0 < cs.length := List.length_pos_iff.2 h.1
  have hext : scriptExtension.toList.length = 3 := by decide
  simp only [List.length_take, hext]
  omega

/-- The names that the characters of an id lead through, when all of them are ordinary: neither
the root nor a dot comes first, and two dots never. Empty names and later dots do not count. -/
def idParts? (cs : List Char) : Option (List String) :=
  match (Text.splitChars '/' cs).map String.ofList with
  | [] => none
  | first :: rest =>
    if first = "" ∨ first = "." ∨ (first :: rest).contains ".." then none
    else some (first :: rest.filter fun c => c ≠ "" ∧ c ≠ ".")

/-- The path of what the id leads to under a root. -/
def joinRoot (root : String) (cs : List Char) : String :=
  let separator := if root.isEmpty ∨ root.toList.getLast? = some '/' then "" else "/"
  root ++ separator ++ String.ofList cs

/-- Where a script of a directory is, and what it is called. -/
structure Location where
  /-- The name of the script. -/
  name : String
  /-- The path of the script. -/
  script : String
  /-- The path of its request defaults. -/
  defaults : String
  deriving DecidableEq, Repr

/-- Where the script with an id is. -/
def locate (root id : String) : Except ResolveError Location :=
  let cs := dropExtensions (Text.trimChars id.toList)
  match idParts? cs with
  | none => .error (.invalidId id)
  | some parts =>
    let base := joinRoot root cs
    .ok ⟨"/".intercalate parts, base ++ scriptExtension, base ++ defaultsExtension⟩

/-- The files that the script with an id takes. -/
def filesOf (root id : String) : List String :=
  match locate root id with
  | .ok place => [place.script, place.defaults]
  | .error _ => []

/-- The text of a file that may be missing. -/
def textIfThere (path : String) (content : Except FileFault Bytes) :
    Except ResolveError (Option String) :=
  match textOf content with
  | .ok text => .ok (some text)
  | .error .notFound => .ok none
  | .error fault => .error (.unreadable path fault)

/-- The request defaults in a file that may be missing. -/
def defaultsIfThere (path : String) (content : Except FileFault Bytes) :
    Except ResolveError RequestDefaults := do
  match ← textIfThere path content with
  | none => return {}
  | some text => (RequestDefaults.ofText text).mapError (.invalidDefaults path)

/-- Reads the script with an id under a root. The request defaults are only read when the script is
there. -/
def resolveWith {m : Type → Type} [Monad m] (read : String → m (Except FileFault Bytes))
    (root id : String) : m Resolution := do
  match locate root id with
  | .error e => return .error e
  | .ok place =>
    match textIfThere place.script (← read place.script) with
    | .error e => return .error e
    | .ok none => return .ok none
    | .ok (some text) =>
      let content ← read place.defaults
      return (defaultsIfThere place.defaults content).map fun request =>
        some ⟨text, place.name, request⟩

/-- The script with an id under a root. -/
def resolveIn (view : FileView) (root id : String) : Resolution :=
  Id.run (resolveWith (fun path => pure (view path)) root id)

/-! ## Libraries -/

/-- Where scripts are found. -/
inductive Library where
  /-- Scripts by their ids. -/
  | table (scripts : Table StoredScript)
  /-- The scripts under a root directory. -/
  | directory (view : FileView) (root : String)

/-- The script with an id. -/
def Library.resolve : Library → (id : String) → Resolution
  | table scripts, id => .ok (scripts.get? id)
  | directory view root, id => resolveIn view root id

end DebugAdapter.Script
