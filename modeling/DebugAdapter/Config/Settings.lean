import DebugAdapter.Files.Tree
import DebugAdapter.Json.Decode
import DebugAdapter.Toml.Parser
/-!
# Settings

The adapter reads its `Settings` from a TOML document with two sections, `[logging]` and `[debug]`.
Every key has a default. A section may also be a list of its values in order. `Settings.load` gives
the settings together with the keys that are none of a section's, which are reported and have no
effect.
-/

namespace DebugAdapter.Config

/-- How the adapter logs. -/
structure LoggingSettings where
  level : String := "info"
  json : Bool := false
  stderr : Bool := true
  file : Option String := none
  includeBacktrace : Bool := false
  deriving DecidableEq, Repr

/-- How the adapter starts and runs scripts. -/
structure DebugSettings where
  /-- How long a launched script waits for its breakpoints, in milliseconds. -/
  startTimeout : Nat := 5000
  /-- How often it looks for them, in milliseconds. -/
  startPollInterval : Nat := 250
  threadName : String := "magic-script-debug"
  deriving DecidableEq, Repr, Inhabited

/-- How often a launched script looks for breakpoints: at least a millisecond passes. -/
def DebugSettings.pollInterval (s : DebugSettings) : Nat :=
  max s.startPollInterval 1

/-- All settings. -/
structure Settings where
  logging : LoggingSettings := {}
  debug : DebugSettings := {}
  deriving DecidableEq, Repr

/-! ## Decoding -/

/-- A value as a decoder reports it. -/
def found : Toml.Value → Json.Found
  | .string s => .string s
  | .integer n => .int n
  | .float x => .float (Double.pointedText x)
  | .boolean b => .bool b
  | .datetime | .table _ _ => .map
  | .list _ | .tables _ => .sequence

/-- Turns a value into typed data. -/
abbrev Decoder (α : Type) := Toml.Value → Except Json.DecodeError α

namespace Decoder

/-- Fails with what was found. -/
def mismatch {α : Type} (wanted : String) (v : Toml.Value) : Except Json.DecodeError α :=
  .error (.wrongType (found v) wanted)

/-- Takes a string, or says that it wanted something else. -/
def textAs (wanted : String) : Decoder String
  | .string s => .ok s
  | v => mismatch wanted v

/-- Takes a string. -/
def text : Decoder String :=
  textAs "a string"

/-- Takes the path of a file. -/
def path : Decoder String :=
  textAs "path string"

/-- Takes a truth value. -/
def flag : Decoder Bool
  | .boolean b => .ok b
  | v => mismatch "a boolean" v

/-- Takes a natural number. -/
def natural : Decoder Nat
  | .integer n => if 0 ≤ n then .ok n.toNat else .error (.wrongValue n "u64")
  | v => mismatch "u64" v

end Decoder

/-- A key of a section of type `ρ`. -/
structure SectionKey (ρ : Type) where
  name : String
  /-- Decodes a value and stores it. -/
  store : Toml.Value → ρ → Except Json.DecodeError ρ

/-- A key that `d` decodes and `put` stores. -/
def SectionKey.of {ρ α : Type} (name : String) (d : Decoder α) (put : α → ρ → ρ) : SectionKey ρ :=
  ⟨name, fun v r => (d v).map fun a => put a r⟩

/-- The keys of a section of type `ρ`, in order. -/
structure SectionShape (ρ : Type) where
  /-- What messages call the section. -/
  name : String
  /-- The section without any key. -/
  blank : ρ
  keys : List (SectionKey ρ)

/-- A key by the names that lead to it. -/
abbrev KeyPath := List String

/-- Data, and the keys that had no part in it. -/
abbrev WithUnknown (ρ : Type) := ρ × List KeyPath

namespace SectionShape

variable {ρ : Type} (shape : SectionShape ρ)

/-- Stores the entries of a table in their order. -/
def storeEntries : Toml.Entries → ρ → Except Json.DecodeError (WithUnknown ρ)
  | [], r => .ok (r, [])
  | (name, v) :: es, r =>
    match shape.keys.find? (·.name == name) with
    | none => (storeEntries es r).map fun (r, unknown) => (r, [name] :: unknown)
    | some key => do
      let r ← key.store v r
      storeEntries es r

/-- Stores the items of a list in the keys, one by one. Further items do not count. -/
def storeItems : List (SectionKey ρ) → List Toml.Value → ρ → Except Json.DecodeError ρ
  | key :: keys, v :: vs, r => do
    let r ← key.store v r
    storeItems keys vs r
  | _, _, r => .ok r

/-- The name of the only entry of a date or a time when it is taken for a table. -/
def datetimeKey : String := "$__toml_private_datetime"

/-- Takes a section. -/
def decode : Toml.Value → Except Json.DecodeError (WithUnknown ρ)
  | .table _ es => shape.storeEntries es shape.blank
  | .datetime => .ok (shape.blank, [[datetimeKey]])
  | .list vs => (storeItems shape.keys vs shape.blank).map fun r => (r, [])
  | .tables items =>
    (storeItems shape.keys (items.map (.table .header)) shape.blank).map fun r => (r, [])
  | v => Decoder.mismatch ("struct " ++ shape.name) v

end SectionShape

/-- Takes the logging section. -/
def LoggingSettings.shape : SectionShape LoggingSettings where
  name := "LoggingConfig"
  blank := {}
  keys := [
    .of "level" .text fun a r => { r with level := a },
    .of "json" .flag fun a r => { r with json := a },
    .of "stderr" .flag fun a r => { r with stderr := a },
    .of "file" .path fun a r => { r with file := some a },
    .of "include_backtrace" .flag fun a r => { r with includeBacktrace := a }]

/-- Takes the debug section. -/
def DebugSettings.shape : SectionShape DebugSettings where
  name := "DebugConfig"
  blank := {}
  keys := [
    .of "start_timeout_ms" .natural fun a r => { r with startTimeout := a },
    .of "start_poll_interval_ms" .natural fun a r => { r with startPollInterval := a },
    .of "thread_name" .text fun a r => { r with threadName := a }]

/-- Takes the sections of a document in their order. -/
def Settings.decodeFrom : Toml.Entries → Settings → Except Json.DecodeError (WithUnknown Settings)
  | [], s => .ok (s, [])
  | (name, v) :: es, s => do
    let (s, inner) ←
      if name = "logging" then do
        let (section_, unknown) ← LoggingSettings.shape.decode v
        pure ({ s with logging := section_ }, unknown.map (name :: ·))
      else if name = "debug" then do
        let (section_, unknown) ← DebugSettings.shape.decode v
        pure ({ s with debug := section_ }, unknown.map (name :: ·))
      else pure (s, [[name]])
    let (s, outer) ← decodeFrom es s
    return (s, inner ++ outer)

/-! ## Loading -/

/-- Why settings could not be loaded. -/
inductive ConfigError where
  /-- The file could not be read. -/
  | unreadable (path : String) (fault : FileFault)
  /-- The text is no TOML document. -/
  | malformed
  /-- The document has a value of a wrong kind. -/
  | undecodable (error : Json.DecodeError)
  deriving DecidableEq, Repr

/-- The words for an error. -/
def ConfigError.message : ConfigError → String
  | unreadable path fault => "failed to read config file " ++ path ++ ": " ++ fault.text
  | malformed => "invalid config: malformed document"
  | undecodable e => "invalid config: " ++ e.message

/-- Settings, and the keys of the document that are none. -/
structure Loaded where
  settings : Settings
  /-- The keys with points in between, in ascending order. -/
  unknownKeys : List String

/-- A key with points in between. Points in front of all names do not count. -/
def dottedText (path : KeyPath) : String :=
  String.ofList ((".".intercalate path).toList.dropWhile (· = '.'))

/-- The list without repetitions next to each other. -/
def dropRepeats : List String → List String
  | [] => []
  | [s] => [s]
  | s :: t :: rest => if s = t then dropRepeats (t :: rest) else s :: dropRepeats (t :: rest)

/-- The keys in ascending order, each once. -/
def listKeys (paths : List KeyPath) : List String :=
  dropRepeats ((paths.map dottedText).mergeSort fun s t => decide (s ≤ t))

/-- The settings of a document. -/
def Settings.load (text : String) : Except ConfigError Loaded :=
  match Toml.parse text with
  | none => .error .malformed
  | some entries =>
    match decodeFrom entries {} with
    | .error e => .error (.undecodable e)
    | .ok (settings, unknown) => .ok ⟨settings, listKeys unknown⟩

/-- The settings of the document that a path leads to. -/
def Settings.loadFile (view : FileView) (path : String) : Except ConfigError Loaded :=
  match view.readText path with
  | .error fault => .error (.unreadable path fault)
  | .ok text => load text

end DebugAdapter.Config
