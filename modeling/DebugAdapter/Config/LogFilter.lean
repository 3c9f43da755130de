import DebugAdapter.Config.FieldValue
import DebugAdapter.Config.Settings
import DebugAdapter.Text.Blank
import DebugAdapter.Text.Letters
import DebugAdapter.Text.Split
/-!
# Log filters

A `LogFilter` is a list of directives, each a level for a target, a span and fields of it. A
directive is read by a machine that looks at one character after the other. Directives are kept
from the most to the least specific one, and one for the same place replaces the earlier one.
`effectiveFilter` merges the level of the settings with the one of the environment.
-/

namespace DebugAdapter.Config

/-! ## Levels -/

/-- How much is logged. -/
inductive LogLevel where
  | off
  | error
  | warn
  | info
  | debug
  | trace
  deriving DecidableEq, Repr, Inhabited

namespace LogLevel

/-- The levels, each at its number. -/
def all : List LogLevel :=
  [off, error, warn, info, debug, trace]

/-- The name of a level. -/
def name : LogLevel → String
  | off => "off"
  | error => "error"
  | warn => "warn"
  | info => "info"
  | debug => "debug"
  | trace => "trace"

/-- The text in lower case, of ASCII letters alone. -/
def lowerCase (s : String) : String :=
  String.ofList (s.toList.map Char.toLower)

/-- The level that a name in any case or a number denotes; nothing stands for errors. -/
def ofText? (s : String) : Option LogLevel :=
  match Text.parseIndex? s with
  | some n => all[n]?
  | none => if s.isEmpty then some error else all.find? fun l => l.name == lowerCase s

end LogLevel

/-! ## Directives -/

/-- What a field of a span has to be. -/
structure FieldMatch where
  name : String
  value : Option FieldValue
  deriving DecidableEq, Repr

/-- A level for some place. -/
structure Directive where
  level : LogLevel := .trace
  target : Option String := none
  span : Option String := none
  fields : List FieldMatch := []
  deriving DecidableEq, Repr, Inhabited

/-- What the machine that reads a directive is at; places are counted in bytes. -/
inductive Stage where
  | start
  | levelOrTarget (start : Nat)
  | span (start : Nat)
  | field (start : Nat)
  | fieldsDone
  | target
  | level (start : Nat)
  deriving DecidableEq, Repr

namespace Directive

/-- The text between two places. -/
def slice (text : Bytes) (start stop : Nat) : Option String :=
  Utf8.toString? ((text.take stop).drop start)

/-- Whether a directive may start with `c`. -/
def mayStart (c : Char) : Bool :=
  c == '[' || c == '-' || c == ':' || c == '_' || Text.isLetterOrDigit c

/-- The field that a text denotes. What follows a second equals sign does not count. -/
def fieldOf? (s : String) : Option FieldMatch :=
  match Text.splitOn '=' s with
  | [] => none
  | [name] => if name.isEmpty then none else some ⟨name, none⟩
  | name :: value :: _ => (FieldValue.ofText? value).map fun v => ⟨name, some v⟩

/-- The machine after the character `c` at place `i` of `text`. -/
def advance? (text : Bytes) (d : Directive) (i : Nat) (c : Char) :
    Stage → Option (Directive × Stage)
  | .start =>
    if c = '[' then some (d, .span (i + 1))
    else if mayStart c then some (d, .levelOrTarget i)
    else none
  | .levelOrTarget start =>
    if c = '=' then (slice text start i).map fun t => ({ d with target := some t }, .level (i + 1))
    else if c = '[' then
      (slice text start i).map fun t => ({ d with target := some t }, .span (i + 1))
    else some (d, .levelOrTarget start)
  | .target => if c = '=' then some (d, .level (i + 1)) else none
  | .span start =>
    if c = ']' then (slice text start i).map fun s => ({ d with span := some s }, .target)
    else if c = '\x7b' then
      (slice text start i).map fun s =>
        ({ d with span := if s.isEmpty then none else some s }, .field (i + 1))
    else some (d, .span start)
  | .field start =>
    if c = '\x7d' then do
      let f ← fieldOf? (← slice text start i)
      return ({ d with fields := d.fields ++ [f] }, .fieldsDone)
    else some (d, .field start)
  | .fieldsDone => if c = ']' then some (d, .target) else none
  | .level start => some (d, .level start)

/-- The machine after the characters from place `i` of `text` on. -/
def advanceAll? (text : Bytes) : Directive → (i : Nat) → Stage → List Char →
    Option (Directive × Stage)
  | d, _, stage, [] => some (d, stage)
  | d, i, stage, c :: cs =>
    (advance? text d i c stage).bind fun (d, stage) =>
      advanceAll? text d (i + c.utf8Size) stage cs

/-- What a directive without a level says: a level alone, or everything for a target. -/
def levelOrTarget (d : Directive) (s : String) : Directive :=
  match if s.isEmpty then some LogLevel.trace else LogLevel.ofText? s with
  | some level => { d with level, target := none }
  | none => { d with level := .trace, target := some s }

/-- The directive that is done when the machine stops. -/
def stop? (text : Bytes) (d : Directive) : Stage → Option Directive
  | .levelOrTarget start => (slice text start text.length).map d.levelOrTarget
  | .level start => do
    let s ← slice text start text.length
    let level ← if s.isEmpty then some .trace else LogLevel.ofText? s
    return { d with level }
  | .target => some d
  | _ => none

/-- Reads a directive. Blanks in front are not looked at, but places are counted from them on. -/
def parse? (s : String) : Option Directive :=
  let text := Utf8.ofString s
  (advanceAll? text {} 0 .start (Text.trimChars s.toList)).bind fun (d, stage) =>
    stop? text d stage

/-! ## The order of directives -/

/-- Compares what may be there, nothing coming first. -/
def compareOptional {α : Type} (order : α → α → Ordering) : Option α → Option α → Ordering
  | none, none => .eq
  | none, some _ => .lt
  | some _, none => .gt
  | some a, some b => order a b

/-- Compares two fields; those that ask for no value come first. -/
def compareField (f g : FieldMatch) : Ordering :=
  (compare f.value.isSome.toNat g.value.isSome.toNat).then <|
  (compare f.name g.name).then <| compareOptional FieldValue.compare f.value g.value

/-- Compares two lists of fields. -/
def compareFields : List FieldMatch → List FieldMatch → Ordering
  | [], [] => .eq
  | [], _ :: _ => .lt
  | _ :: _, [] => .gt
  | f :: fs, g :: gs => (compareField f g).then (compareFields fs gs)

/-- Compares how specific two directives are. -/
def specificity (d e : Directive) : Ordering :=
  (compareOptional compare (d.target.map (·.utf8ByteSize)) (e.target.map (·.utf8ByteSize))).then <|
  (compare d.span.isSome.toNat e.span.isSome.toNat).then <|
  (compare d.fields.length e.fields.length).then <|
  (compareOptional compare d.target e.target).then <|
  (compareOptional compare d.span e.span).then <| compareFields d.fields e.fields

/-- Whether the directive depends on the spans around an event. -/
def isDynamic (d : Directive) : Bool :=
  d.span.isSome || !d.fields.isEmpty

/-- What a directive says without looking at spans, if it says anything. -/
def static? (d : Directive) : Option Directive :=
  if d.span.isSome || d.fields.any (·.value.isSome) then none else some d

/-! ## Text -/

/-- The text of a field. -/
def fieldText (f : FieldMatch) : String :=
  match f.value with
  | none => f.name
  | some v => f.name ++ "=" ++ v.text

/-- The text of the place that a directive is for. -/
def placeText (d : Directive) : String :=
  let fields :=
    if d.fields.isEmpty then ""
    else "\x7b" ++ ",".intercalate (d.fields.map fieldText) ++ "\x7d"
  let span := if d.isDynamic then "[" ++ d.span.getD "" ++ fields ++ "]" else ""
  d.target.getD "" ++ span

/-- The text of a directive. -/
def render (d : Directive) : String :=
  if d.target.isSome || d.isDynamic then d.placeText ++ "=" ++ d.level.name else d.level.name

end Directive

/-! ## Filters -/

/-- Directives in the order in which they are looked at. -/
structure LogFilter where
  /-- Those that do not look at spans. -/
  statics : List Directive := []
  /-- Those that do. -/
  dynamics : List Directive := []
  deriving DecidableEq, Repr

namespace LogFilter

/-- Puts a directive in its place, for an earlier one if that is for the same place. -/
def insert (d : Directive) : List Directive → List Directive
  | [] => [d]
  | e :: es =>
    match d.specificity e with
    | .gt => d :: e :: es
    | .eq => d :: es
    | .lt => e :: insert d es

/-- The filter of the directives; without any, nothing is logged. -/
def ofDirectives (ds : List Directive) : LogFilter :=
  let (dynamics, plain) := ds.partition Directive.isDynamic
  let statics := plain ++ dynamics.filterMap Directive.static?
  ⟨statics.foldl (fun es d => insert d es) [], dynamics.foldl (fun es d => insert d es) []⟩

/-- Reads directives between commas. -/
def parse? (s : String) : Option LogFilter :=
  (((Text.splitOn ',' s).filter (!·.isEmpty)).mapM Directive.parse?).map ofDirectives

/-- The text of a filter. -/
def render (f : LogFilter) : String :=
  ",".intercalate ((f.statics ++ f.dynamics).map Directive.render)

/-- The filter for one level everywhere. -/
def everywhere (level : LogLevel) : LogFilter :=
  ofDirectives [{ level }]

end LogFilter

/-! ## The effective filter -/

/-- The names of levels that settings may use, and what they stand for. -/
def levelNames : List (String × String) :=
  [("trace", "trace"), ("debug", "debug"), ("info", "info"), ("warn", "warn"),
    ("warning", "warn"), ("error", "error"), ("off", "off"), ("none", "off")]

/-- The directives that a level of the settings stands for. -/
def directivesOf (level : String) : String :=
  let t := Text.trim level
  if t.isEmpty then "info" else (levelNames.lookup (LogLevel.lowerCase t)).getD t

/-- The filter of a level of the settings. -/
def filterOf (level : String) : LogFilter :=
  (LogFilter.parse? (directivesOf level)).getD (.everywhere .info)

/-- The filter of a level of the settings and the directives of the environment, which count for
more. -/
def effectiveFilter (level : String) (environment : Option String) : LogFilter :=
  match (environment.map Text.trim).filter (!·.isEmpty) with
  | none => filterOf level
  | some given =>
    ((LogFilter.parse? (directivesOf level ++ "," ++ given)).or (LogFilter.parse? given)).getD
      (filterOf level)

end DebugAdapter.Config
