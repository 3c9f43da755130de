import DebugAdapter.CommandLine.Address
import DebugAdapter.Text.Split
/-!
# Options

What the program is started with. `Options.parse` reads the arguments from left to right; what
keeps the program from serving is a `Stop`: a wish for help or for the version, or a wrong use.
-/

namespace DebugAdapter.CommandLine

/-- An option that takes a value. -/
inductive Setting where
  /-- The path of the settings. -/
  | config
  /-- The address to listen on. -/
  | listen
  /-- The directory of the scripts. -/
  | scripts
  deriving DecidableEq, Repr

/-- The name of an option. -/
def Setting.name : Setting → String
  | config => "config"
  | listen => "listen"
  | scripts => "scripts"

/-- An option with a name for its value. -/
def Setting.usage : Setting → String
  | config => "--config <CONFIG>"
  | listen => "--listen <LISTEN>"
  | scripts => "--scripts <SCRIPTS>"

/-- An option that takes no value. -/
inductive Flag where
  | help
  | version
  deriving DecidableEq, Repr

/-- The name of a flag. -/
def Flag.name : Flag → String
  | help => "help"
  | version => "version"

/-- A wrong use of the program. -/
inductive UsageError where
  /-- An argument that is no option. -/
  | unexpectedArgument (text : String)
  /-- A value for a flag. -/
  | unexpectedValue (value : String) (flag : Flag)
  | missingValue (s : Setting)
  | repeated (s : Setting)
  | badAddress (text : String)
  deriving DecidableEq, Repr

/-- The words for a wrong use. -/
def UsageError.message : UsageError → String
  | unexpectedArgument text => "unexpected argument '" ++ text ++ "' found"
  | unexpectedValue value flag =>
    "unexpected value '" ++ value ++ "' for '--" ++ flag.name ++ "' found; no more were expected"
  | missingValue s => "a value is required for '" ++ s.usage ++ "' but none was supplied"
  | repeated s => "the argument '" ++ s.usage ++ "' cannot be used multiple times"
  | badAddress text =>
    "invalid value '" ++ text ++ "' for '" ++ Setting.listen.usage ++
      "': invalid socket address syntax"

/-- What keeps the program from serving. -/
inductive Stop where
  /-- Help is wanted, in full or in short. -/
  | help (full : Bool)
  | version
  | misuse (e : UsageError)
  deriving DecidableEq, Repr

/-- What the program is started with. -/
structure Options where
  config : Option String := none
  listen : Option String := none
  scripts : Option String := none
  deriving DecidableEq, Repr

namespace Options

/-- The value of an option. -/
def get? (o : Options) : Setting → Option String
  | .config => o.config
  | .listen => o.listen
  | .scripts => o.scripts

/-- Gives an option a value. -/
def put (o : Options) (value : String) : Setting → Options
  | .config => { o with config := some value }
  | .listen => { o with listen := some value }
  | .scripts => { o with scripts := some value }

/-- Gives an option a value that it may have, for the first time. -/
def set (o : Options) (s : Setting) (value : String) : Except UsageError Options :=
  if (o.get? s).isSome then .error (.repeated s)
  else if s = .listen then
    if isAddress value then .ok (o.put value s) else .error (.badAddress value)
  else if value.isEmpty then .error (.missingValue s)
  else .ok (o.put value s)

/-- An option whose value came with the next argument, if it came. -/
abbrev Pending := Option (Setting × Option String)

/-- Gives the pending option its value. -/
def resolve (o : Options) : Pending → Except UsageError Options
  | none => .ok o
  | some (s, none) => .error (.missingValue s)
  | some (s, some value) => o.set s value

/-- The stop that a flag stands for. -/
def flagStop : Flag → Stop
  | .help => .help true
  | .version => .version

/-- What the name in a long option stands for. -/
def named? (name : String) : Option (Setting ⊕ Flag) :=
  if name = Setting.config.name then some (.inl .config)
  else if name = Setting.listen.name then some (.inl .listen)
  else if name = Setting.scripts.name then some (.inl .scripts)
  else if name = Flag.help.name then some (.inr .help)
  else if name = Flag.version.name then some (.inr .version)
  else none

/-- The options after a flag, which stops the program unless the pending option is wrong. -/
def raise (o : Options) (pending : Pending) (stop : Stop) : Except Stop (Options × Pending) :=
  match o.resolve pending with
  | .error e => .error (.misuse e)
  | .ok _ => .error stop

/-- The options after a long option, given without its hyphens. -/
def takeLong (o : Options) (pending : Pending) (cs : List Char) :
    Except Stop (Options × Pending) :=
  let (nameChars, value?) := match Text.cutAt? '=' cs with
    | some (name, value) => (name, some (String.ofList value))
    | none => (cs, none)
  let name := String.ofList nameChars
  match named? name, value? with
  | some (.inl s), some value => do
    let o ← (o.resolve pending).mapError .misuse
    return (← (o.set s value).mapError .misuse, none)
  | some (.inl s), none => do
    return (← (o.resolve pending).mapError .misuse, some (s, none))
  | some (.inr flag), some value => .error (.misuse (.unexpectedValue value flag))
  | some (.inr flag), none => o.raise pending (flagStop flag)
  | none, _ => .error (.misuse (.unexpectedArgument ("--" ++ name)))

/-- The options after short options, of which the first one stops the program. -/
def takeShort (o : Options) (pending : Pending) (c : Char) : Except Stop (Options × Pending) :=
  match c with
  | 'h' => o.raise pending (.help false)
  | 'V' => o.raise pending .version
  | c => .error (.misuse (.unexpectedArgument (String.ofList ['-', c])))

/-- The options after an argument that is no option, and so the value of the pending one. -/
def takeValue (o : Options) (pending : Pending) (text : String) :
    Except Stop (Options × Pending) :=
  match pending with
  | some (s, none) => .ok (o, some (s, some text))
  | _ => .error (.misuse (.unexpectedArgument text))

/-- The options after one more argument. -/
def take (o : Options) (pending : Pending) (arg : String) : Except Stop (Options × Pending) :=
  match arg.toList with
  | '-' :: '-' :: cs => o.takeLong pending cs
  | '-' :: c :: _ => o.takeShort pending c
  | _ => o.takeValue pending arg

/-- Reads arguments. Behind two hyphens that stand alone there are no options any more. -/
def parseFrom (o : Options) (pending : Pending) : List String → Except Stop Options
  | [] => (o.resolve pending).mapError .misuse
  | arg :: args =>
    if arg = "--" then
      match args with
      | [] => (o.resolve pending).mapError .misuse
      | next :: _ => .error (.misuse (.unexpectedArgument next))
    else do
      let (o, pending) ← o.take pending arg
      parseFrom o pending args

/-- The options that the arguments give. -/
def parse (args : List String) : Except Stop Options :=
  parseFrom {} none args

/-- The directory of the scripts. -/
def root (o : Options) : String :=
  o.scripts.getD "."

end Options

end DebugAdapter.CommandLine
