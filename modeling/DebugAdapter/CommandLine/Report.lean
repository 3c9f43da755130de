import DebugAdapter.CommandLine.Help
import DebugAdapter.Config.Settings
import DebugAdapter.Server
/-!
# Reports

What the program tells its user: `Stop.report` when it does not serve at all, `startUp` before it
serves, and `reportOf` when it has served.
-/

namespace DebugAdapter.CommandLine

/-- What the program prints and how it exits. -/
structure Report where
  /-- The text for standard output. -/
  output : String := ""
  /-- The text for standard error. -/
  notice : String := ""
  exitCode : UInt32 := 0
  deriving DecidableEq, Repr

/-- What a wrong use looks like to the user. -/
def UsageError.notice (e : UsageError) : String :=
  "error: " ++ e.message ++ "\n\n" ++ usageLine ++ "\n\nFor more information, try '--help'.\n"

/-- What the program does instead of serving. -/
def Stop.report : Stop → Report
  | help full => { output := helpText full }
  | version => { output := versionText }
  | misuse e => { notice := e.notice, exitCode := 2 }

/-- The variable of the environment that holds the path of the settings when no option does. -/
def configVariable : String :=
  "MAGIC_DAP_CONFIG"

/-- The path of the settings. -/
def configPath? (o : Options) (fallback : Option String) : Option String :=
  o.config.or fallback

/-- The settings to serve with, and what the user is told about them. -/
def startUp (view : FileView) (path? : Option String) : Config.Settings × String :=
  match path? with
  | none => ({}, "")
  | some path =>
    match Config.Settings.loadFile view path with
    | .ok loaded => (loaded.settings, "")
    | .error e =>
      ({}, "magic-dap: failed to load config from " ++ path ++ ": " ++ e.message ++
        "; continuing with defaults\n")

/-- What the program does instead of listening on an address: it has standard input and output
only, so that no address is its own. -/
def cannotListen : Report where
  notice := "Error: Cannot assign requested address (os error 99)\n"
  exitCode := 1

/-- What a server works with, on the scripts under a directory. -/
def backendFor (view : FileView) (o : Options) (settings : Config.Settings) : Session.Backend where
  library := .directory view o.root
  settings := settings.debug
  crashText := Server.crashText

/-- What the user is told about a frame that could not be read. -/
def failureNotice (e : Protocol.FrameError) : String :=
  "Error: " ++ e.message ++ "\n" ++
    (if e.kind = .input then "\nCaused by:\n    " ++ e.detail ++ "\n" else "")

/-- What the program does when it has served. -/
def reportOf : ServerOutcome → Report
  | .ok () => {}
  | .error e => { notice := failureNotice e, exitCode := 1 }

end DebugAdapter.CommandLine
