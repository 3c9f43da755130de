import DebugAdapter.CommandLine.Options
/-!
# Help

The texts that tell how to use the program: a line for each option in short, and everything that
there is to say in full.
-/

namespace DebugAdapter.CommandLine

/-- The version of the program. -/
def versionText : String :=
  "magic-dap 0.1.0\n"

/-- How the program is called. -/
def usageLine : String :=
  "Usage: magic-dap [OPTIONS]"

/-- What help says about an option. -/
structure HelpEntry where
  /-- The option as it is written, from its short name on. -/
  names : String
  /-- What it is for, in a few words. -/
  brief : String
  /-- What it is for, by paragraphs. -/
  full : List String

/-- What help says about the options. -/
def helpEntries : List HelpEntry := [
  ⟨"    " ++ Setting.config.usage, "Path to a TOML config file",
    ["Path to a TOML config file.",
      "If unset, `MAGIC_DAP_CONFIG` is used as a fallback. When neither are provided the " ++
        "adapter uses in-memory defaults."]⟩,
  ⟨"    " ++ Setting.listen.usage, "Accept DAP clients on this TCP address instead of stdio",
    ["Accept DAP clients on this TCP address instead of stdio"]⟩,
  ⟨"    " ++ Setting.scripts.usage,
    "Directory scripts are resolved from (`<id>.ms`, optional `<id>.json`) [default: .]",
    ["Directory scripts are resolved from (`<id>.ms`, optional `<id>.json`)", "[default: .]"]⟩,
  ⟨"-h, --help", "Print help (see more with '--help')", ["Print help (see a summary with '-h')"]⟩,
  ⟨"-V, --version", "Print version", ["Print version"]⟩]

/-- Spaces. -/
def spaces (n : Nat) : String :=
  String.ofList (List.replicate n ' ')

/-- How wide the names of the widest option are. -/
def namesWidth : Nat :=
  (helpEntries.map fun e => e.names.length).foldl max 0

/-- An option in short: one line, what it is for in a column. -/
def HelpEntry.briefText (e : HelpEntry) : String :=
  "  " ++ e.names ++ spaces (namesWidth - e.names.length + 2) ++ e.brief ++ "\n"

/-- An option in full: its names, and its paragraphs below them. -/
def HelpEntry.fullText (e : HelpEntry) : String :=
  let margin := "\n" ++ spaces 10
  "  " ++ e.names ++ margin ++ (margin ++ margin).intercalate e.full ++ "\n"

/-- The help, in full or in short. -/
def helpText (full : Bool) : String :=
  let about :=
    if full then
      "Debug adapter for magic-api scripts.\n\nSpeaks DAP over stdio unless `--listen` is given."
    else "Debug Adapter Protocol back end for magic-api scripts."
  let entries :=
    if full then "\n".intercalate (helpEntries.map HelpEntry.fullText)
    else String.join (helpEntries.map HelpEntry.briefText)
  about ++ "\n\n" ++ usageLine ++ "\n\nOptions:\n" ++ entries

end DebugAdapter.CommandLine
