import Interlock.CommandLine
import Interlock.Text.Basic

/-!
# Help

What the program says of itself on the command line: its version, and for the program and each
command a page with its purpose, its usage and its options.
-/

namespace Interlock.CommandLine

/-- The name of the program. -/
def programName : String := "sentinel-dash"

/-- The version of the program. -/
def versionText : String := programName ++ " 0.1.0\n"

/-- The purpose of the program. -/
def programAbout : String := "Read-only operational dashboard for the trading control plane"

/-- The purpose of a command. -/
def CommandName.about : CommandName → String
  | .watch => "Interactive terminal dashboard (default)"
  | .status => "Poll every source once and print state plus verdict"
  | .kill => "Engage the executor kill switch through the safety gate"

/-- The purpose of the help. -/
def helpAbout : String := "Print this message or the help of the given subcommand(s)"

/-- What the option of a command's own does. -/
def CommandName.flagAbout : CommandName → String
  | .watch => ""
  | .status => "Print JSON instead of text"
  | .kill => "Skip the interactive confirmation"

/-- A line of a table whose first column is `width` wide. -/
def tableLine (width : Nat) (name about : String) : String :=
  "  " ++ Text.padEnd width name ++ "  " ++ about ++ "\n"

/-- The option for the address. -/
def baseUrlOption : String × String :=
  ("    --base-url <BASE_URL>", "Control-plane API base URL (overrides config and environment)")

/-- The option for the directory of settings; `configDir` is the one that the surroundings name. -/
def configDirOption (configDir : Option String) : String × String :=
  ("    --config-dir <CONFIG_DIR>",
    "Directory holding default.toml and per-environment overrides [env: SENTINEL_CONFIG_DIR=" ++
      configDir.getD "" ++ "] [default: " ++ defaultConfigDir ++ "]")

/-- The option that shows the page. -/
def helpOption : String × String := ("-h, --help", "Print help")

/-- The option that shows the version. -/
def versionOption : String × String := ("-V, --version", "Print version")

/-- The options of a page. -/
def optionLines (options : List (String × String)) : String :=
  let width := (options.map fun o => o.1.toList.length).foldl max 0
  "Options:\n" ++ String.join (options.map fun o => tableLine width o.1 o.2)

/-- The commands of the program, and the request for help. -/
def commandLines : String :=
  "Commands:\n" ++ String.join (CommandName.all.map fun c => tableLine 6 c.text c.about) ++
    tableLine 6 helpWord helpAbout

/-- The page of a topic. -/
def helpText (configDir : Option String) : Topic → String
  | .program =>
    programAbout ++ "\n\nUsage: " ++ programName ++ " [OPTIONS] [COMMAND]\n\n" ++ commandLines ++
      "\n" ++ optionLines [baseUrlOption, configDirOption configDir, helpOption, versionOption]
  | .command c =>
    let own := (c.flag?.map fun name => ("    --" ++ name, c.flagAbout)).toList
    c.about ++ "\n\nUsage: " ++ programName ++ " " ++ c.text ++ " [OPTIONS]\n\n" ++
      optionLines ([baseUrlOption] ++ own ++ [configDirOption configDir, helpOption])
  | .help =>
    helpAbout ++ "\n\nUsage: " ++ programName ++ " help [COMMAND]...\n\n" ++
      "Arguments:\n  [COMMAND]...  Print help for the subcommand(s)\n"

end Interlock.CommandLine
