/-
The commands of the tool.
-/
import ClassNaming.Cli.Arguments
import ClassNaming.Cli.Usage
import ClassNaming.Fault

namespace ClassNaming.Cli

def strictSwitch : Switch :=
  .toggle "strict" ["--strict"] "Reject utility classes (strict BEM)"

def allowUnknownSwitch : Switch :=
  .toggle "allow_unknown" ["--allow-unknown"] "Pass unknown classes with a note"

def formatSwitch (choices : List String) : Switch :=
  ⟨"format", ["--format"], .value "FORMAT" choices, "Output format (default: display.format)"⟩

/-- judge class names given on the command line -/
def validateCommand : Command :=
  { title := "hcnc validate"
    switches := [.help,
      .toggle "selector" ["--selector"] "Treat the input as a CSS selector",
      ⟨"scss", ["--scss"], .value "FILE" [], "Expand and validate the selectors of an SCSS file"⟩,
      strictSwitch, allowUnknownSwitch, formatSwitch ["auto", "list", "json"]]
    operand := .any "classes" "Class names (e.g., \"card card_info isActive\")" }

/-- judge the class names in files -/
def checkCommand : Command :=
  { title := "hcnc check"
    switches := [.help, strictSwitch, allowUnknownSwitch, formatSwitch ["auto", "list", "summary", "json"]]
    operand := .one "path" "Directory (or single file) to check" }

/-- register the lint plugins -/
def initCommand : Command :=
  { title := "hcnc init", switches := [.help] }

/-- print the pattern sources -/
def patternsCommand : Command :=
  { title := "hcnc patterns"
    switches := [.help,
      .toggle "grit" ["--grit"] "Use the lint-rule names (validHcncClass, ...)",
      .toggle "utilities" ["--utilities"] "Print the utility catalog by category",
      .toggle "as_list" ["--list"] "One pattern per line instead of JSON"] }

/-- show or change settings -/
def configCommand : Command :=
  { title := "hcnc config"
    switches := [.help,
      ⟨"set", ["--set"], .value "KEY=VALUE" [], "Set config value (e.g., rules.strict_bem=true)"⟩,
      .toggle "user" ["--user"] "Apply to user config instead of project"] }

/-- print the guide -/
def helpCommand : Command :=
  { title := "hcnc help", switches := [.help] }

/-- the commands of the tool -/
inductive Verb where
  | validate
  | check
  | init
  | patterns
  | config
  | help
deriving DecidableEq, Repr

namespace Verb

/-- the commands in the order they are listed -/
def all : List Verb := [.validate, .check, .init, .patterns, .config, .help]

def word : Verb → String
  | .validate => "validate"
  | .check => "check"
  | .init => "init"
  | .patterns => "patterns"
  | .config => "config"
  | .help => "help"

def about : Verb → String
  | .validate => "Validate a class string, selector, or SCSS file"
  | .check => "Check class names in files under a directory"
  | .init => "Add HCNC plugins to biome.json"
  | .patterns => "Print the HCNC regex sources"
  | .config => "View or set configuration"
  | .help => "Show naming rules and usage"

def command : Verb → Command
  | .validate => validateCommand
  | .check => checkCommand
  | .init => initCommand
  | .patterns => patternsCommand
  | .config => configCommand
  | .help => helpCommand

def ofWord? (word : String) : Option Verb :=
  all.find? (·.word == word)

def words : List String := all.map Verb.word

end Verb

/-- the tool itself -/
def tool : Command :=
  { title := "hcnc"
    about := "HCNC -- Hikasami CSS Naming Convention validator"
    switches := [.help,
      ⟨"project", ["--project", "-p"], .value "PROJECT" [], "Project directory (default: HCNC_PROJECT_PATH or current)"⟩,
      .toggle "verbose" ["--verbose", "-v"] "Debug logging on stderr",
      ⟨"version", ["--version", "-V"], .version, "show program's version number and exit"⟩]
    operand := .command "command" "Commands" (Verb.all.map fun v => (v.word, v.about))
    closing := "Run 'hcnc help' for the naming rules." }

/-- what a command line asks for: a command with its arguments, or none; and what it says to the tool itself -/
structure Request where
  general : Arguments
  verb : Option (Verb × Arguments)
deriving Repr

/-- a halt and the command that is halted -/
abbrev Halted := Command × Halt

/-- read a command line; what is left over anywhere on it is refused -/
def request (words : List String) : Except Halted Request := do
  let general ← (tool.arguments words).mapError fun halt => (tool, halt)
  let (verb, left) ← match general.operands.getD [] with
    | [] => pure (none, [])
    | word :: rest =>
      match Verb.ofWord? word with
      | none => throw (tool, badChoice "command" word Verb.words)
      | some verb => do
        let a ← (verb.command.arguments rest).mapError fun halt => (verb.command, halt)
        pure (some (verb, a), a.left)
  let left := general.left ++ left
  if left.isEmpty then return ⟨general, verb⟩
  else throw (tool, .refused ("unrecognized arguments: " ++ " ".intercalate left))

/-- the refusal of a command that does not exist -/
def unknownCommand (word : String) : Fault :=
  .noKey (Text.quoted ("Unknown command: " ++ word ++ ". Available: [" ++ ", ".intercalate (Verb.words.map Text.quoted)
    ++ "]"))

end ClassNaming.Cli
