import NameLint.Command.Item
import NameLint.Command.Output
import NameLint.Text.ControlSequence
import NameLint.Text.Similarity

/-!
# Refused command lines

Why a command line is refused, and what the user is told. The usage that is shown may name the items
that were given. What is quoted of the command line is shown without controls.
-/

namespace NameLint.Command

set_option autoImplicit false

inductive Refusal where
  | unknown (argument : String) (similar : Option Item) (given : List Item)
  | unexpectedValue (item : Item) (value : String) (isFirst : Bool)
  | missingValue (item : Item)
  | invalidValue (item : Item) (value : String)
  | repeated (item : Item)
deriving DecidableEq, Repr

def usage (given : List Item) : String :=
  if given.isEmpty then "Usage: camelint [OPTIONS] [PATHS]..."
  else
    let options := (given.filter (· ≠ .paths)).map fun item => " " ++ item.render
    "Usage: camelint" ++ String.join options ++
      (if given.contains .paths then " <PATHS>..." else " [PATHS]...")

/-- The usage that shows the items of a run as alternatives, behind an item that is none of them. -/
def usageBeside (item : Item) : String :=
  let label (item : Item) : String := if item = .paths then "PATHS" else item.render
  "Usage: camelint " ++ (if Item.ofRun.contains item then "" else item.render ++ " ") ++
    "<" ++ "|".intercalate (Item.ofRun.map label) ++ ">"

namespace Refusal

def choiceLines (item : Item) : String :=
  if item.choices.isEmpty then ""
  else "\n  [possible values: " ++ ", ".intercalate item.choices ++ "]"

/-- The parts of the message, which are set apart by empty lines. -/
def blocks : Refusal → List String
  | .unknown argument similar given =>
      let argument := Text.withoutControls argument
      let tip :=
        match similar with
        | some item => "a similar argument exists: '--" ++ item.long ++ "'"
        | none => "to pass '" ++ argument ++ "' as a value, use '-- " ++ argument ++ "'"
      ["unexpected argument '" ++ argument ++ "' found", "  tip: " ++ tip, usage given]
  | .unexpectedValue item value isFirst =>
      ["unexpected value '" ++ Text.withoutControls value ++ "' for '" ++ item.render ++
          "' found; no more were expected",
        if isFirst then usage [item] else usageBeside item]
  | .missingValue item =>
      ["a value is required for '" ++ item.render ++ "' but none was supplied" ++
        choiceLines item]
  | .invalidValue item value =>
      let tip :=
        match Text.closest? value item.choices with
        | some choice => ["  tip: a similar value exists: '" ++ choice ++ "'"]
        | none => []
      ("invalid value '" ++ Text.withoutControls value ++ "' for '" ++ item.render ++ "'" ++
        choiceLines item) :: tip
  | .repeated item =>
      ["the argument '" ++ item.render ++ "' cannot be used multiple times", usage []]

def message (refusal : Refusal) : String :=
  "error: " ++ "\n\n".intercalate (refusal.blocks ++ ["For more information, try '--help'."])

end Refusal

def helpLines : List String :=
  ["Flags JavaScript identifiers that are not in camelCase",
   "",
   usage [],
   "",
   "Arguments:",
   "  [PATHS]...  Files or directories to check [default: .]",
   "",
   "Options:",
   "  -c, --config <CONFIG>    Path to a camelint.toml (defaults to ./camelint.toml if present)",
   "      --properties <MODE>  Whether property names are checked: \"always\" or \"never\"",
   "      --fix                Apply fixes and write the files back",
   "      --unsafe-fixes       Also apply fixes marked unsafe",
   "      --format <FORMAT>    Output format [default: text] [possible values: text, checkstyle]",
   "  -v, --verbose            Show debug logging",
   "  -h, --help               Print help",
   "  -V, --version            Print version"]

def versionLine : String := "camelint 0.1.0"

/-- How a command line ends that asks for no run. -/
inductive Ending where
  | help
  | version
  | refused (refusal : Refusal)
deriving DecidableEq, Repr

def Ending.output : Ending → Output
  | .help => { exit := 0, stdout := joinLines helpLines }
  | .version => { exit := 0, stdout := joinLines [versionLine] }
  | .refused refusal => { exit := 2, stderr := joinLines [refusal.message] }

end NameLint.Command
