/-!
# Items of a command line

The paths and the options that a command line can give, with their names and the names of their
values.
-/

namespace NameLint.Command

set_option autoImplicit false

inductive Item where
  | paths
  | config
  | properties
  | fix
  | unsafeFixes
  | format
  | verbose
  | help
  | version
deriving DecidableEq, Repr

namespace Item

def options : List Item :=
  [.config, .properties, .fix, .unsafeFixes, .format, .verbose, .help, .version]

/-- The items that say what a run does; the others ask for no run. -/
def ofRun : List Item :=
  [.paths, .config, .properties, .fix, .unsafeFixes, .format, .verbose]

def long : Item → String
  | .paths => ""
  | .config => "config"
  | .properties => "properties"
  | .fix => "fix"
  | .unsafeFixes => "unsafe-fixes"
  | .format => "format"
  | .verbose => "verbose"
  | .help => "help"
  | .version => "version"

def short? : Item → Option Char
  | .config => some 'c'
  | .verbose => some 'v'
  | .help => some 'h'
  | .version => some 'V'
  | _ => none

def valueName? : Item → Option String
  | .paths => some "PATHS"
  | .config => some "CONFIG"
  | .properties => some "MODE"
  | .format => some "FORMAT"
  | _ => none

def takesValue (item : Item) : Bool :=
  item.valueName?.isSome

/-- The only values that are accepted; no list for an item that accepts all. -/
def choices : Item → List String
  | .format => ["text", "checkstyle"]
  | _ => []

def ofLong? (name : String) : Option Item :=
  options.find? (·.long == name)

def ofShort? (letter : Char) : Option Item :=
  options.find? (·.short? == some letter)

def render (item : Item) : String :=
  if item = .paths then "[PATHS]..."
  else
    "--" ++ item.long ++
      match item.valueName? with
      | some name => " <" ++ name ++ ">"
      | none => ""

end Item

end NameLint.Command
