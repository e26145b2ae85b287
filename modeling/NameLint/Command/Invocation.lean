import NameLint.Command.Refusal
import NameLint.Files.Pathname

/-!
# Reading a command line

Paths and options come in any order. A value stands behind its option: in the next argument, or in
the same one, with an equals sign where that is needed. Options of one letter can share an argument.
Behind two dashes all arguments are paths.

An item is recorded once all its values are known, which is when something else follows; until then
it is pending. So a fault of a value is told only after those of the values before it.
-/

namespace NameLint.Command

open NameLint.Files

set_option autoImplicit false

inductive Format where
  | plain
  | checkstyle
deriving DecidableEq, Repr

def Format.ofName? : String → Option Format
  | "text" => some .plain
  | "checkstyle" => some .checkstyle
  | _ => none

/-- What a run is asked to do. -/
structure Invocation where
  paths : List Pathname := []
  config : Option Pathname := none
  properties : Option String := none
  fix : Bool := false
  unsafeFixes : Bool := false
  format : Format := .plain
  verbose : Bool := false
deriving DecidableEq, Repr

structure Pending where
  item : Item
  values : List String
deriving DecidableEq, Repr

/-- How far a command line has been read. -/
structure Scan where
  given : List Item := []
  invocation : Invocation := {}
  pending : Option Pending := none
deriving DecidableEq, Repr

def Invocation.record (invocation : Invocation) (item : Item) (values : List String) :
    Except Ending Invocation :=
  match item, values with
  | .paths, values =>
      if values.contains "" then .error (.refused (.missingValue .paths))
      else .ok { invocation with paths := invocation.paths ++ values.map fun value => ⟨value⟩ }
  | .config, value :: _ =>
      if value = "" then .error (.refused (.missingValue .config))
      else .ok { invocation with config := some ⟨value⟩ }
  | .properties, value :: _ => .ok { invocation with properties := some value }
  | .format, value :: _ =>
      match Format.ofName? value with
      | some format => .ok { invocation with format }
      | none =>
          let refusal := if value = "" then .missingValue .format else .invalidValue .format value
          .error (.refused refusal)
  | .fix, _ => .ok { invocation with fix := true }
  | .unsafeFixes, _ => .ok { invocation with unsafeFixes := true }
  | .verbose, _ => .ok { invocation with verbose := true }
  | .help, _ => .error .help
  | .version, _ => .error .version
  | item, [] => .error (.refused (.missingValue item))

namespace Scan

/-- Records an item whose values are all known. Only paths can be given again. -/
def accept (scan : Scan) (item : Item) (values : List String) : Except Ending Scan := do
  if item.takesValue && values.isEmpty then .error (.refused (.missingValue item))
  else if scan.given.contains item && item != .paths then .error (.refused (.repeated item))
  else
    let invocation ← scan.invocation.record item values
    let given := if scan.given.contains item then scan.given else scan.given ++ [item]
    return { given, invocation, pending := none }

def settle (scan : Scan) : Except Ending Scan :=
  match scan.pending with
  | none => .ok scan
  | some pending => { scan with pending := none }.accept pending.item pending.values

/-- The items to name beside an argument that is not known: what is pending counts too, even where
its value is at fault. -/
def mentioned (scan : Scan) : List Item :=
  match scan.pending with
  | none => scan.given
  | some ⟨item, values⟩ =>
      if values.isEmpty then scan.given
      else if !scan.given.contains item then scan.given ++ [item]
      else if item = .paths then scan.given
      else scan.given.erase item

def readFlag (scan : Scan) (item : Item) : Except Ending Scan := do
  (← scan.settle).accept item []

def readOption (scan : Scan) (item : Item) (value : Option String) : Except Ending Scan := do
  let scan ← scan.settle
  match value with
  | some value => scan.accept item [value]
  | none => return { scan with pending := some ⟨item, []⟩ }

def splitValue (text : List Char) : String × Option String :=
  let name := text.takeWhile (· != '=')
  match text.drop name.length with
  | [] => (String.ofList name, none)
  | _ :: value => (String.ofList name, some (String.ofList value))

def readLong (scan : Scan) (text : List Char) : Except Ending Scan :=
  let (name, value) := splitValue text
  match Item.ofLong? name with
  | some item =>
      if item.takesValue then scan.readOption item value
      else
        match value with
        | none => scan.readFlag item
        | some value => .error (.refused (.unexpectedValue item value scan.given.isEmpty))
  | none =>
      let similar := (Text.closest? name (Item.options.map Item.long)).bind Item.ofLong?
      let named := (scan.mentioned ++ similar.toList).eraseDups
      .error (.refused (.unknown ("--" ++ name) similar named))

def readShort (scan : Scan) : List Char → Except Ending Scan
  | [] => .ok scan
  | letter :: rest =>
      match Item.ofShort? letter with
      | none => .error (.refused (.unknown ("-" ++ letter.toString) none []))
      | some item =>
          if item.takesValue then
            match rest with
            | [] => scan.readOption item none
            | '=' :: value => scan.readOption item (some (String.ofList value))
            | value => scan.readOption item (some (String.ofList value))
          else do readShort (← scan.readFlag item) rest

def readPath (scan : Scan) (argument : String) : Except Ending Scan := do
  match scan.pending with
  | some ⟨.paths, values⟩ =>
      return { scan with pending := some ⟨.paths, values ++ [argument]⟩ }
  | _ => return { ← scan.settle with pending := some ⟨.paths, [argument]⟩ }

/-- Reads an argument that is no option: a value that is awaited, or a path. -/
def readValue (scan : Scan) (argument : String) : Except Ending Scan :=
  match scan.pending with
  | some ⟨item, []⟩ => .ok { scan with pending := some ⟨item, [argument]⟩ }
  | _ => scan.readPath argument

def read (scan : Scan) : List String → Except Ending Scan
  | [] => scan.settle
  | argument :: rest =>
      match argument.toList with
      | ['-', '-'] => do (← rest.foldlM readPath scan).settle
      | '-' :: '-' :: text => do (← scan.readLong text).read rest
      | '-' :: letter :: text => do (← scan.readShort (letter :: text)).read rest
      | _ => do (← scan.readValue argument).read rest

end Scan

/-- Reads a command line. Without paths the working directory is meant. -/
def Invocation.ofArguments (arguments : List String) : Except Ending Invocation := do
  let { invocation, .. } ← Scan.read {} arguments
  if invocation.paths.isEmpty then return { invocation with paths := [⟨"."⟩] }
  else return invocation

end NameLint.Command
