/-!
# Control sequences

Characters in a text can drive a terminal: single controls, and sequences that an escape character
opens. What is left without them is what the terminal shows.
-/

namespace NameLint.Text

set_option autoImplicit false

inductive ControlState where
  /-- Outside of all sequences. -/
  | plain
  /-- Behind an escape character. -/
  | opened
  /-- In a sequence that its first letter or digit ends. -/
  | extended
  /-- In a sequence that opens with a bracket and has parameters. -/
  | parameters
  /-- In a command of any length, which a bell ends. -/
  | command
  /-- In a string of any length for a device. -/
  | device
deriving DecidableEq, Repr

namespace ControlState

/-- Tabs and ends of lines and pages, which are shown and end a sequence with parameters. -/
def isBreak (c : Char) : Bool :=
  c == '\t' || c == '\n' || c == '\x0c' || c == '\r'

def isBetween (first last c : Char) : Bool :=
  first ≤ c && c ≤ last

/-- The state behind the character that follows an escape character. -/
def behindEscape (c : Char) : ControlState :=
  if c == '[' then parameters
  else if c == ']' then command
  else if c == 'P' || c == 'X' || c == '^' || c == '_' then device
  else if isBetween ' ' '/' c then extended
  else if isBreak c || isBetween '0' '~' c then plain
  else opened

def next (state : ControlState) (c : Char) : ControlState :=
  if c == '\x1b' then opened
  else if c == '\x18' || c == '\x1a' then plain
  else
    match state with
    | plain => plain
    | opened => behindEscape c
    | extended => if isBreak c || isBetween '0' '~' c then plain else extended
    | parameters => if isBreak c || isBetween '@' '~' c then plain else parameters
    | command => if c == '\x07' then plain else command
    | device => if (String.utf8EncodeChar c).contains 0x9c then plain else device

def shows (state : ControlState) (c : Char) : Bool :=
  match state with
  | plain => isBreak c || (' ' ≤ c && c != '\x7f')
  | opened | extended | parameters => isBreak c
  | command | device => false

/-- The characters of a text that are shown. -/
def visible (state : ControlState) : List Char → List Char
  | [] => []
  | c :: rest =>
      let later := visible (state.next c) rest
      if state.shows c then c :: later else later

end ControlState

def withoutControls (text : String) : String :=
  String.ofList (ControlState.plain.visible text.toList)

end NameLint.Text
