import NameLint.Number.Binary64
import NameLint.Text.Span
import NameLint.Toml.DateTime

/-!
# TOML values

A document is a table of values. Every key and value knows the span where it is written; a table
that no single piece of text writes has the span of what first names it. The entries of a table
are sorted by key.
-/

namespace NameLint.Toml

open NameLint.Text

set_option autoImplicit false

structure Located (α : Type) where
  span : Span
  content : α

abbrev Key := Located String

/-- How a table came about, which decides whether it can be added to. -/
inductive TableKind where
  /-- By a header of its own, or as the document itself. -/
  | header
  /-- By the header of a table inside it. -/
  | implied
  /-- By a dotted key. -/
  | dotted
  /-- Between braces. -/
  | inlined
deriving DecidableEq, Repr

inductive Value where
  | string (text : String)
  | integer (number : Int)
  | float (number : Number.Binary64)
  | boolean (flag : Bool)
  | dateTime (moment : DateTime)
  | array (ofTables : Bool) (items : List (Located Value))
  | table (kind : TableKind) (entries : List (Located String × Located Value))

abbrev Table := List (Key × Located Value)

namespace Table

def find? (table : Table) (name : String) : Option (Located Value) :=
  (List.find? (fun entry => entry.1.content == name) table).map (·.2)

/-- Puts an entry in front of the first one with a greater key. -/
def insert (key : Key) (value : Located Value) : Table → Table
  | [] => [(key, value)]
  | entry :: rest =>
      if key.content < entry.1.content then (key, value) :: entry :: rest
      else entry :: insert key value rest

def erase (table : Table) (name : String) : Table :=
  table.filter fun entry => entry.1.content != name

/-- Puts a value in the place of the one under the same key. -/
def replace (table : Table) (name : String) (value : Located Value) : Table :=
  table.map fun entry => if entry.1.content == name then (entry.1, value) else entry

end Table

end NameLint.Toml
