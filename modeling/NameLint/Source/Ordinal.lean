/-!
# Ordinals

Lines and columns are counted from one. Counting stops at `largest` and stays there.
-/

namespace NameLint.Source

set_option autoImplicit false

@[ext]
structure Ordinal where
  number : Nat
  number_pos : 0 < number
deriving DecidableEq, Repr

namespace Ordinal

def largest : Nat := 18446744073709551615

def first : Ordinal :=
  ⟨1, Nat.one_pos⟩

instance : Inhabited Ordinal := ⟨first⟩

def ofNumber? (number : Nat) : Option Ordinal :=
  if positive : 0 < number then some ⟨number, positive⟩ else none

def ofIndex (index : Nat) : Ordinal :=
  ⟨min (index + 1) largest, by unfold largest; omega⟩

def index (ordinal : Ordinal) : Nat :=
  ordinal.number - 1

def compare (left right : Ordinal) : Ordering :=
  Ord.compare left.number right.number

def render (ordinal : Ordinal) : String :=
  toString ordinal.number

end Ordinal

end NameLint.Source
