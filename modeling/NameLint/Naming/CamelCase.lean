import NameLint.Text.Uppercase

/-!
# Camel case

Underscores around a name mark it as private and are left alone. What lies between them is the core;
an underscore inside the core separates words. Camel case drops the separators and raises the
character after each, and changes nothing else.
-/

namespace NameLint.Naming

open NameLint.Text

set_option autoImplicit false

def isMarker (c : Char) : Bool :=
  c == '_'

/-- A name cut at its markers. A name made of underscores alone is all `lead`. -/
structure NameParts where
  lead : String
  core : String
  trail : String
deriving DecidableEq, Repr

def splitMarkers (name : String) : NameParts :=
  let rest := name.toList.dropWhile isMarker
  { lead := String.ofList (name.toList.takeWhile isMarker)
    core := String.ofList (rest.reverse.dropWhile isMarker).reverse
    trail := String.ofList (rest.reverse.takeWhile isMarker).reverse }

/-- Names in capitals throughout are constants and do not count. -/
def isUnderscored (name : String) : Bool :=
  name.toList.any isMarker && name != uppercase name

/-- Joins words at their separators; `raise` tells whether one has just been dropped. -/
def joinWords (raise : Bool) : List Char → List Char
  | [] => []
  | c :: rest =>
      if isMarker c then joinWords true rest
      else if raise then uppercaseChar c ++ joinWords false rest
      else c :: joinWords false rest

def camelCase (name : String) : String :=
  let parts := splitMarkers name
  parts.lead ++ String.ofList (joinWords false parts.core.toList) ++ parts.trail

end NameLint.Naming
