import NameLint.Text.Repeated

/-!
# Markup

A document is a tree of elements with attributes. Each tag is written on a line of its own, two
spaces further in than the tag around it. Values stand between double quotes, and the five
characters that could be taken for markup are written as references.
-/

namespace NameLint.Markup

open NameLint.Text

set_option autoImplicit false

structure Attribute where
  name : String
  value : String
deriving DecidableEq, Repr

inductive Element where
  /-- An element without content, written as a single tag. -/
  | leaf (name : String) (attributes : List Attribute)
  /-- An element between two tags. -/
  | block (name : String) (attributes : List Attribute) (children : List Element)
deriving Repr

def escapedChar (c : Char) : List Char :=
  match c with
  | '&' => "&amp;".toList
  | '<' => "&lt;".toList
  | '>' => "&gt;".toList
  | '\'' => "&apos;".toList
  | '"' => "&quot;".toList
  | c => [c]

def escape (value : String) : String :=
  String.ofList (value.toList.flatMap escapedChar)

def Attribute.render (pair : Attribute) : String :=
  " " ++ pair.name ++ "=\"" ++ escape pair.value ++ "\""

def tag (name : String) (attributes : List Attribute) (close : String) : String :=
  "<" ++ name ++ String.join (attributes.map Attribute.render) ++ close

mutual

/-- The lines of an element inside `depth` others. -/
def Element.lines (depth : Nat) : Element → List String
  | .leaf name attributes => [indentation depth ++ tag name attributes "/>"]
  | .block name attributes children =>
      (indentation depth ++ tag name attributes ">") ::
        (linesOfAll (depth + 1) children ++ [indentation depth ++ "</" ++ name ++ ">"])

def linesOfAll (depth : Nat) : List Element → List String
  | [] => []
  | element :: rest => element.lines depth ++ linesOfAll depth rest

end

def declaration : String := "<?xml version=\"1.0\" encoding=\"utf-8\"?>"

def documentLines (root : Element) : List String :=
  declaration :: root.lines 0

end NameLint.Markup
