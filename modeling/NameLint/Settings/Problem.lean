import NameLint.Text.Repeated
import NameLint.Toml.Describe

/-!
# Problems of a settings file

A problem has a reason and the span that it is about. The report of a problem shows the line where
the span starts, and marks what the span takes of that line.
-/

namespace NameLint.Settings

open NameLint.Text

set_option autoImplicit false

inductive Shape where
  | rules
  | ruleSettings
  | boolean
  | string
deriving DecidableEq, Repr

def Shape.describe : Shape → String
  | .rules => "a map"
  | .ruleSettings => "struct RuleConfig"
  | .boolean => "a boolean"
  | .string => "a string"

inductive Reason where
  | unknownField (name : String)
  | wrongType (found : Toml.Value) (expected : Shape)

def Reason.message : Reason → String
  | .unknownField name => "unknown field `" ++ name ++ "`, expected `rules`"
  | .wrongType found expected =>
      "invalid type: " ++ found.describe ++ ", expected " ++ expected.describe

structure Problem where
  span : Span
  reason : Reason

/-- The line that holds an offset: its number from zero, its text, and how many of its characters
stand before the offset. -/
def lineAt (text : String) (offset : Nat) : Nat × List Char × Nat :=
  let (before, after) := (splitBytes offset text.toList).getD (text.toList, [])
  let head := (before.reverse.takeWhile (· != '\n')).reverse
  (before.count '\n', head ++ after.takeWhile (· != '\n'), head.length)

def Problem.render (text : String) (problem : Problem) : String :=
  let (line, content, column) := lineAt text problem.span.start
  let number := toString (line + 1)
  let gutter := repeated ' ' (number.length + 1) ++ "|"
  let room := Offset.endOf (String.ofList content) - column
  let marks := max 1 (min problem.span.length room)
  "\n".intercalate
    ["TOML parse error at line " ++ number ++ ", column " ++ toString (column + 1),
     gutter,
     number ++ " | " ++ String.ofList content,
     gutter ++ repeated ' ' (column + 1) ++ repeated '^' marks,
     problem.reason.message,
     ""]

end NameLint.Settings
