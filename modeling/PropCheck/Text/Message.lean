/-!
# Message texts

The wording of a message has numbered places, and its arguments are put in one after the other.

* `Text.fill`: a wording with its arguments.
* `Text.indentLines`: a headline with its further lines, indented one level.
-/

namespace PropCheck.Text

/-- Replaces every occurrence of a pattern, from left to right. -/
def replaceAll (pattern value text : List Char) : List Char :=
  match text with
  | [] => []
  | c :: cs =>
    if pattern.isPrefixOf (c :: cs) then
      value ++ replaceAll pattern value (cs.drop (pattern.length - 1))
    else c :: replaceAll pattern value cs
termination_by text.length

/-- The mark of the place of an argument: its number in braces. -/
def place (index : Nat) : List Char :=
  '{' :: (toString index).toList ++ ['}']

/-- Puts in arguments one after the other, numbered from an index on. -/
def fillFrom (index : Nat) (text : List Char) : List String → List Char
  | [] => text
  | argument :: arguments =>
    fillFrom (index + 1) (replaceAll (place index) argument.toList text) arguments

/-- A wording with its arguments. -/
def fill (wording : String) (arguments : List String) : String :=
  String.ofList (fillFrom 0 wording.toList arguments)

/-- A headline with its further lines, each indented one level; empty lines are left out. -/
def indentLines (lines : List String) : String :=
  String.intercalate "\n  " (lines.filter (!·.isEmpty))

end PropCheck.Text
