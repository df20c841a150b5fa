import PropCheck.Template.Record

/-!
# Compiled templates

The compiler of templates gives the tree of a template in the field `html` of its syntax tree,
beside the script that it made of the template.

* `Compilation`: a compiled template.
* `Compilation.html?`: the tree in the result of the compiler.
-/

namespace PropCheck

open Json (Written)

/-- A compiled template: its script and its tree. -/
structure Compilation where
  script : String
  html : Node
deriving Inhabited

/-- How deeply the fields of a record may be nested that is itself nested to some level. -/
def depthBelow (level : Nat) : Nat :=
  127 - level

def Node.ofJson? (text : String) : Option Node := do
  Node.read? (depthBelow 1) (← Written.parse? text)

/-- The tree in the result of the compiler. -/
def Compilation.html? (text : String) : Option Node := do
  match ← (← Written.parse? text).parts? ["ast"] with
  | [some ast] =>
    match ← ast.parts? ["html"] with
    | [some html] => Node.read? (depthBelow 3) html
    | _ => none
  | _ => none

end PropCheck
