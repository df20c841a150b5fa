import PropCheck.Component.Basic
import PropCheck.Script.Inference

/-!
# Components from classes

The members of a component are the public members of its class, and the properties of the object
type that a component base class is given as its first type argument.  The first member of a name
counts.

* `elementMember?`: the member that an element of a class gives.
* `baseProperties`: the properties that the base class is given.
* `Component.ofClass?`: the component of a class.
-/

namespace PropCheck

open Script (TypeTable)

/-- The type that a field is declared with, or else that of its value. -/
def fieldType (table : TypeTable) (value : Script.Expr) : Script.TypeExpr → Ty
  | .missing => (table.infer (fun _ => none) value).widened
  | type => table.lower type

def setterType (table : TypeTable) (f : Script.Function) : Ty :=
  match table.params f with
  | param :: _ => param.type
  | [] => .any

/-- The member that an element of a class gives, if it is there to be set from outside. -/
def elementMember? (table : TypeTable) : Script.Member → Option ComponentMember
  | .mk .field marks _ key type value =>
    if marks.isStatic || marks.hidden then none
    else key.name?.map fun name => ⟨name, .property, fieldType table value type, marks.optional⟩
  | .mk .autoAccessor marks _ key type _ =>
    if marks.isStatic then none
    else key.name?.map fun name => ⟨name, .accessor, table.lower type, false⟩
  | .mk form marks _ key _ (.function f) =>
    if marks.isStatic || marks.hidden then none
    else
      match form, key.name? with
      | .getter, some name => some ⟨name, .accessor, table.result f, false⟩
      | .setter, some name => some ⟨name, .accessor, setterType table f, false⟩
      | .method, some name => some ⟨name, .method, table.functionType true f, marks.optional⟩
      | _, _ => none
  | _ => none

/-- The classes whose first type argument tells the properties of a component. -/
def componentBases : List String :=
  ["SvelteComponent", "SvelteComponentTyped", "SvelteComponentDev"]

/-- The members that a base class is given by its first type argument. -/
def baseMembers (table : TypeTable) : Script.Expr → List Script.TypeExpr → List ComponentMember
  | .identifier base, argument :: _ =>
    if componentBases.contains base then
      match table.lower argument with
      | .object _ slots => slots.map fun s => ⟨s.name, .property, s.type, s.optional⟩
      | _ => []
    else []
  | _, _ => []

/-- Adds a member, unless its name is taken. -/
def addMember (members : List ComponentMember) (m : ComponentMember) : List ComponentMember :=
  if members.any (·.name == m.name) then members else members ++ [m]

def firstOfEachName (members : List ComponentMember) : List ComponentMember :=
  members.foldl addMember []

/-- The component of a class in a file; a class without a name may be given one. -/
def Component.ofClass? (table : TypeTable) (file : String) (fallback : Option String) :
    Script.Class → Option Component
  | .mk span name _ base baseArguments _ elements =>
    ((name.map (·.text)).or fallback).map fun name =>
      ⟨name, file, span, firstOfEachName
        (elements.filterMap (elementMember? table) ++ baseMembers table base baseArguments)⟩

end PropCheck
