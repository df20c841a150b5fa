import PropCheck.Script.Syntax
import PropCheck.Ty.Union

/-!
# Components

A component is a class; the members of its instances are what a template may set on it.

* `Component`: a component with its members.
* `Component.member?`: the member of a name.
* `Component.instanceType`: the properties that an instance has.
-/

namespace PropCheck

inductive MemberKind where
  | property
  | accessor
  | method
deriving DecidableEq, Repr, Inhabited

structure ComponentMember where
  name : String
  kind : MemberKind
  type : Ty
  optional : Bool
deriving Inhabited

/-- The type of a member; one that is optional may also be `undefined`. -/
def ComponentMember.declared (m : ComponentMember) : Ty :=
  m.type.optional m.optional

def ComponentMember.toSlot (m : ComponentMember) : Slot Ty :=
  ⟨m.name, m.type, m.optional⟩

/-- A component: a class in a file. -/
structure Component where
  name : String
  file : String
  span : Script.Span
  members : List ComponentMember
deriving Inhabited

namespace Component

def member? (component : Component) (name : String) : Option ComponentMember :=
  component.members.find? (·.name == name)

def memberNames (component : Component) : List String :=
  component.members.map (·.name)

/-- The properties of an instance: all its members but the methods. -/
def properties (component : Component) : List (Slot Ty) :=
  (component.members.filter (·.kind != .method)).map (·.toSlot)

def instanceType (component : Component) : Ty :=
  .object (some component.name) component.properties

end Component

end PropCheck
