import PropCheck.Ty.Basic

/-!
# Unions, widening and looking into a type

* `Ty.unionOf`: builds a union.  Members that are unions give their own members, a member that is
  the same as an earlier one is dropped, and a single remaining member stands for itself.
* `Ty.widened`: literal types become the primitive they belong to, through unions too.
* `Ty.optional`, `Slot.declared`: the type a value of an optional place may have.
* `Ty.property?`, `Ty.element?`: what destructuring finds under a name or at a place.
-/

namespace PropCheck

namespace Ty

/-- The members of a union, and any other type by itself. -/
def members : Ty → List Ty
  | union ms => ms
  | t => [t]

/-- Adds a type at the end of a list unless the list has it. -/
def insertNew (seen : List Ty) (t : Ty) : List Ty :=
  if seen.any (same · t) then seen else seen ++ [t]

/-- Keeps the first of the types that are the same. -/
def distinct (ts : List Ty) : List Ty :=
  ts.foldl insertNew []

/-- The type of a list of alternatives: `never` for none, the one itself for one. -/
def ofAlternatives : List Ty → Ty
  | [] => never
  | [t] => t
  | ts => union ts

def unionOf (ts : List Ty) : Ty :=
  ofAlternatives (distinct (ts.flatMap members))

mutual

/-- Literal types become their primitive, through unions too. -/
def widened : Ty → Ty
  | string _ => keyword .string
  | number _ => keyword .number
  | boolean _ => keyword .boolean
  | union ms => unionOf (widenedAll ms)
  | t => t

def widenedAll : List Ty → List Ty
  | [] => []
  | t :: ts => widened t :: widenedAll ts

end

theorem widenedAll_eq_map (ts : List Ty) : widenedAll ts = ts.map widened := by
  induction ts with
  | nil => rfl
  | cons t ts ih => simp [widenedAll, ih]

/-- The type of a place that may be left out also has `undefined`. -/
def optional (t : Ty) (isOptional : Bool) : Ty :=
  if isOptional then unionOf [t, undefined] else t

mutual

/-- What destructuring finds under a property name. -/
def property? (name : String) : Ty → Option Ty
  | any => some any
  | object _ properties => (Slot.find? properties name).map (·.type)
  | intersection ms => firstProperty? name ms
  | _ => none

/-- The first type of a list that has a property of the name decides. -/
def firstProperty? (name : String) : List Ty → Option Ty
  | [] => none
  | t :: ts => (property? name t).or (firstProperty? name ts)

end

/-- What destructuring finds at a place of an array or tuple. -/
def element? (index : Nat) : Ty → Option Ty
  | any => some any
  | array t => some t
  | tuple ts => ts[index]?
  | _ => none

end Ty

/-- The type a value must have to fill the slot. -/
def Slot.declared (s : Slot Ty) : Ty :=
  s.type.optional s.optional

end PropCheck
