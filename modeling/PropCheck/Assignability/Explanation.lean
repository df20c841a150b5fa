import PropCheck.Assignability.Relation
import PropCheck.Ty.Text

/-!
# Why an object is not assignable

For two object types the reason can be pinned to one property of the target: the first that is
missing though required, or whose types are not related.

* `Assign.Reason`: the two reasons.
* `Assign.reason?`: the first reason, if there is one.
* `Assign.explain?`: its wording.
-/

namespace PropCheck.Assign

/-- Why one property of the target is not satisfied. -/
inductive Reason where
  | missing (property : String)
  | incompatible (property : String)
deriving DecidableEq, Repr

/-- What the source object lacks for one property of the target. -/
def propertyReason? (options : Options) (source : List (Slot Ty)) (target : Slot Ty) :
    Option Reason :=
  match Slot.find? source target.name with
  | none => if target.optional then none else some (.missing target.name)
  | some s =>
    match related options maxLevels s.declared target.declared with
    | .ok true => none
    | _ => some (.incompatible target.name)

/-- The first property of the target that the source does not satisfy, for two objects. -/
def reason? (options : Options) : Ty → Ty → Option Reason
  | .object _ target, .object _ source => target.findSome? (propertyReason? options source)
  | _, _ => none

def Reason.text (target source : Ty) : Reason → String
  | missing p =>
    "Property '" ++ p ++ "' is missing in type '" ++ source.text ++ "' but required in type '"
      ++ target.text ++ "'."
  | incompatible p => "Types of property '" ++ p ++ "' are incompatible."

/-- Why the source type is not assignable to the target type, if one property shows it. -/
def explain? (options : Options) (target source : Ty) : Option String :=
  (reason? options target source).map (Reason.text target source)

end PropCheck.Assign
