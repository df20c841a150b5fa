import PropCheck.Double.Basic

/-!
# Types

The structural types that declarations, component members and values have.

* `Keyword`: the types that are a single word.
* `Slot`: a named place of a type, possibly optional: a parameter or a property.
* `Ty`: a type.  An object may carry the name of the interface or class it came from, and a
  reference stands for a type that is known by name only.
* `Ty.same`: equality of types.  It compares number literals as numbers, so it is not quite
  equality of representations: the two zeros are the same, and `nan` is not the same as itself.
-/

namespace PropCheck

/-- The types that are a single word; `object` is the type of all that is not primitive. -/
inductive Keyword where
  | any | unknown | never | void | undefined | null
  | string | number | boolean | bigint | symbol | object
deriving DecidableEq, Repr, Inhabited

/-- A named place of a type: a parameter of a function or a property of an object. -/
structure Slot (α : Type) where
  name : String
  type : α
  optional : Bool
deriving DecidableEq, Repr, Inhabited

inductive Ty where
  | keyword (word : Keyword)
  | string (value : String)
  | number (value : Double)
  | boolean (value : Bool)
  | array (element : Ty)
  | tuple (elements : List Ty)
  | union (members : List Ty)
  | intersection (members : List Ty)
  | function (params : List (Slot Ty)) (result : Ty) (method : Bool)
  | object (name : Option String) (properties : List (Slot Ty))
  | reference (name : String) (arguments : List Ty)
deriving Inhabited

namespace Ty

@[match_pattern] abbrev any : Ty := keyword .any
@[match_pattern] abbrev unknown : Ty := keyword .unknown
@[match_pattern] abbrev never : Ty := keyword .never
@[match_pattern] abbrev void : Ty := keyword .void
@[match_pattern] abbrev undefined : Ty := keyword .undefined
@[match_pattern] abbrev null : Ty := keyword .null

mutual

/-- Equality of types. -/
def same : Ty → Ty → Bool
  | keyword a, keyword b => a == b
  | string a, string b => a == b
  | number a, number b => a.ieeeEq b
  | boolean a, boolean b => a == b
  | array a, array b => same a b
  | tuple as, tuple bs => sameAll as bs
  | union as, union bs => sameAll as bs
  | intersection as, intersection bs => sameAll as bs
  | function ps r m, function qs s n => sameSlots ps qs && same r s && m == n
  | object a ps, object b qs => a == b && sameSlots ps qs
  | reference a as, reference b bs => a == b && sameAll as bs
  | _, _ => false

def sameAll : List Ty → List Ty → Bool
  | [], [] => true
  | a :: as, b :: bs => same a b && sameAll as bs
  | _, _ => false

def sameSlots : List (Slot Ty) → List (Slot Ty) → Bool
  | [], [] => true
  | ⟨a, t, p⟩ :: ss, ⟨b, u, q⟩ :: ts => a == b && same t u && p == q && sameSlots ss ts
  | _, _ => false

end

end Ty

def Slot.find? {α : Type} (slots : List (Slot α)) (name : String) : Option (Slot α) :=
  slots.find? (·.name == name)

end PropCheck
