import PropCheck.Options.Basic
import PropCheck.Ty.Union

/-!
# Assignability

A value of the source type may stand where the target type is asked for.  The relation goes through
the two types part by part; how far it may go down is limited, and a pair that is not decided within
the limit counts as not assignable.

* `Assign.step`: one level of the relation, given the relation of the parts.
* `Assign.related`: the relation with a limit on the levels.
* `Assign.assignable`: whether a value of the source type may be given for the target type.
-/

namespace PropCheck.Assign

/-- The relation went down more levels than the limit allows. -/
inductive Fault where
  | tooDeep
deriving DecidableEq, Repr

/-- The answer of the relation, or why there is none. -/
abbrev Verdict := Except Fault Bool

/-- Whether all answers are yes; asks no further after a no. -/
def allOf {α : Type} (ask : α → Verdict) : List α → Verdict
  | [] => .ok true
  | x :: xs => do if ← ask x then allOf ask xs else return false

/-- Whether some answer is yes; asks no further after a yes. -/
def anyOf {α : Type} (ask : α → Verdict) : List α → Verdict
  | [] => .ok false
  | x :: xs => do if ← ask x then return true else anyOf ask xs

/-- Adds a property at the end unless the list has one of its name. -/
def addProperty (properties : List (Slot Ty)) (p : Slot Ty) : List (Slot Ty) :=
  if (Slot.find? properties p.name).isSome then properties else properties ++ [p]

/-- The properties of some object types together, the first of each name; there is no answer if
one of the types is not an object. -/
def mergeProperties? : List Ty → List (Slot Ty) → Option (List (Slot Ty))
  | [], merged => some merged
  | .object _ properties :: ts, merged => mergeProperties? ts (properties.foldl addProperty merged)
  | _ :: _, _ => none

/-- The object type that an intersection of object types amounts to. -/
def merged? (members : List Ty) : Option Ty :=
  (mergeProperties? members []).map (.object none)

section Levels

variable (options : Options) (relate : Ty → Ty → Verdict)

/-- A source object against one property of the target. -/
def propertyRelated (source : List (Slot Ty)) (target : Slot Ty) : Verdict :=
  match Slot.find? source target.name with
  | some s =>
    if s.optional && !target.optional then .ok false else relate s.declared target.declared
  | none => .ok target.optional

/-- A source that is not an object has none of the properties. -/
def objectRelated (source : Ty) (target : List (Slot Ty)) : Verdict :=
  match source with
  | .object _ properties => allOf (propertyRelated relate properties) target
  | _ => .ok (target.all (·.optional))

/-- Whether a parameter of the target may be given for the parameter of the source, or the other
way round if that suffices. -/
def parameterRelated (bivariant : Bool) (pair : Slot Ty × Slot Ty) : Verdict := do
  if ← relate pair.2.type pair.1.type then return true
  else if bivariant then relate pair.1.type pair.2.type
  else return false

/-- Functions are related by their parameters, then by their results; a function may always stand
for one whose result is `void`. -/
def functionRelated (sourceParams : List (Slot Ty)) (sourceResult : Ty) (sourceMethod : Bool)
    (targetParams : List (Slot Ty)) (targetResult : Ty) (targetMethod : Bool) : Verdict := do
  if targetParams.length < (sourceParams.filter (!·.optional)).length then return false
  let bivariant := !options.functionTypes || sourceMethod || targetMethod
  if ← allOf (parameterRelated relate bivariant) (sourceParams.zip targetParams) then
    if targetResult matches .void then return true else relate sourceResult targetResult
  else return false

/-- Two lists are related place by place if they are equally long. -/
def pairwise (sources targets : List Ty) : Verdict :=
  if sources.length != targets.length then .ok false
  else allOf (fun (s, t) => relate s t) (sources.zip targets)

/-- The relation of two types neither of which is a union or an intersection, nor the source or
target one of the keywords that are decided before. -/
def simpleRelated : Ty → Ty → Verdict
  | .null, .null | .undefined, .undefined | .undefined, .void => .ok true
  | .null, _ | .undefined, _ => .ok !options.nullChecks
  | .keyword a, .keyword b => .ok (a == b)
  | .string _, .keyword .string | .number _, .keyword .number
  | .boolean _, .keyword .boolean => .ok true
  | .string a, .string b => .ok (a == b)
  | .number a, .number b => .ok (a.ieeeEq b)
  | .boolean a, .boolean b => .ok (a == b)
  | .array s, .array t => relate s t
  | .tuple ss, .array t => allOf (relate · t) ss
  | .tuple ss, .tuple ts => pairwise relate ss ts
  | .function ps r m, .function qs s n => functionRelated options relate ps r m qs s n
  | .object .., .keyword .object | .array _, .keyword .object | .tuple _, .keyword .object
  | .function .., .keyword .object | .reference .., .keyword .object => .ok true
  | .reference a ss, .reference b ts => if a == b then pairwise relate ss ts else .ok false
  | source, .object _ target => objectRelated relate source target
  | _, _ => .ok false

/-- A source intersection is related through one of its members, or through the object type that
its members amount to. -/
def intersectionRelated (members : List Ty) (target : Ty) : Verdict := do
  if ← anyOf (relate · target) members then return true
  match merged? members with
  | some merged => relate merged target
  | none => return false

/-- The relation of two types neither of which is a union, nor one of the keywords that are decided
before. -/
def compositeRelated : Ty → Ty → Verdict
  | source, .intersection ts => allOf (relate source) ts
  | .intersection ss, target => intersectionRelated relate ss target
  | source, target => simpleRelated options relate source target

/-- Whether a union covers `boolean` by its two literals. -/
def coversBoolean (source : Ty) (targets : List Ty) : Bool :=
  source matches .keyword .boolean
    && targets.any (· matches .boolean true) && targets.any (· matches .boolean false)

/-- One level of the relation, given the relation of the parts. -/
def step : Ty → Ty → Verdict
  | _, .any | _, .unknown => .ok true
  | .any, target => .ok (!(target matches .never))
  | .never, _ => .ok true
  | .unknown, _ => .ok false
  | .union ss, target => allOf (relate · target) ss
  | source, .union ts =>
    if coversBoolean source ts then .ok true else anyOf (relate source) ts
  | source, target => compositeRelated options relate source target

end Levels

/-- The relation, at most `levels` levels down. -/
def related (options : Options) : Nat → Ty → Ty → Verdict
  | 0, _, _ => .error .tooDeep
  | levels + 1, source, target => step options (related options levels) source target

def maxLevels : Nat :=
  65

/-- Whether a value of the source type may be given for the target type. -/
def assignable (options : Options) (target source : Ty) : Bool :=
  match related options maxLevels source target with
  | .ok answer => answer
  | .error .tooDeep => false

end PropCheck.Assign
