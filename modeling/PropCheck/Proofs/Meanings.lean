import PropCheck.Proofs.Parts
import PropCheck.Script.TypeTable

/-!
# The meanings of written types

The meaning of a written type is made of the meanings of its operands, and where it is a name, of
what the name stands for.  A proof about all meanings goes along this, once and for all.

* `TypeExpr.operands`: the written types that the meaning of a written type is made of.
* `TypeTable.loweringInduction`: a name that is resolved leaves fewer to resolve, so what holds of a
  type when it holds of its operands, and of what its name stands for, holds of all types.
* `FollowsFromParts`: a property of types that a type has if its parts have it.
* `FollowsFromParts.lowerType`: such a property goes from the operands of a type to its meaning.
-/

namespace PropCheck.Script

/-! ### The types that a meaning is made of -/

def Binder.type : Binder → TypeExpr
  | .mk _ _ type _ _ => type

/-- The written types of a function: those of its parameters and its result. -/
def Function.types : Function → List TypeExpr
  | .mk _ params _ result _ => result :: params.map Binder.type

/-- The written types that a member gives a meaning to; one without a name is passed over. -/
def Member.types : Member → List TypeExpr
  | .mk .field _ _ key type _ => if key.name?.isSome then [type] else []
  | .mk _ _ _ key _ (.function f) => if key.name?.isSome then f.types else []
  | _ => []

/-- The written type of an element of a tuple. -/
def TypeExpr.element : TypeExpr → TypeExpr
  | .optional t => t
  | t => t

/-- The written types that the meaning of a written type is made of. -/
def TypeExpr.operands : TypeExpr → List TypeExpr
  | .array t | .group t => [t]
  | .tuple ts => ts.map TypeExpr.element
  | .union ts | .intersection ts | .reference _ ts => ts
  | .object ms => ms.flatMap Member.types
  | .function f => f.types
  | _ => []

/-- The written types that the meaning of a name is made of. -/
def NamedType.types : NamedType → List TypeExpr
  | .alias t => [t]
  | .interface ms => ms.flatMap Member.types

theorem sizeOf_lt_of_mem_function_types {f : Function} {t : TypeExpr} (h : t ∈ f.types) :
    sizeOf t < sizeOf f := by
  obtain ⟨head, params, tail, result, body⟩ := f
  rcases List.mem_cons.mp h with rfl | h
  · simp only [Function.mk.sizeOf_spec]
    omega
  · obtain ⟨⟨decorators, pattern, type, isOptional, value⟩, hb, rfl⟩ := List.mem_map.mp h
    have hlt := List.sizeOf_lt_of_mem hb
    simp only [Binder.mk.sizeOf_spec] at hlt
    simp only [Function.mk.sizeOf_spec, Binder.type]
    omega

theorem sizeOf_lt_of_mem_member_types {m : Member} {t : TypeExpr} (h : t ∈ m.types) :
    sizeOf t < sizeOf m := by
  unfold Member.types at h
  split at h
  · split at h
    · rw [List.mem_singleton.mp h]
      simp only [Member.mk.sizeOf_spec]
      omega
    · cases h
  · split at h
    · have hlt := sizeOf_lt_of_mem_function_types h
      simp only [Member.mk.sizeOf_spec, Expr.function.sizeOf_spec]
      omega
    · cases h
  · cases h

theorem sizeOf_element_le (t : TypeExpr) : sizeOf t.element ≤ sizeOf t := by
  cases t with
  | optional t =>
    simp only [TypeExpr.element, TypeExpr.optional.sizeOf_spec]
    omega
  | _ => exact Nat.le_refl _

theorem sizeOf_lt_of_mem_operands {type t : TypeExpr} (h : t ∈ type.operands) :
    sizeOf t < sizeOf type := by
  cases type with
  | array u | group u =>
    rw [List.mem_singleton.mp h]
    simp
  | tuple ts =>
    obtain ⟨u, hu, rfl⟩ := List.mem_map.mp h
    have hlt := List.sizeOf_lt_of_mem hu
    have hle := sizeOf_element_le u
    simp only [TypeExpr.tuple.sizeOf_spec]
    omega
  | union ts | intersection ts | reference name ts =>
    have hlt : sizeOf t < sizeOf ts := List.sizeOf_lt_of_mem h
    simp
    omega
  | object ms =>
    obtain ⟨m, hm, ht⟩ := List.mem_flatMap.mp h
    have hlt := List.sizeOf_lt_of_mem hm
    have hlt' := sizeOf_lt_of_mem_member_types ht
    simp only [TypeExpr.object.sizeOf_spec]
    omega
  | function f =>
    have hlt := sizeOf_lt_of_mem_function_types h
    simp only [TypeExpr.function.sizeOf_spec]
    omega
  | _ => exact absurd h List.not_mem_nil

namespace TypeTable

variable (table : TypeTable)

/-- **Induction along the meaning of types.**  What holds of a type while some names are being
resolved, when it holds of its operands and of what its name stands for, holds of all types. -/
theorem loweringInduction {motive : List String → TypeExpr → Prop}
    (step : ∀ resolving type, (∀ t ∈ type.operands, motive resolving t) →
      (∀ name arguments named, type = .reference name arguments →
        table.find? name = some named → name ∉ resolving →
        ∀ t ∈ named.types, motive (name :: resolving) t) →
      motive resolving type)
    (resolving : List String) (type : TypeExpr) : motive resolving type := by
  apply step
  · intro t ht
    have hlt := sizeOf_lt_of_mem_operands ht
    exact loweringInduction step resolving t
  · intro name arguments named htype hfind hnew t ht
    have hlt := unresolved_cons_lt hfind hnew
    exact loweringInduction step (name :: resolving) t
termination_by (table.unresolved resolving, sizeOf type)

/-! ### The meaning of a reference -/

/-- The type that a name stands for, with the name being resolved. -/
def lowerNamed (resolving : List String) (name : String) : NamedType → Ty
  | .alias t => table.lowerType (name :: resolving) t
  | .interface ms => .object (some name) (table.lowerMembers (name :: resolving) ms)

variable {table} {resolving : List String} {name : String} {args : List TypeExpr}

theorem lowerType_builtIn {t : Ty}
    (h : builtIn? name (table.lowerTypes resolving args) = some t) :
    table.lowerType resolving (.reference name args) = t := by
  rw [lowerType]
  simp only [h]

/-- A name stays a reference if it stands for nothing or is being resolved. -/
theorem lowerType_reference (hbuiltIn : builtIn? name (table.lowerTypes resolving args) = none)
    (h : ∀ meaning, table.find? name = some meaning → name ∈ resolving) :
    table.lowerType resolving (.reference name args)
      = .reference name (table.lowerTypes resolving args) := by
  rw [lowerType]
  simp only [hbuiltIn]
  split
  · rfl
  · rename_i meaning hfind
    exact dif_pos (h meaning hfind)

theorem lowerType_named (hbuiltIn : builtIn? name (table.lowerTypes resolving args) = none)
    {meaning : NamedType} (hfind : table.find? name = some meaning) (hnew : name ∉ resolving) :
    table.lowerType resolving (.reference name args) = table.lowerNamed resolving name meaning := by
  rw [lowerType]
  simp only [hbuiltIn]
  split
  · rename_i hnone
    rw [hfind] at hnone
    cases hnone
  · rename_i meaning' hfind'
    rw [hfind] at hfind'
    cases hfind'
    rw [dif_neg hnew]
    cases meaning <;> rfl

end TypeTable

/-! ### Properties that follow from the parts -/

/-- A property that unions which are built, and all other types but references, have if the types
they are made of have it. -/
structure FollowsFromParts (P : Ty → Prop) : Prop where
  of_parts : ∀ {t : Ty}, (∀ ts, t ≠ .union ts) → (∀ name arguments, t ≠ .reference name arguments) →
    (∀ u ∈ t.parts, P u) → P t
  unionOf : ∀ {ts : List Ty}, (∀ t ∈ ts, P t) → P (Ty.unionOf ts)

/-- What a key gives has a property of types if the type has it. -/
theorem forall_slot? {P : Ty → Prop} {key : Key} {t : Ty} {isOptional : Bool}
    (h : key.name?.isSome → P t) : ∀ p ∈ slot? key t isOptional, P p.type := by
  unfold slot?
  cases hname : key.name? with
  | none => exact fun p hp => absurd hp List.not_mem_nil
  | some name =>
    rw [List.forall_mem_singleton]
    exact h (hname ▸ rfl)

namespace TypeTable

variable {P : Ty → Prop} {table : TypeTable} {resolving : List String}

theorem lowerTypes_eq_map (table : TypeTable) (resolving : List String) (ts : List TypeExpr) :
    table.lowerTypes resolving ts = ts.map (table.lowerType resolving) := by
  induction ts with
  | nil => rw [lowerTypes, List.map_nil]
  | cons t ts ih => rw [lowerTypes, List.map_cons, ih]

theorem forall_lowerTypes {ts : List TypeExpr} (h : ∀ t ∈ ts, P (table.lowerType resolving t)) :
    ∀ u ∈ table.lowerTypes resolving ts, P u := by
  rw [lowerTypes_eq_map, List.forall_mem_map]
  exact h

theorem forall_lowerParams {ps : List Binder} (index : Nat)
    (h : ∀ t ∈ ps.map Binder.type, P (table.lowerType resolving t)) :
    ∀ p ∈ table.lowerParams resolving index ps, P p.type := by
  induction ps generalizing index with
  | nil =>
    rw [lowerParams]
    exact fun p hp => absurd hp List.not_mem_nil
  | cons b ps ih =>
    obtain ⟨decorators, pattern, type, isOptional, value⟩ := b
    rw [List.map_cons, List.forall_mem_cons] at h
    rw [lowerParams, List.forall_mem_cons]
    exact ⟨h.1, ih (index + 1) h.2⟩

end TypeTable

namespace FollowsFromParts

open TypeTable

variable {P : Ty → Prop} {table : TypeTable} {resolving : List String}

theorem of_parts_eq_nil (hP : FollowsFromParts P) {t : Ty} (hunion : ∀ ts, t ≠ .union ts)
    (hreference : ∀ name arguments, t ≠ .reference name arguments) (h : t.parts = []) : P t := by
  refine hP.of_parts hunion hreference fun u hu => ?_
  rw [h] at hu
  exact absurd hu List.not_mem_nil

theorem keyword (hP : FollowsFromParts P) (k : Keyword) : P (.keyword k) :=
  hP.of_parts_eq_nil (fun _ => Ty.noConfusion) (fun _ _ => Ty.noConfusion) rfl

theorem function (hP : FollowsFromParts P) {ps : List (Slot Ty)} {result : Ty} {method : Bool}
    (hps : ∀ p ∈ ps, P p.type) (hresult : P result) : P (.function ps result method) := by
  refine hP.of_parts (fun _ => Ty.noConfusion) (fun _ _ => Ty.noConfusion) fun u hu => ?_
  rcases List.mem_append.mp hu with hu | hu
  · obtain ⟨p, hp, rfl⟩ := List.mem_map.mp hu
    exact hps p hp
  · rw [List.mem_singleton.mp hu]
    exact hresult

theorem object (hP : FollowsFromParts P) {name : Option String} {ps : List (Slot Ty)}
    (hps : ∀ p ∈ ps, P p.type) : P (.object name ps) := by
  refine hP.of_parts (fun _ => Ty.noConfusion) (fun _ _ => Ty.noConfusion) fun u hu => ?_
  obtain ⟨p, hp, rfl⟩ := List.mem_map.mp hu
  exact hps p hp

theorem builtIn? (hP : FollowsFromParts P) {name : String} {arguments : List Ty} {t : Ty}
    (h : ∀ a ∈ arguments, P a) (ht : Script.builtIn? name arguments = some t) : P t := by
  have harray : ∀ {a : Ty}, P a → P (.array a) := fun ha =>
    hP.of_parts (fun _ => Ty.noConfusion) (fun _ _ => Ty.noConfusion)
      (List.forall_mem_singleton.mpr ha)
  unfold Script.builtIn? at ht
  split at ht <;> cases ht
  · exact harray (h _ (List.mem_singleton_self _))
  · exact harray (h _ (List.mem_singleton_self _))
  · exact hP.keyword .object
  · exact hP.object fun p hp => absurd hp List.not_mem_nil

theorem lowerElements (hP : FollowsFromParts P) {ts : List TypeExpr}
    (h : ∀ t ∈ ts.map TypeExpr.element, P (table.lowerType resolving t)) :
    ∀ u ∈ table.lowerElements resolving ts, P u := by
  induction ts with
  | nil =>
    rw [TypeTable.lowerElements]
    exact fun u hu => absurd hu List.not_mem_nil
  | cons t ts ih =>
    rw [List.map_cons, List.forall_mem_cons] at h
    cases t with
    | optional t =>
      rw [TypeTable.lowerElements, List.forall_mem_cons]
      refine ⟨hP.unionOf ?_, ih h.2⟩
      rw [List.forall_mem_cons, List.forall_mem_singleton]
      exact ⟨h.1, hP.keyword .undefined⟩
    | _ =>
      rw [TypeTable.lowerElements, List.forall_mem_cons]
      · exact ⟨h.1, ih h.2⟩
      · simp

theorem lowerMembers (hP : FollowsFromParts P) {ms : List Member}
    (h : ∀ t ∈ ms.flatMap Member.types, P (table.lowerType resolving t)) :
    ∀ p ∈ table.lowerMembers resolving ms, P p.type := by
  induction ms with
  | nil =>
    rw [TypeTable.lowerMembers]
    exact fun p hp => absurd hp List.not_mem_nil
  | cons m ms ih =>
    rw [List.flatMap_cons, List.forall_mem_append] at h
    obtain ⟨hm, hms⟩ := h
    unfold TypeTable.lowerMembers
    split
    · rename_i heq
      cases heq
    · rename_i marks decorators key type value _ heq
      cases heq
      refine List.forall_mem_append.mpr ⟨forall_slot? fun hname => ?_, ih hms⟩
      rw [Member.types, if_pos hname, List.forall_mem_singleton] at hm
      exact hm
    · rename_i form marks decorators key type head params tail result body _ hform heq
      cases heq
      refine List.forall_mem_append.mpr ⟨forall_slot? fun hname => ?_, ih hms⟩
      rw [Member.types, if_pos hname, Function.types, List.forall_mem_cons] at hm
      · exact hP.function (forall_lowerParams 0 hm.2) hm.1
      · exact hform
    · rename_i m' ms' hfield hfunction heq
      cases heq
      exact ih hms

theorem lowerNamed (hP : FollowsFromParts P) {name : String} {meaning : NamedType}
    (h : ∀ t ∈ meaning.types, P (table.lowerType (name :: resolving) t)) :
    P (table.lowerNamed resolving name meaning) := by
  match meaning with
  | .alias t => exact h t (List.mem_singleton_self t)
  | .interface ms => exact hP.object (hP.lowerMembers h)

/-- A reference has the property if what its name stands for has it, or the reference that is left
where the name stands for nothing or is being resolved. -/
theorem lowerReference (hP : FollowsFromParts P) {name : String} {args : List TypeExpr}
    (hargs : ∀ t ∈ args, P (table.lowerType resolving t))
    (hleft : Script.builtIn? name (table.lowerTypes resolving args) = none →
      (∀ meaning, table.find? name = some meaning → name ∈ resolving) →
      P (.reference name (table.lowerTypes resolving args)))
    (hnamed : Script.builtIn? name (table.lowerTypes resolving args) = none →
      ∀ meaning, table.find? name = some meaning → name ∉ resolving →
      ∀ t ∈ meaning.types, P (table.lowerType (name :: resolving) t)) :
    P (table.lowerType resolving (.reference name args)) := by
  cases hbuiltIn : Script.builtIn? name (table.lowerTypes resolving args) with
  | some t =>
    rw [lowerType_builtIn hbuiltIn]
    exact hP.builtIn? (forall_lowerTypes hargs) hbuiltIn
  | none =>
    by_cases hresolves : ∃ meaning, table.find? name = some meaning ∧ name ∉ resolving
    · obtain ⟨meaning, hfind, hnew⟩ := hresolves
      rw [lowerType_named hbuiltIn hfind hnew]
      exact hP.lowerNamed (hnamed hbuiltIn meaning hfind hnew)
    · have hstays : ∀ meaning, table.find? name = some meaning → name ∈ resolving :=
        fun meaning hfind => Decidable.byContradiction fun hnew =>
          hresolves ⟨meaning, hfind, hnew⟩
      rw [lowerType_reference hbuiltIn hstays]
      exact hleft hbuiltIn hstays

/-- **A property that follows from the parts goes from the operands of a type to its meaning**, if
it holds of the meaning of a reference. -/
theorem lowerType (hP : FollowsFromParts P) {type : TypeExpr}
    (hoperands : ∀ t ∈ type.operands, P (table.lowerType resolving t))
    (hreference : ∀ name args, type = .reference name args →
      P (table.lowerType resolving (.reference name args))) :
    P (table.lowerType resolving type) := by
  cases type with
  | array t =>
    rw [TypeTable.lowerType]
    exact hP.of_parts (fun _ => Ty.noConfusion) (fun _ _ => Ty.noConfusion)
      (List.forall_mem_singleton.mpr (hoperands t (List.mem_singleton_self t)))
  | tuple ts =>
    rw [TypeTable.lowerType]
    exact hP.of_parts (fun _ => Ty.noConfusion) (fun _ _ => Ty.noConfusion)
      (hP.lowerElements hoperands)
  | union ts =>
    rw [TypeTable.lowerType]
    exact hP.unionOf (forall_lowerTypes hoperands)
  | intersection ts =>
    rw [TypeTable.lowerType]
    exact hP.of_parts (fun _ => Ty.noConfusion) (fun _ _ => Ty.noConfusion)
      (forall_lowerTypes hoperands)
  | group t =>
    rw [TypeTable.lowerType]
    exact hoperands t (List.mem_singleton_self t)
  | object ms =>
    rw [TypeTable.lowerType]
    exact hP.object (hP.lowerMembers hoperands)
  | function f =>
    obtain ⟨head, params, tail, result, body⟩ := f
    rw [TypeExpr.operands, Function.types, List.forall_mem_cons] at hoperands
    rw [TypeTable.lowerType]
    exact hP.function (forall_lowerParams 0 hoperands.2) hoperands.1
  | reference name args => exact hreference name args rfl
  | _ =>
    rw [TypeTable.lowerType]
    exact hP.of_parts_eq_nil (fun _ => Ty.noConfusion) (fun _ _ => Ty.noConfusion) rfl

end FollowsFromParts

end PropCheck.Script
