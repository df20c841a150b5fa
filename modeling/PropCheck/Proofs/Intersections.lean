import PropCheck.Proofs.Unions

/-!
# How intersections are related

An intersection as the target takes what all its members take.  An intersection as the source is
related through one of its members, or through the object type that they amount to, to a target that
is not looked into before the source is.

* `Ty.Plain`: a target that is not looked into before the source is.
* `Ty.Conjunct`: a type is one of the conjuncts of another, through intersections inside
  intersections.
* `Ty.targetInduction`: induction along the targets that are looked into at once.
* `Assign.relates_intersection_target`, `Assign.relates_intersection_source`: the two laws of
  intersections.
* `Assign.ok_relates_eq_simpleRelated`: what is left to one level for all other types.
-/

namespace PropCheck

namespace Ty

/-- A target that is not looked into before the source is. -/
structure Plain (t : Ty) : Prop where
  not_any : t ≠ any
  not_unknown : t ≠ unknown
  not_union : ∀ ts, t ≠ union ts
  not_intersection : ∀ ts, t ≠ intersection ts

/-- A value of the first type is one of the second too: the second is the first itself or one of its
members, through intersections inside intersections. -/
inductive Conjunct : Ty → Ty → Prop where
  | self (t : Ty) : Conjunct t t
  | member {t u : Ty} {us : List Ty} : u ∈ us → Conjunct u t → Conjunct (intersection us) t

theorem eq_of_conjunct {t u : Ty} (h : Conjunct u t) (hu : ∀ us, u ≠ intersection us) : u = t := by
  cases h with
  | self => rfl
  | member hmem h => exact absurd rfl (hu _)

/-- The members of a conjunct are conjuncts. -/
theorem Conjunct.of_mem {t u : Ty} {us : List Ty} (h : Conjunct t (intersection us)) (hu : u ∈ us) :
    Conjunct t u := by
  generalize hv : intersection us = v at h
  induction h with
  | self t =>
    subst hv
    exact .member hu (.self u)
  | member hmem _ ih => exact .member hmem (ih hv)

/-- What holds of the targets that are looked into at once, when it holds of their members, and of
all plain targets, holds of all types. -/
theorem targetInduction {motive : Ty → Prop} (any : motive any) (unknown : motive unknown)
    (union : ∀ ts, (∀ t ∈ ts, motive t) → motive (union ts))
    (intersection : ∀ ts, (∀ t ∈ ts, motive t) → motive (intersection ts))
    (plain : ∀ t, t.Plain → motive t) (t : Ty) : motive t := by
  induction hn : t.height using Nat.strongRecOn generalizing t with
  | ind n ih =>
    subst hn
    cases t with
    | union ts => exact union ts fun t ht => ih t.height (height_lt_union ht) t rfl
    | intersection ts =>
      exact intersection ts fun t ht => ih t.height (height_lt_intersection ht) t rfl
    | keyword k =>
      by_cases hany : k = .any
      · exact hany ▸ any
      by_cases hunknown : k = .unknown
      · exact hunknown ▸ unknown
      · exact plain _ ⟨by simpa using hany, by simpa using hunknown, by simp, by simp⟩
    | _ => exact plain _ ⟨by simp, by simp, by simp, by simp⟩

theorem ordinary_intersection (ts : List Ty) : (intersection ts).Ordinary where
  not_any := Ty.noConfusion
  not_never := Ty.noConfusion
  not_unknown := Ty.noConfusion
  not_union _ := Ty.noConfusion

theorem ordinary_object (name : Option String) (ps : List (Slot Ty)) :
    (object name ps).Ordinary where
  not_any := Ty.noConfusion
  not_never := Ty.noConfusion
  not_unknown := Ty.noConfusion
  not_union _ := Ty.noConfusion

end Ty

namespace Assign

variable {options : Options}

/-- **An intersection takes what all its members take**, if the source is ordinary. -/
theorem relates_intersection_target {s : Ty} (hs : s.Ordinary) (ts : List Ty) :
    relates options s (.intersection ts) = ts.all (relates options s) := by
  have hany := hs.not_any
  have hnever := hs.not_never
  have hunknown := hs.not_unknown
  have hunion := hs.not_union
  apply relates_of_step
  simp only [step, compositeRelated]
  exact allOf_ok _ ts

/-- **An intersection is related through one of its members**, or through the object type that they
amount to, if the target is plain. -/
theorem relates_intersection_source {t : Ty} (ht : t.Plain) (ss : List Ty) :
    relates options (.intersection ss) t
      = (ss.any (relates options · t) || (merged? ss).any (relates options · t)) := by
  have hany := ht.not_any
  have hunknown := ht.not_unknown
  have hunion := ht.not_union
  have hintersection := ht.not_intersection
  apply relates_of_step
  simp only [step, compositeRelated]
  rw [intersectionRelated, anyOf_ok]
  cases ss.any (relates options · t) with
  | true => rfl
  | false =>
    cases merged? ss with
    | none => rfl
    | some merged => exact congrArg Except.ok (Bool.false_or _).symm

theorem relates_intersection_of_mem {s t : Ty} {ss : List Ty} (ht : t.Plain) (hs : s ∈ ss)
    (h : relates options s t = true) : relates options (.intersection ss) t = true := by
  rw [relates_intersection_source ht, Bool.or_eq_true]
  exact Or.inl (List.any_eq_true.mpr ⟨s, hs, h⟩)

/-- One level of the relation, for a source and a target that are looked into last. -/
theorem ok_relates_eq_simpleRelated {s t : Ty} (hs : s.Ordinary)
    (hinter : ∀ ss, s ≠ .intersection ss) (ht : t.Plain) :
    Except.ok (relates options s t)
      = simpleRelated options (fun a b => .ok (relates options a b)) s t := by
  have hany := hs.not_any
  have hnever := hs.not_never
  have hunknown := hs.not_unknown
  have hunion := hs.not_union
  have hany' := ht.not_any
  have hunknown' := ht.not_unknown
  have hunion' := ht.not_union
  have hinter' := ht.not_intersection
  rw [← step_relates]
  simp only [step, compositeRelated]

end Assign

end PropCheck
