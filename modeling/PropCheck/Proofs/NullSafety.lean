import PropCheck.Proofs.Intersections

/-!
# Null safety

Where `null` and `undefined` are types of their own, a value that may be one of them is only
accepted by a type that says so.

* `Ty.Admits`: a type says that a value may be `null` or `undefined`: by that keyword or a wider
  one, by one member of a union, or by all members of an intersection.
* `Assign.relates_absent_iff`: `null` and `undefined` are related to exactly the types that admit
  them.
* `Assign.admits_of_assignable`: what a possibly absent value is assignable to admits that it is
  absent.
-/

namespace PropCheck

/-- The type says that a value may be the given one of `null` and `undefined`. -/
inductive Ty.Admits (absent : Keyword) : Ty → Prop where
  | any : Admits absent any
  | unknown : Admits absent unknown
  | self : Admits absent (keyword absent)
  | void : absent = .undefined → Admits absent void
  | union {t : Ty} {ts : List Ty} : t ∈ ts → Admits absent t → Admits absent (union ts)
  | intersection {ts : List Ty} : (∀ t ∈ ts, Admits absent t) → Admits absent (intersection ts)

namespace Assign

variable {options : Options} {absent : Keyword}

/-- Whatever is assignable is related without a limit. -/
theorem relates_of_assignable {s t : Ty} (h : assignable options t s = true) :
    relates options s t = true := by
  unfold assignable at h
  split at h
  · rename_i answer hanswer
    exact (relates_of_related hanswer).trans h
  · cases h

theorem ordinary_absent (habsent : absent = .null ∨ absent = .undefined) :
    (Ty.keyword absent).Ordinary := by
  rcases habsent with rfl | rfl <;> constructor <;> simp

/-- A plain type takes an absent value only if it is the keyword of it, or `void`. -/
theorem relates_absent_plain (hchecks : options.nullChecks = true)
    (habsent : absent = .null ∨ absent = .undefined) {t : Ty} (ht : t.Plain) :
    relates options (.keyword absent) t = true
      ↔ t = .keyword absent ∨ (t = .void ∧ absent = .undefined) := by
  have hany := ht.not_any
  have hunknown := ht.not_unknown
  rw [← Except.ok.injEq, ← step_relates]
  cases t with
  | keyword k =>
    rcases habsent with rfl | rfl <;> cases k <;>
      simp_all [step, compositeRelated, simpleRelated]
  | union ts => exact absurd rfl (ht.not_union ts)
  | intersection ts => exact absurd rfl (ht.not_intersection ts)
  | _ => rcases habsent with rfl | rfl <;>
      simp [step, compositeRelated, simpleRelated, hchecks]

/-- **Absent values are related to exactly the types that admit them.** -/
theorem relates_absent_iff (hchecks : options.nullChecks = true)
    (habsent : absent = .null ∨ absent = .undefined) (t : Ty) :
    relates options (.keyword absent) t = true ↔ t.Admits absent := by
  have hordinary := ordinary_absent habsent
  induction t using Ty.targetInduction with
  | any => exact iff_of_true (relates_any_target _) .any
  | unknown => exact iff_of_true (relates_unknown_target _) .unknown
  | union ts ih =>
    have hcovers : coversBoolean (.keyword absent) ts = false := by
      rcases habsent with rfl | rfl <;> rfl
    rw [relates_union_target hordinary, hcovers, Bool.false_or, List.any_eq_true]
    constructor
    · rintro ⟨t, ht, h⟩
      exact .union ht ((ih t ht).mp h)
    · rintro (_ | _ | _ | _ | ⟨ht, h⟩)
      exact ⟨_, ht, (ih _ ht).mpr h⟩
  | intersection ts ih =>
    rw [relates_intersection_target hordinary, List.all_eq_true]
    constructor
    · intro h
      exact .intersection fun t ht => (ih t ht).mp (h t ht)
    · rintro (_ | _ | _ | _ | _ | h) t ht
      exact (ih t ht).mpr (h t ht)
  | plain t ht =>
    rw [relates_absent_plain hchecks habsent ht]
    constructor
    · rintro (rfl | ⟨rfl, hundefined⟩)
      · exact .self
      · exact .void hundefined
    · intro h
      cases h with
      | any => exact absurd rfl ht.not_any
      | unknown => exact absurd rfl ht.not_unknown
      | self => exact Or.inl rfl
      | void hundefined => exact Or.inr ⟨rfl, hundefined⟩
      | union => exact absurd rfl (ht.not_union _)
      | intersection => exact absurd rfl (ht.not_intersection _)

/-- A type is related through each of its alternatives. -/
theorem relates_of_mayBe {s t u : Ty} (h : relates options s t = true) (hmay : s.MayBe u) :
    relates options u t = true := by
  induction hmay with
  | self => exact h
  | member hmem _ ih =>
    rw [relates_union_source, List.all_eq_true] at h
    exact ih (h _ hmem)

/-- **Null safety.**  With null checks, a value that may be `null` is assignable only to types that
admit `null`, and one that may be `undefined` only to types that admit `undefined`, however the
alternatives and conjuncts of the two types are nested. -/
theorem admits_of_assignable {options : Options} (hchecks : options.nullChecks = true)
    {absent : Keyword} (habsent : absent = .null ∨ absent = .undefined) {s t : Ty}
    (hmay : s.MayBe (.keyword absent)) (h : assignable options t s = true) : t.Admits absent :=
  (relates_absent_iff hchecks habsent t).mp (relates_of_mayBe (relates_of_assignable h) hmay)

/-- A `null` inside two unions, and a target that admits it inside a union and an intersection. -/
theorem admits_of_assignable_nested :
    let s : Ty := .union [.keyword .string, .union [.number (.finite false 0), .null]]
    let t : Ty := .union [.keyword .string, .keyword .number,
      .intersection [.unknown, .union [.object none [], .null]]]
    s.MayBe .null ∧ assignable .strictest t s = true ∧ t.Admits .null := by
  intro s t
  have hmay : s.MayBe .null :=
    .member (.tail _ (.head _)) (.member (.tail _ (.head _)) (.self _))
  have h : assignable .strictest t s = true := by decide
  exact ⟨hmay, h, admits_of_assignable (by decide) (Or.inl rfl) hmay h⟩

end Assign

end PropCheck
