import PropCheck.Proofs.Objects
import PropCheck.Proofs.OptionalSlots
import PropCheck.Proofs.Parts

/-!
# When a type is assignable to itself

A type is related to itself unless something inside it keeps one of the rules from finding its own
counterpart: a number that is not equal to itself, a property hidden behind an earlier one of its
name, an `unknown` that no union takes, or a union that an intersection asks for as a whole.

* `Ty.Regular`: nothing of this kind is inside a type.
* `Assign.relates_optional_self`: optional types keep what relates a type to itself.
* `Assign.relates_self_of_parts`: a regular type that is no intersection is related to itself if its
  parts are.
* `Assign.relates_of_conjunct`: a regular type is related to each of its conjuncts.  This is what an
  induction through nested intersections needs in place of reflexivity.
* `Assign.assignable_self`: a regular type of height at most 33 is assignable to itself.
-/

namespace PropCheck

namespace Ty

/-- Nothing at the top of the type keeps it from being related to itself. -/
def RegularHere : Ty → Prop
  | number x => x ≠ .nan
  | object _ ps => (ps.map (·.name)).Nodup ∧ ∀ p ∈ ps, p.optional = true → p.type ≠ unknown
  | union ts => ∀ t ∈ ts, t ≠ unknown ∧ ∀ us, t ≠ union us
  | intersection ts => ∀ t ∈ ts, ∀ us, t ≠ union us
  | _ => True

/-- Nothing inside the type keeps it from being related to itself. -/
def Regular (t : Ty) : Prop :=
  ∀ u ∈ t.inside, u.RegularHere

theorem Regular.here {t : Ty} (h : t.Regular) : t.RegularHere :=
  h t t.self_mem_inside

theorem Regular.part {t u : Ty} (h : t.Regular) (hu : u ∈ t.parts) : u.Regular :=
  fun v hv => h v (inside_subset_of_mem_parts hu hv)

end Ty

theorem Double.ieeeEq_self {x : Double} (h : x ≠ .nan) : x.ieeeEq x = true := by
  cases x with
  | nan => exact absurd rfl h
  | infinite s => exact beq_self_eq_true s
  | finite s m => simp [ieeeEq]

namespace Assign

variable {options : Options}

/-! ### One level against itself -/

theorem allOf_eq_true {α : Type} {ask : α → Verdict} {xs : List α}
    (h : ∀ x ∈ xs, ask x = .ok true) : allOf ask xs = .ok true := by
  induction xs with
  | nil => rfl
  | cons x xs ih =>
    rw [allOf, h x (List.mem_cons_self ..)]
    exact ih fun y hy => h y (List.mem_cons_of_mem x hy)

/-- A list beside itself gives every question twice the same thing. -/
theorem allOf_zip_self {α : Type} {ask : α × α → Verdict} {xs : List α}
    (h : ∀ x ∈ xs, ask (x, x) = .ok true) : allOf ask (xs.zip xs) = .ok true := by
  apply allOf_eq_true
  intro pair hpair
  rw [List.zip, List.zipWith_self] at hpair
  obtain ⟨x, hx, rfl⟩ := List.mem_map.mp hpair
  exact h x hx

section Levels

variable {relate : Ty → Ty → Verdict}

theorem pairwise_self {ts : List Ty} (h : ∀ t ∈ ts, relate t t = .ok true) :
    pairwise relate ts ts = .ok true := by
  rw [pairwise, bne_self_eq_false]
  exact allOf_zip_self h

theorem propertyRelated_self {ps : List (Slot Ty)} {p : Slot Ty}
    (hnodup : (ps.map (·.name)).Nodup) (hp : p ∈ ps)
    (h : relate p.declared p.declared = .ok true) : propertyRelated relate ps p = .ok true := by
  rw [propertyRelated, Slot.find?_eq_some_of_mem hnodup hp]
  simp only [Bool.and_not_self, Bool.false_eq_true, ↓reduceIte]
  exact h

theorem functionRelated_self {ps : List (Slot Ty)} {r : Ty} {m : Bool}
    (hparams : ∀ p ∈ ps, relate p.type p.type = .ok true) (hresult : relate r r = .ok true) :
    functionRelated options relate ps r m ps r m = .ok true := by
  have hlength : ¬ ps.length < (ps.filter (!·.optional)).length :=
    Nat.not_lt.mpr (List.length_filter_le ..)
  have hall : allOf (parameterRelated relate (!options.functionTypes || m || m)) (ps.zip ps)
      = .ok true := by
    apply allOf_zip_self
    intro p hp
    rw [parameterRelated, hparams p hp]
    rfl
  unfold functionRelated
  rw [if_neg hlength]
  simp only [hall]
  show (if _ then Except.ok true else relate r r) = Except.ok true
  rw [hresult, ite_self]

end Levels

/-! ### Optional types -/

/-- **Optional types keep what relates a type to itself**, `unknown` apart. -/
theorem relates_optional_self {t : Ty} (ht : t ≠ .unknown) (h : relates options t t = true) :
    relates options (t.optional true) (t.optional true) = true := by
  -- each alternative of the optional type is `undefined` or a member of the type
  have hmember : ∀ m ∈ t.members, relates options m (t.optional true) = true := by
    intro m hm
    rw [relates_eq_all_members, List.all_eq_true] at h
    rw [relates_optional_iff (h m hm)]
    rintro ⟨rfl | rfl, hmay⟩
    · rw [List.mem_singleton.mp hm] at hmay
      cases Ty.eq_of_mayBe hmay fun _ => Ty.noConfusion
    · exact ht rfl
  have hundefined : relates options .undefined (t.optional true) = true := by
    have hself : relates options .undefined .undefined = true := relates_of_step rfl
    rw [relates_optional ⟨by simp, by simp, by simp, by simp⟩, hself, Bool.or_true]
  show relates options (Ty.ofAlternatives _) (t.optional true) = true
  rw [relates_ofAlternatives_source, List.all_eq_true]
  intro m hm
  obtain ⟨u, hu, hmu⟩ := List.mem_flatMap.mp (Ty.mem_of_mem_distinct hm)
  rcases List.mem_cons.mp hu with rfl | hu
  · exact hmember m hmu
  · rw [List.mem_singleton.mp hu] at hmu
    rw [List.mem_singleton.mp hmu]
    exact hundefined

theorem relates_declared_self {p : Slot Ty} (hunknown : p.optional = true → p.type ≠ .unknown)
    (h : relates options p.type p.type = true) :
    relates options p.declared p.declared = true := by
  obtain ⟨name, t, isOptional⟩ := p
  cases isOptional with
  | false => exact h
  | true => exact relates_optional_self (hunknown rfl) h

/-! ### Types against themselves -/

/-- A type that is no intersection is related to itself if its parts are. -/
theorem relates_self_of_parts {t : Ty} (ht : t.Regular) (hnot : ∀ ts, t ≠ .intersection ts)
    (h : ∀ u ∈ t.parts, relates options u u = true) : relates options t t = true := by
  have hhere := ht.here
  -- the answers about the parts, as one level of the relation asks for them
  have hparts : ∀ u ∈ t.parts, (Except.ok (relates options u u) : Verdict) = .ok true :=
    fun u hu => congrArg Except.ok (h u hu)
  cases t with
  | keyword k => cases k <;> exact relates_of_step rfl
  | string value => exact relates_of_step (congrArg Except.ok (beq_self_eq_true value))
  | number x =>
    exact relates_of_step (congrArg Except.ok (Double.ieeeEq_self hhere))
  | boolean value => exact relates_of_step (congrArg Except.ok (beq_self_eq_true value))
  | array t => exact relates_of_step (hparts t (List.mem_singleton_self t))
  | tuple ts =>
    apply relates_of_step
    show pairwise (fun a b => .ok (relates options a b)) ts ts = .ok true
    exact pairwise_self hparts
  | reference name ts =>
    apply relates_of_step
    simp only [step, compositeRelated, simpleRelated, beq_self_eq_true, ↓reduceIte]
    exact pairwise_self hparts
  | function ps r m =>
    apply relates_of_step
    apply functionRelated_self
    · intro p hp
      exact hparts p.type (List.mem_append_left _ (List.mem_map_of_mem hp))
    · exact hparts r (List.mem_append_right _ (List.mem_singleton_self r))
  | object name ps =>
    apply relates_of_step
    apply allOf_eq_true
    intro p hp
    apply propertyRelated_self hhere.1 hp
    have hself := h p.type (List.mem_map_of_mem hp)
    exact congrArg Except.ok (relates_declared_self (hhere.2 p hp) hself)
  | union ts =>
    rw [relates_union_source, List.all_eq_true]
    intro t hts
    obtain ⟨hunknown, hunion⟩ := hhere t hts
    have hmay : ¬ t.MayBe .unknown := fun hmay => hunknown (Ty.eq_of_mayBe hmay hunion)
    exact relates_union_of_mem hts hmay (h t hts)
  | intersection ts => exact absurd rfl (hnot ts)

/-- An intersection is related to the conjuncts of its members if the members are. -/
theorem relates_intersection_of_conjuncts {ts : List Ty}
    (hunion : ∀ t ∈ ts, ∀ us, ¬ t.Conjunct (.union us))
    (h : ∀ t ∈ ts, ∀ u, t.Conjunct u → relates options t u = true)
    {t u : Ty} (ht : t ∈ ts) (hu : t.Conjunct u) :
    relates options (.intersection ts) u = true := by
  induction u using Ty.targetInduction with
  | any => exact relates_any_target _
  | unknown => exact relates_unknown_target _
  | union us => exact absurd hu (hunion t ht us)
  | intersection us ih =>
    rw [relates_intersection_target (Ty.ordinary_intersection ts), List.all_eq_true]
    intro u hmem
    exact ih u hmem (hu.of_mem hmem)
  | plain u hplain => exact relates_intersection_of_mem hplain ht (h t ht u hu)

/-- No conjunct of a regular type is a union, but the type itself may be one. -/
theorem eq_union_of_conjunct {t : Ty} (ht : t.Regular) {us : List Ty}
    (h : t.Conjunct (.union us)) : t = .union us := by
  generalize hv : Ty.union us = v at h
  induction h with
  | self => rfl
  | @member v w ts hmem _ ih =>
    have hw := ih (ht.part hmem) hv
    exact absurd (hw.trans hv.symm) (ht.here w hmem us)

/-- **A regular type is related to each of its conjuncts.** -/
theorem relates_of_conjunct {t u : Ty} (ht : t.Regular) (hu : t.Conjunct u) :
    relates options t u = true := by
  -- by height; a member of an intersection needs the statement for all its conjuncts
  induction hn : t.height using Nat.strongRecOn generalizing t u with
  | ind n ih =>
    subst hn
    have hparts : ∀ v ∈ t.parts, ∀ w, v.Conjunct w → relates options v w = true :=
      fun v hv w hw => ih v.height (Ty.height_lt_of_mem_parts hv) (ht.part hv) hw rfl
    by_cases hinter : ∃ ts, t = .intersection ts
    · obtain ⟨ts, rfl⟩ := hinter
      have hunion : ∀ v ∈ ts, ∀ us, ¬ v.Conjunct (.union us) := by
        intro v hv us hconj
        cases eq_union_of_conjunct ht (.member hv hconj)
      have hmember : ∀ v ∈ ts, ∀ w, v.Conjunct w →
          relates options (.intersection ts) w = true :=
        fun v hv w hw => relates_intersection_of_conjuncts hunion hparts hv hw
      cases hu with
      | self =>
        rw [relates_intersection_target (Ty.ordinary_intersection ts), List.all_eq_true]
        exact fun v hv => hmember v hv v (.self v)
      | member hmem hconj => exact hmember _ hmem _ hconj
    · have hnot : ∀ ts, t ≠ .intersection ts := fun ts heq => hinter ⟨ts, heq⟩
      rw [← Ty.eq_of_conjunct hu hnot]
      exact relates_self_of_parts ht hnot fun v hv => hparts v hv v (.self v)

/-- **Reflexivity.**  Every type of height at most 33 is assignable to itself under all options, if
nothing inside it is the literal `nan`, an object with two properties of one name or with an
optional property of type `unknown`, a union with `unknown` or a union among its members, or an
intersection with a union among its members. -/
theorem assignable_self (options : Options) {t : Ty} (hheight : t.height ≤ 33) (ht : t.Regular) :
    assignable options t t = true := by
  have hsum : t.height + t.height ≤ 66 := by omega
  rw [assignable_eq_relates hsum]
  exact relates_of_conjunct ht (.self t)

/-- A property that may be left out and is a union, a function, and intersections inside each other.
-/
theorem assignable_self_properties :
    let rest : Ty := .intersection [.object none [⟨"x", .number (.finite false 0), false⟩],
      .intersection [.object none [⟨"y", .array (.tuple [.keyword .boolean]), true⟩], .unknown]]
    let handler : Ty := .function [⟨"event", .reference "Event" [.any], true⟩] .void false
    let t : Ty := .object (some "Props") [⟨"id", .union [.string "a", .keyword .number], true⟩,
      ⟨"handler", handler, false⟩, ⟨"rest", rest, false⟩]
    t.height ≤ 33 ∧ t.Regular ∧ assignable .strictest t t = true := by
  intro rest handler t
  have hheight : t.height ≤ 33 := by decide
  have ht : t.Regular := by
    simp [Ty.Regular, Ty.RegularHere, t, rest, handler, Ty.inside, Ty.insideAll, Ty.insideSlots]
  exact ⟨hheight, ht, assignable_self .strictest hheight ht⟩

end Assign

end PropCheck
