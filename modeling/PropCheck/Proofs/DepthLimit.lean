import PropCheck.Proofs.Height

/-!
# The relation without a limit on its levels

The relation gives up on a pair of types that it cannot decide within its limit.  Here it is
compared with the relation that never gives up, which is the same recursion without the limit: it
ends since every question that one level asks is about a lower pair of types.

* `Assign.Compatible`: a way to compare verdicts that survives asking one question after another.
* `Assign.Levelwise`: a way to compare verdicts, found under two options, that one level carries
  from the parts of two types to the types.
* `Assign.Levelwise.step`: what holds between the answers to all lower pairs holds between the
  verdicts one level up.  That a level asks about lower pairs only is part of this.
* `Assign.relates`: the relation without a limit.
* `Assign.step_relates`: it is what one level makes of itself.
* `Assign.related_eq_ok_of_height_le`: the levels that decide a pair, in terms of its height.
* `Assign.depth_limit_fails_closed`: the relation with the limit never contradicts the one without,
  and is the same on all pairs that are not too high.
-/

namespace PropCheck.Assign

/-! ### Comparing verdicts -/

/-- A comparison of verdicts that holds between equal answers, and between two verdicts that go on
after comparable ones in a comparable way. -/
structure Compatible (P : Verdict → Verdict → Prop) : Prop where
  ok : ∀ answer, P (.ok answer) (.ok answer)
  bind : ∀ {x y : Verdict} {f g : Bool → Verdict},
    P x y → (∀ b, P (f b) (g b)) → P (x >>= f) (y >>= g)

/-- What the first verdict answers, the second answers too. -/
def Keeps (x y : Verdict) : Prop :=
  ∀ answer, x = .ok answer → y = .ok answer

/-- Both verdicts give the same answer. -/
def Answered (x y : Verdict) : Prop :=
  ∃ answer, x = .ok answer ∧ y = .ok answer

theorem compatible_eq : Compatible Eq where
  ok _ := rfl
  bind hxy hfg := by rw [hxy, funext hfg]

theorem compatible_keeps : Compatible Keeps where
  ok _ _ h := h
  bind {x y f g} hxy hfg := by
    intro answer h
    cases x with
    | error fault => cases h
    | ok b =>
      rw [hxy b rfl]
      exact hfg b answer h

theorem compatible_answered : Compatible Answered where
  ok answer := ⟨answer, rfl, rfl⟩
  bind {x y f g} hxy hfg := by
    obtain ⟨b, rfl, rfl⟩ := hxy
    exact hfg b

/-! ### One level -/

/-- **What one level looks at**, in its order: the keywords that are above or below all types, then
the members of the source, then those of the target. -/
theorem step_cases {motive : Ty → Ty → Prop}
    (toAny : ∀ source, motive source .any)
    (toUnknown : ∀ source, motive source .unknown)
    (fromAny : ∀ target, target ≠ .any → target ≠ .unknown → motive .any target)
    (fromNever : ∀ target, target ≠ .any → target ≠ .unknown → motive .never target)
    (fromUnknown : ∀ target, target ≠ .any → target ≠ .unknown → motive .unknown target)
    (fromUnion : ∀ ss target, target ≠ .any → target ≠ .unknown → motive (.union ss) target)
    (covered : ∀ source ts, source ≠ .any → source ≠ .never → source ≠ .unknown →
      (∀ ss, source ≠ .union ss) → coversBoolean source ts = true → motive source (.union ts))
    (toUnion : ∀ source ts, source ≠ .any → source ≠ .never → source ≠ .unknown →
      (∀ ss, source ≠ .union ss) → ¬ coversBoolean source ts = true → motive source (.union ts))
    (composite : ∀ source target, target ≠ .any → target ≠ .unknown → source ≠ .any →
      source ≠ .never → source ≠ .unknown → (∀ ss, source ≠ .union ss) →
      (∀ ts, target ≠ .union ts) → motive source target)
    (source target : Ty) : motive source target :=
  step.fun_cases motive toAny toUnknown fromAny fromNever fromUnknown fromUnion covered toUnion
    composite source target

/-- A comparison of verdicts that one level carries from the parts to the whole, where the first
verdict is found under the first options and the second under the second: it holds between equal
answers, survives asking on after a yes and asking on after a no, and holds wherever the options
come in. -/
structure Levelwise (P : Verdict → Verdict → Prop) (first second : Options) : Prop where
  ok : ∀ answer, P (.ok answer) (.ok answer)
  andThen : ∀ {x y x' y' : Verdict}, P x y → P x' y' →
    P (do if ← x then x' else return false) (do if ← y then y' else return false)
  orElse : ∀ {x y x' y' : Verdict}, P x y → P x' y' →
    P (do if ← x then return true else x') (do if ← y then return true else y')
  nullChecks : P (.ok !first.nullChecks) (.ok !second.nullChecks)
  functionTypes : ∀ {x y : Verdict} (m n : Bool), P x y →
    P (if !first.functionTypes || m || n then x else return false)
      (if !second.functionTypes || m || n then y else return false)

/-- The comparison holds between the answers of two relations about all pairs lower than two types.
-/
def Compatible.Below (P : Verdict → Verdict → Prop) (source target : Ty)
    (f g : Ty → Ty → Verdict) : Prop :=
  ∀ s t : Ty, s.height + t.height < source.height + target.height → P (f s t) (g s t)

namespace Levelwise

open Compatible (Below)

variable {P : Verdict → Verdict → Prop} {first second : Options}

section Lists

variable {α : Type} {f g : α → Verdict}

theorem allOf (hP : Levelwise P first second) {xs : List α} (h : ∀ x ∈ xs, P (f x) (g x)) :
    P (allOf f xs) (allOf g xs) := by
  induction xs with
  | nil => exact hP.ok true
  | cons x xs ih =>
    exact hP.andThen (h x (List.mem_cons_self ..))
      (ih fun y hy => h y (List.mem_cons_of_mem x hy))

theorem anyOf (hP : Levelwise P first second) {xs : List α} (h : ∀ x ∈ xs, P (f x) (g x)) :
    P (anyOf f xs) (anyOf g xs) := by
  induction xs with
  | nil => exact hP.ok false
  | cons x xs ih =>
    exact hP.orElse (h x (List.mem_cons_self ..))
      (ih fun y hy => h y (List.mem_cons_of_mem x hy))

end Lists

variable {f g : Ty → Ty → Verdict}

theorem pairwise (hP : Levelwise P first second) {ss ts : List Ty}
    (h : ∀ s ∈ ss, ∀ t ∈ ts, P (f s t) (g s t)) : P (pairwise f ss ts) (pairwise g ss ts) := by
  unfold Assign.pairwise
  split
  · exact hP.ok false
  · apply hP.allOf
    intro pair hpair
    exact h _ (List.of_mem_zip hpair).1 _ (List.of_mem_zip hpair).2

theorem propertyRelated (hP : Levelwise P first second) {qs : List (Slot Ty)} {p : Slot Ty}
    (h : ∀ q ∈ qs, P (f q.declared p.declared) (g q.declared p.declared)) :
    P (propertyRelated f qs p) (propertyRelated g qs p) := by
  unfold Assign.propertyRelated
  split
  · rename_i q hq
    split
    · exact hP.ok false
    · exact h q (List.mem_of_find?_eq_some hq)
  · exact hP.ok p.optional

theorem objectRelated (hP : Levelwise P first second) {source : Ty} {ps : List (Slot Ty)}
    (h : ∀ name qs, source = .object name qs → ∀ q ∈ qs, ∀ p ∈ ps,
      P (f q.declared p.declared) (g q.declared p.declared)) :
    P (objectRelated f source ps) (objectRelated g source ps) := by
  unfold Assign.objectRelated
  split
  · rename_i name qs
    apply hP.allOf
    intro p hp
    exact hP.propertyRelated fun q hq => h name qs rfl q hq p hp
  · exact hP.ok _

theorem parameterRelated (hP : Levelwise P first second) (m n : Bool) {pair : Slot Ty × Slot Ty}
    (hback : P (f pair.2.type pair.1.type) (g pair.2.type pair.1.type))
    (hforth : P (f pair.1.type pair.2.type) (g pair.1.type pair.2.type)) :
    P (parameterRelated f (!first.functionTypes || m || n) pair)
      (parameterRelated g (!second.functionTypes || m || n) pair) :=
  hP.orElse hback (hP.functionTypes m n hforth)

theorem functionRelated (hP : Levelwise P first second) {ps qs : List (Slot Ty)} {r s : Ty}
    {m n : Bool}
    (hparams : ∀ p ∈ ps, ∀ q ∈ qs,
      P (f q.type p.type) (g q.type p.type) ∧ P (f p.type q.type) (g p.type q.type))
    (hresult : P (f r s) (g r s)) :
    P (functionRelated first f ps r m qs s n) (functionRelated second g ps r m qs s n) := by
  unfold Assign.functionRelated
  split
  · exact hP.ok false
  · refine hP.andThen (hP.allOf fun pair hpair => ?_) ?_
    · have hmem := List.of_mem_zip hpair
      have h := hparams pair.1 hmem.1 pair.2 hmem.2
      exact hP.parameterRelated m n h.1 h.2
    · split
      · exact hP.ok true
      · exact hresult

variable {source target : Ty}

theorem keywordRelated (hP : Levelwise P first second) {j : Keyword} (target : Ty)
    (hobject : ∀ name ps, target = .object name ps →
      P (Assign.objectRelated f (.keyword j) ps) (Assign.objectRelated g (.keyword j) ps)) :
    P (simpleRelated first f (.keyword j) target) (simpleRelated second g (.keyword j) target) := by
  cases j with
  | null =>
    cases target with
    | keyword k =>
      cases k with
      | null => exact hP.ok true
      | _ => exact hP.nullChecks
    | _ => exact hP.nullChecks
  | undefined =>
    cases target with
    | keyword k =>
      cases k with
      | undefined | void => exact hP.ok true
      | _ => exact hP.nullChecks
    | _ => exact hP.nullChecks
  | _ =>
    cases target with
    | object name ps => exact hobject name ps rfl
    | _ => exact hP.ok _

theorem simpleRelated (hP : Levelwise P first second) (h : Below P source target f g) :
    P (simpleRelated first f source target) (simpleRelated second g source target) := by
  have hobject : ∀ name ps, target = .object name ps →
      P (Assign.objectRelated f source ps) (Assign.objectRelated g source ps) := by
    rintro name ps rfl
    apply hP.objectRelated
    rintro name' qs rfl q hq p hp
    exact h q.declared p.declared
      (Nat.add_lt_add (Ty.height_declared_lt hq name') (Ty.height_declared_lt hp name))
  cases source with
  | keyword j => exact hP.keywordRelated target hobject
  | array s =>
    cases target with
    | keyword k => cases k <;> exact hP.ok _
    | array t => exact h s t (Nat.add_lt_add s.height_lt_array t.height_lt_array)
    | object name ps => exact hobject name ps rfl
    | _ => exact hP.ok false
  | tuple ss =>
    cases target with
    | keyword k => cases k <;> exact hP.ok _
    | array t =>
      apply hP.allOf
      intro s hs
      exact h s t (Nat.add_lt_add (Ty.height_lt_tuple hs) t.height_lt_array)
    | tuple ts =>
      apply hP.pairwise
      intro s hs t ht
      exact h s t (Nat.add_lt_add (Ty.height_lt_tuple hs) (Ty.height_lt_tuple ht))
    | object name ps => exact hobject name ps rfl
    | _ => exact hP.ok false
  | function ps r m =>
    cases target with
    | keyword k => cases k <;> exact hP.ok _
    | function qs s n =>
      apply hP.functionRelated
      · intro p hp q hq
        have hlt := Nat.add_lt_add (Ty.height_param_lt hp r m) (Ty.height_param_lt hq s n)
        constructor
        · -- a parameter of the target is asked about first, so the heights change places
          rw [Nat.add_comm] at hlt
          exact h q.type p.type hlt
        · exact h p.type q.type hlt
      · exact h r s (Nat.add_lt_add (Ty.height_result_lt ps r m) (Ty.height_result_lt qs s n))
    | object name ps => exact hobject name ps rfl
    | _ => exact hP.ok false
  | reference a ss =>
    cases target with
    | keyword k => cases k <;> exact hP.ok _
    | reference b ts =>
      simp only [Assign.simpleRelated]
      split
      · apply hP.pairwise
        intro s hs t ht
        exact h s t (Nat.add_lt_add (Ty.height_lt_reference hs) (Ty.height_lt_reference ht))
      · exact hP.ok false
    | object name ps => exact hobject name ps rfl
    | _ => exact hP.ok false
  | _ =>
    cases target with
    | keyword k => cases k <;> exact hP.ok _
    | object name ps => exact hobject name ps rfl
    | _ => exact hP.ok _

theorem intersectionRelated (hP : Levelwise P first second) {ss : List Ty}
    (h : Below P (.intersection ss) target f g) :
    P (intersectionRelated f ss target) (intersectionRelated g ss target) := by
  refine hP.orElse (hP.anyOf fun s hs => ?_) ?_
  · exact h s target (Nat.add_lt_add_right (Ty.height_lt_intersection hs) _)
  · split
    · rename_i merged hmerged
      exact h merged target (Nat.add_lt_add_right (height_merged_lt hmerged) _)
    · exact hP.ok false

theorem compositeRelated (hP : Levelwise P first second) (h : Below P source target f g) :
    P (compositeRelated first f source target) (compositeRelated second g source target) := by
  have hsimple := hP.simpleRelated h
  cases target with
  | intersection ts =>
    simp only [Assign.compositeRelated]
    apply hP.allOf
    intro t ht
    exact h source t (Nat.add_lt_add_left (Ty.height_lt_intersection ht) _)
  | _ =>
    cases source with
    | intersection ss => exact hP.intersectionRelated h
    | _ => exact hsimple

/-- **One level asks about lower pairs only.**  What holds between the answers of two relations
about all lower pairs holds between the verdicts that one level makes of them. -/
theorem step (hP : Levelwise P first second) (h : Below P source target f g) :
    P (step first f source target) (step second g source target) := by
  cases source, target using step_cases with
  | fromUnion ss target =>
    simp only [Assign.step]
    apply hP.allOf
    intro s hs
    exact h s target (Nat.add_lt_add_right (Ty.height_lt_union hs) _)
  | covered source ts _ _ _ _ hcovers =>
    simp only [Assign.step, if_pos hcovers]
    exact hP.ok true
  | toUnion source ts _ _ _ _ hcovers =>
    simp only [Assign.step, if_neg hcovers]
    apply hP.anyOf
    intro t ht
    exact h source t (Nat.add_lt_add_left (Ty.height_lt_union ht) _)
  | composite source target =>
    simp only [Assign.step]
    exact hP.compositeRelated h
  | _ =>
    simp only [Assign.step]
    exact hP.ok _

end Levelwise

namespace Compatible

variable {P : Verdict → Verdict → Prop}

theorem levelwise (hP : Compatible P) (options : Options) : Levelwise P options options where
  ok := hP.ok
  andThen hx hx' := by
    refine hP.bind hx fun b => ?_
    cases b with
    | false => exact hP.ok false
    | true => exact hx'
  orElse hx hx' := by
    refine hP.bind hx fun b => ?_
    cases b with
    | false => exact hx'
    | true => exact hP.ok true
  nullChecks := hP.ok _
  functionTypes m n h := by
    split
    · exact h
    · exact hP.ok false

theorem step {options : Options} {f g : Ty → Ty → Verdict} {source target : Ty}
    (hP : Compatible P) (h : Below P source target f g) :
    P (step options f source target) (step options g source target) :=
  (hP.levelwise options).step h

end Compatible

/-! ### The relation without a limit -/

/-- The answer of a verdict; no answer counts as a no. -/
def decided : Verdict → Bool
  | .ok answer => answer
  | .error .tooDeep => false

/-- Whether the source type is related to the target type, however many levels that takes.  The
recursion is guarded to go to lower pairs only, which `step_relates` shows to be no restriction. -/
def relates (options : Options) (source target : Ty) : Bool :=
  decided <| step options
    (fun s t =>
      if s.height + t.height < source.height + target.height then .ok (relates options s t)
      else .error .tooDeep)
    source target
termination_by source.height + target.height

/-- A relation that always answers gives an answer one level up. -/
theorem step_ok_eq (options : Options) (r : Ty → Ty → Bool) (source target : Ty) :
    step options (fun s t => .ok (r s t)) source target
      = .ok (decided (step options (fun s t => .ok (r s t)) source target)) := by
  have h : Answered (step options (fun s t => .ok (r s t)) source target)
      (step options (fun s t => .ok (r s t)) source target) :=
    compatible_answered.step fun s t _ => ⟨r s t, rfl, rfl⟩
  obtain ⟨answer, hanswer, -⟩ := h
  rw [hanswer]
  rfl

/-- **The relation without a limit is what one level makes of itself**: whatever the level asks is
answered, and by the relation itself. -/
theorem step_relates (options : Options) (source target : Ty) :
    step options (fun s t => .ok (relates options s t)) source target
      = .ok (relates options source target) := by
  rw [step_ok_eq, relates]
  congr 2
  apply compatible_eq.step
  intro s t hlt
  exact (if_pos hlt).symm

/-- No other relation is what one level makes of itself. -/
theorem eq_relates {options : Options} {r : Ty → Ty → Bool}
    (h : ∀ s t, step options (fun s t => .ok (r s t)) s t = .ok (r s t)) (source target : Ty) :
    r source target = relates options source target := by
  -- strong induction on the height of the pair, since a level asks about lower pairs only
  induction hn : source.height + target.height using Nat.strongRecOn generalizing source target with
  | ind n ih =>
    have heq : step options (fun s t => .ok (r s t)) source target
        = step options (fun s t => .ok (relates options s t)) source target := by
      apply compatible_eq.step
      intro s t hlt
      exact congrArg Except.ok (ih _ (hn ▸ hlt) s t rfl)
    rw [h, step_relates] at heq
    exact Except.ok.inj heq

/-! ### The relation with a limit -/

/-- Whatever the relation with a limit answers is right. -/
theorem relates_of_related {options : Options} {levels : Nat} {source target : Ty} {answer : Bool}
    (h : related options levels source target = .ok answer) :
    relates options source target = answer := by
  have hkeeps : ∀ s t, Keeps (related options levels s t) (.ok (relates options s t)) := by
    clear h
    induction levels with
    | zero => intro s t answer h; cases h
    | succ levels ih =>
      intro s t
      rw [← step_relates]
      exact compatible_keeps.step fun s' t' _ => ih s' t'
  exact Except.ok.inj (hkeeps source target answer h)

/-- A pair of types is decided within one level less than it is high. -/
theorem related_eq_ok_of_height_le {options : Options} {levels : Nat} {source target : Ty}
    (h : source.height + target.height ≤ levels + 1) :
    related options levels source target = .ok (relates options source target) := by
  induction levels generalizing source target with
  | zero =>
    have hs := source.one_le_height
    have ht := target.one_le_height
    omega
  | succ levels ih =>
    rw [related, ← step_relates]
    apply compatible_eq.step
    intro s t hlt
    exact ih (by omega)

/-- Within the limit, a type is assignable exactly if it is related without a limit. -/
theorem assignable_eq_relates {options : Options} {target source : Ty}
    (h : source.height + target.height ≤ 66) :
    assignable options target source = relates options source target := by
  have hok : related options maxLevels source target = .ok (relates options source target) :=
    related_eq_ok_of_height_le h
  rw [assignable, hok]

/-- **The limit fails closed.**  The relation without a limit is the only one that is what one level
makes of itself.  Whatever the relation with the limit answers is its answer, so that no type is
assignable by giving up; and no pair whose heights add up to at most 66 is given up, so that the
limit makes no difference there. -/
theorem depth_limit_fails_closed (options : Options) (source target : Ty) :
    (∀ r : Ty → Ty → Bool,
      (∀ s t, step options (fun a b => .ok (r a b)) s t = .ok (r s t)) ↔ r = relates options) ∧
    (∀ answer, related options maxLevels source target = .ok answer →
      relates options source target = answer) ∧
    (assignable options target source = true → relates options source target = true) ∧
    (source.height + target.height ≤ 66 →
      related options maxLevels source target ≠ .error .tooDeep ∧
        assignable options target source = relates options source target) := by
  refine ⟨fun r => ⟨fun h => ?_, ?_⟩, fun answer h => relates_of_related h, fun h => ?_,
    fun h => ?_⟩
  · exact funext fun s => funext fun t => eq_relates h s t
  · rintro rfl
    exact step_relates options
  · unfold assignable at h
    split at h
    · rename_i answer hanswer
      rw [relates_of_related hanswer, h]
    · cases h
  · have hok : related options maxLevels source target = .ok (relates options source target) :=
      related_eq_ok_of_height_le h
    refine ⟨?_, assignable_eq_relates h⟩
    intro hfault
    rw [hok] at hfault
    cases hfault

/-- Arrays nested as deep as the heights allow: 32 around a keyword on both sides. -/
theorem depth_limit_fails_closed_nested_arrays :
    let nested := (List.range 32).foldl (fun t _ => Ty.array t) (.keyword .string)
    nested.height + nested.height = 66 ∧
      related .strictest maxLevels nested nested ≠ .error .tooDeep ∧
      assignable .strictest nested nested = relates .strictest nested nested := by
  intro nested
  have h : nested.height + nested.height = 66 := by decide
  exact ⟨h, (depth_limit_fails_closed .strictest nested nested).2.2.2 (Nat.le_of_eq h)⟩

end PropCheck.Assign
