import PropCheck.Proofs.Sameness

/-!
# How unions are related

A union as the source is related if all its members are, and a union as the target if one of its
members takes the source, for a source that is not decided before its target is looked into.  A
union that is built drops members and may not be a union any more, which makes no difference here.

* `Ty.Ordinary`: a source that is not decided before its target is looked into.
* `Ty.MayBe`: a type is one of the alternatives of another, through unions inside unions.
* `Assign.relates_union_source`, `Assign.relates_eq_members`: the two laws of unions.
* `Assign.relates_union_of_mem`: a union takes what one of its members takes.
* `Assign.relates_ofAlternatives_source`, `Assign.relates_ofAlternatives`: the two laws for
  alternatives that may be a single type.
* `Assign.relates_optional`: an optional type takes what the type takes and what `undefined` takes.
-/

namespace PropCheck

namespace Ty

/-- A source that is not decided before its target is looked into. -/
structure Ordinary (t : Ty) : Prop where
  not_any : t ≠ any
  not_never : t ≠ never
  not_unknown : t ≠ unknown
  not_union : ∀ ts, t ≠ union ts

/-- A value of the first type may be one of the second: the second is the first itself or one of its
alternatives, through unions inside unions. -/
inductive MayBe : Ty → Ty → Prop where
  | self (t : Ty) : MayBe t t
  | member {t u : Ty} {us : List Ty} : u ∈ us → MayBe u t → MayBe (union us) t

theorem mayBe_union_iff {t : Ty} {us : List Ty} (ht : ∀ ts, t ≠ union ts) :
    MayBe (union us) t ↔ ∃ u ∈ us, MayBe u t := by
  constructor
  · intro h
    cases h with
    | self => exact absurd rfl (ht us)
    | member hu h => exact ⟨_, hu, h⟩
  · rintro ⟨u, hu, h⟩
    exact MayBe.member hu h

theorem eq_of_mayBe {t u : Ty} (h : MayBe u t) (hu : ∀ us, u ≠ union us) : u = t := by
  cases h with
  | self => rfl
  | member hmem h => exact absurd rfl (hu _)

/-- What holds of a union when it holds of its members, and of all other types, holds of all types.
-/
theorem unionInduction {motive : Ty → Prop}
    (union : ∀ ts, (∀ t ∈ ts, motive t) → motive (union ts))
    (other : ∀ t, (∀ ts, t ≠ .union ts) → motive t) (t : Ty) : motive t := by
  induction hn : t.height using Nat.strongRecOn generalizing t with
  | ind n ih =>
    cases t with
    | union ts =>
      apply union
      intro t ht
      exact ih t.height (hn ▸ height_lt_union ht) t rfl
    | _ => exact other _ (fun _ h => by cases h)

/-! ### Distinct members -/

theorem mem_foldl_insertNew_of_mem {ts seen : List Ty} {t : Ty} (h : t ∈ seen) :
    t ∈ ts.foldl insertNew seen := by
  induction ts generalizing seen with
  | nil => exact h
  | cons u us ih =>
    rw [List.foldl_cons]
    apply ih
    unfold insertNew
    split
    · exact h
    · exact List.mem_append_left _ h

/-- Of every type, the distinct ones have the type itself or one that is the same. -/
theorem exists_mem_foldl_insertNew {ts : List Ty} {t : Ty} (seen : List Ty) (h : t ∈ ts) :
    ∃ u ∈ ts.foldl insertNew seen, u = t ∨ u.same t = true := by
  induction ts generalizing seen with
  | nil => cases h
  | cons u us ih =>
    rw [List.foldl_cons]
    rcases List.mem_cons.mp h with rfl | h
    · by_cases hany : seen.any (same · t) = true
      · obtain ⟨u, hu, hsame⟩ := List.any_eq_true.mp hany
        rw [insertNew, if_pos hany]
        exact ⟨u, mem_foldl_insertNew_of_mem hu, Or.inr hsame⟩
      · rw [insertNew, if_neg hany]
        exact ⟨t, mem_foldl_insertNew_of_mem (List.mem_append_right _ (List.mem_singleton_self t)),
          Or.inl rfl⟩
    · exact ih _ h

/-- A test that does not tell types apart that are the same finds the same among the distinct ones.
-/
theorem any_distinct {p : Ty → Bool} (hp : ∀ t u, same t u = true → p t = p u) (ts : List Ty) :
    (distinct ts).any p = ts.any p := by
  rw [Bool.eq_iff_iff, List.any_eq_true, List.any_eq_true]
  constructor
  · rintro ⟨t, ht, hpt⟩
    exact ⟨t, mem_of_mem_distinct ht, hpt⟩
  · rintro ⟨t, ht, hpt⟩
    obtain ⟨u, hu, hut⟩ := exists_mem_foldl_insertNew [] ht
    rcases hut with rfl | hut
    · exact ⟨u, hu, hpt⟩
    · exact ⟨u, hu, (hp u t hut).trans hpt⟩

theorem all_distinct {p : Ty → Bool} (hp : ∀ t u, same t u = true → p t = p u) (ts : List Ty) :
    (distinct ts).all p = ts.all p := by
  rw [List.all_eq_not_any_not, List.all_eq_not_any_not,
    any_distinct fun t u h => congrArg Bool.not (hp t u h)]

/-- A type that no other type is the same as is kept. -/
theorem mem_distinct_iff {t : Ty} (ht : ∀ u, same u t = true → u = t) {ts : List Ty} :
    t ∈ distinct ts ↔ t ∈ ts := by
  constructor
  · exact mem_of_mem_distinct
  · intro h
    obtain ⟨u, hu, rfl | hsame⟩ := exists_mem_foldl_insertNew [] h
    · exact hu
    · rw [ht u hsame] at hu
      exact hu

theorem eq_keyword_of_same {k : Keyword} (u : Ty) (h : same u (keyword k) = true) :
    u = keyword k := by
  cases u with
  | keyword j => exact congrArg keyword (beq_iff_eq.mp h)
  | _ => cases h

theorem eq_boolean_of_same {b : Bool} (u : Ty) (h : same u (boolean b) = true) :
    u = boolean b := by
  cases u with
  | boolean c => exact congrArg boolean (beq_iff_eq.mp h)
  | _ => cases h

/-- `undefined` is among the alternatives that an optional type has. -/
theorem undefined_mem_distinct (t : Ty) :
    undefined ∈ distinct ([t, undefined].flatMap members) := by
  rw [mem_distinct_iff eq_keyword_of_same]
  exact List.mem_flatMap.mpr ⟨undefined, by simp, List.mem_singleton_self _⟩

theorem mayBe_ofAlternatives {t : Ty} {ts : List Ty} (h : t ∈ ts) :
    (ofAlternatives ts).MayBe t := by
  match ts with
  | [] => cases h
  | [u] =>
    rw [List.mem_singleton.mp h]
    exact .self u
  | _ :: _ :: _ => exact .member h (.self t)

/-- A value of an optional type may be `undefined`. -/
theorem mayBe_undefined_optional (t : Ty) : (t.optional true).MayBe undefined :=
  mayBe_ofAlternatives t.undefined_mem_distinct

/-- An optional type is `undefined` alone or a union. -/
theorem optional_true_cases (t : Ty) :
    t.optional true = undefined ∨ ∃ ts, t.optional true = union ts := by
  have hmem := undefined_mem_distinct t
  show unionOf [t, undefined] = undefined ∨ ∃ ts, unionOf [t, undefined] = union ts
  unfold unionOf ofAlternatives
  split
  · rename_i heq
    rw [heq] at hmem
    cases hmem
  · rename_i u heq
    rw [heq] at hmem
    exact Or.inl (List.mem_singleton.mp hmem).symm
  · exact Or.inr ⟨_, rfl⟩

theorem optional_true_ne_keyword (t : Ty) {k : Keyword} (hk : k ≠ .undefined) :
    t.optional true ≠ keyword k := by
  intro h
  rcases t.optional_true_cases with heq | ⟨ts, heq⟩
  · exact hk (keyword.inj (h.symm.trans heq))
  · cases h.symm.trans heq

end Ty

namespace Assign

variable {options : Options}

/-! ### Reading one level -/

theorem allOf_ok {α : Type} (p : α → Bool) (xs : List α) :
    allOf (fun x => .ok (p x)) xs = .ok (xs.all p) := by
  induction xs with
  | nil => rfl
  | cons x xs ih =>
    rw [allOf, ih, List.all_cons]
    cases p x <;> rfl

theorem anyOf_ok {α : Type} (p : α → Bool) (xs : List α) :
    anyOf (fun x => .ok (p x)) xs = .ok (xs.any p) := by
  induction xs with
  | nil => rfl
  | cons x xs ih =>
    rw [anyOf, ih, List.any_cons]
    cases p x <;> rfl

/-- The relation is read off one level of it. -/
theorem relates_of_step {s t : Ty} {answer : Bool}
    (h : step options (fun a b => .ok (relates options a b)) s t = .ok answer) :
    relates options s t = answer := by
  rw [step_relates] at h
  exact Except.ok.inj h

theorem relates_any_target (s : Ty) : relates options s .any = true :=
  relates_of_step rfl

theorem relates_unknown_target (s : Ty) : relates options s .unknown = true :=
  relates_of_step rfl

theorem relates_never_source (t : Ty) : relates options .never t = true := by
  apply relates_of_step
  cases t with
  | keyword k => cases k <;> rfl
  | _ => rfl

theorem relates_any_source {t : Ty} (ht : t ≠ .never) : relates options .any t = true := by
  apply relates_of_step
  cases t with
  | keyword k =>
    cases k with
    | never => exact absurd rfl ht
    | _ => rfl
  | _ => rfl

theorem relates_unknown_source {t : Ty} :
    relates options .unknown t = true ↔ t = .any ∨ t = .unknown := by
  constructor
  · intro h
    have hstep := step_relates options .unknown t
    rw [h] at hstep
    cases t with
    | keyword k =>
      cases k with
      | any => exact Or.inl rfl
      | unknown => exact Or.inr rfl
      | _ => cases hstep
    | _ => cases hstep
  · rintro (rfl | rfl)
    · exact relates_any_target _
    · exact relates_unknown_target _

theorem relates_unknown_optional (t : Ty) : relates options .unknown (t.optional true) = false := by
  rw [Bool.eq_false_iff]
  intro h
  rcases relates_unknown_source.mp h with h | h
  · exact t.optional_true_ne_keyword (by decide) h
  · exact t.optional_true_ne_keyword (by decide) h

/-! ### The two laws -/

/-- **A union is related exactly if all its members are.** -/
theorem relates_union_source (ss : List Ty) (t : Ty) :
    relates options (.union ss) t = ss.all (relates options · t) := by
  have hstep : t ≠ .any → t ≠ .unknown →
      relates options (.union ss) t = ss.all (relates options · t) := by
    intro hany hunknown
    apply relates_of_step
    simp only [step]
    exact allOf_ok _ ss
  by_cases hany : t = .any
  · subst hany
    rw [relates_any_target]
    exact (List.all_eq_true.mpr fun s _ => relates_any_target s).symm
  · by_cases hunknown : t = .unknown
    · subst hunknown
      rw [relates_unknown_target]
      exact (List.all_eq_true.mpr fun s _ => relates_unknown_target s).symm
    · exact hstep hany hunknown

theorem relates_eq_all_members (s t : Ty) :
    relates options s t = s.members.all (relates options · t) := by
  cases s with
  | union ss => exact relates_union_source ss t
  | _ => exact (Bool.and_true _).symm

/-- Alternatives are related if all of them are; there may be none or a single one. -/
theorem relates_ofAlternatives_source (ss : List Ty) (t : Ty) :
    relates options (.ofAlternatives ss) t = ss.all (relates options · t) := by
  match ss with
  | [] => exact relates_never_source t
  | [s] => exact (Bool.and_true _).symm
  | s :: u :: ss => exact relates_union_source _ t

theorem step_union_target {s : Ty} (hs : s.Ordinary) (f : Ty → Ty → Verdict) (ts : List Ty) :
    step options f s (.union ts) = if coversBoolean s ts then .ok true else anyOf (f s) ts := by
  have hany := hs.not_any
  have hnever := hs.not_never
  have hunknown := hs.not_unknown
  have hunion := hs.not_union
  simp only [step]

theorem relates_union_target {s : Ty} (hs : s.Ordinary) (ts : List Ty) :
    relates options s (.union ts) = (coversBoolean s ts || ts.any (relates options s)) := by
  apply relates_of_step
  rw [step_union_target hs]
  split
  · rename_i hcovers
    rw [hcovers, Bool.true_or]
  · rename_i hcovers
    rw [Bool.eq_false_iff.mpr hcovers, Bool.false_or]
    exact anyOf_ok _ ts

/-- **A union takes what one of its members takes**, if `unknown` is no alternative of the
source. -/
theorem relates_union_of_mem {s t : Ty} {ts : List Ty} (ht : t ∈ ts) (hs : ¬ s.MayBe .unknown)
    (h : relates options s t = true) : relates options s (.union ts) = true := by
  induction s using Ty.unionInduction with
  | union ss ih =>
    rw [relates_union_source, List.all_eq_true] at h ⊢
    intro s hmem
    exact ih s hmem (fun hmay => hs (.member hmem hmay)) (h s hmem)
  | other s hunion =>
    by_cases hany : s = .any
    · subst hany
      exact relates_any_source Ty.noConfusion
    by_cases hnever : s = .never
    · subst hnever
      exact relates_never_source _
    · have hunknown : s ≠ .unknown := fun heq => hs (heq ▸ .self _)
      rw [relates_union_target ⟨hany, hnever, hunknown, hunion⟩, Bool.or_eq_true]
      exact Or.inr (List.any_eq_true.mpr ⟨t, ht, h⟩)

/-- Only `boolean` is covered by its two literals. -/
theorem coversBoolean_eq_false {s : Ty} (hs : s ≠ .keyword .boolean) (ts : List Ty) :
    coversBoolean s ts = false := by
  rw [Bool.eq_false_iff]
  intro h
  exact hs (coversBoolean_iff.mp h).1

/-- One type does not cover `boolean`. -/
theorem coversBoolean_singleton (s t : Ty) : coversBoolean s [t] = false := by
  rw [Bool.eq_false_iff]
  intro h
  obtain ⟨-, htrue, hfalse⟩ := coversBoolean_iff.mp h
  rw [List.mem_singleton] at htrue hfalse
  rw [← hfalse] at htrue
  cases htrue

theorem relates_singleton (s t : Ty) :
    relates options s t = (coversBoolean s [t] || [t].any (relates options s)) := by
  rw [coversBoolean_singleton, List.any_cons, List.any_nil, Bool.or_false, Bool.false_or]

/-- **A type takes a source exactly if one of its members does**, or if it covers `boolean`. -/
theorem relates_eq_members {s : Ty} (hs : s.Ordinary) (t : Ty) :
    relates options s t = (coversBoolean s t.members || t.members.any (relates options s)) := by
  cases t with
  | union ts => exact relates_union_target hs ts
  | _ => exact relates_singleton s _

theorem relates_ofAlternatives {s : Ty} (hs : s.Ordinary) {ts : List Ty} (hts : ts ≠ []) :
    relates options s (.ofAlternatives ts)
      = (coversBoolean s ts || ts.any (relates options s)) := by
  match ts with
  | [] => exact absurd rfl hts
  | [t] => exact relates_singleton s t
  | t :: u :: ts => exact relates_union_target hs _

/-- Dropping members that are the same as others does not uncover `boolean`. -/
theorem coversBoolean_distinct (s : Ty) (ts : List Ty) :
    coversBoolean s (Ty.distinct ts) = coversBoolean s ts := by
  rw [Bool.eq_iff_iff, coversBoolean_iff, coversBoolean_iff,
    Ty.mem_distinct_iff Ty.eq_boolean_of_same, Ty.mem_distinct_iff Ty.eq_boolean_of_same]

/-- **An optional type takes what the type takes and what `undefined` takes**, if the source is
ordinary. -/
theorem relates_optional {s : Ty} (hs : s.Ordinary) (t : Ty) :
    relates options s (t.optional true)
      = (relates options s t || relates options s .undefined) := by
  have hne : Ty.distinct ([t, .undefined].flatMap Ty.members) ≠ [] :=
    List.ne_nil_of_mem t.undefined_mem_distinct
  have hflat : [t, .undefined].flatMap Ty.members = t.members ++ [.undefined] := by
    rw [List.flatMap_cons, List.flatMap_singleton]
    rfl
  have hcovers : coversBoolean s (t.members ++ [.undefined]) = coversBoolean s t.members := by
    rw [Bool.eq_iff_iff, coversBoolean_iff, coversBoolean_iff]
    simp
  show relates options s (Ty.ofAlternatives _) = _
  rw [relates_ofAlternatives hs hne, coversBoolean_distinct,
    Ty.any_distinct (fun _ _ h => relates_eq_of_same h), hflat, hcovers, List.any_append,
    List.any_cons, List.any_nil, Bool.or_false, ← Bool.or_assoc, ← relates_eq_members hs t]

end Assign

end PropCheck
