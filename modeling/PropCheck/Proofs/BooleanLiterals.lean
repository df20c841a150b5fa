import PropCheck.Proofs.NormalForm
import PropCheck.Proofs.Intersections

/-!
# `boolean` and its two literals

`boolean` is the union of the literals `true` and `false`, although it is a keyword of its own.  As
the source it is asked about as a whole, while the union of its literals is asked about one literal
at a time; as the target it takes either literal, while the union must have one of them.  The rule
that a union with both literals covers `boolean` makes the difference disappear.

* `Ty.Truth`: `boolean` and its literals.
* `Assign.related_truth`: one level decides a type of truth values against a target that is neither
  a union nor an intersection, and two levels decide it against a union of such targets.  So there
  is no limit on the height of the target.
* `Assign.relates_boolean_source`: `boolean` is related exactly if both its literals are.
* `Assign.relates_boolean_target`: a source without intersections is related to `boolean` exactly if
  it is related to the union of its literals.
* `Assign.boolean_eq_true_or_false`: the same for assignability.
-/

namespace PropCheck

namespace Ty

/-- The type is `boolean` or one of its literals. -/
inductive Truth : Ty → Prop where
  | whole : Truth (keyword .boolean)
  | literal (b : Bool) : Truth (boolean b)

theorem Truth.ordinary {s : Ty} (h : s.Truth) : s.Ordinary := by
  cases h with
  | whole => constructor <;> simp
  | literal b => constructor <;> simp

/-- The union of the two literals of `boolean`. -/
abbrev literals : Ty :=
  union [boolean true, boolean false]

/-- No member of the type is a union or an intersection; the type itself is its only member unless
it is a union. -/
def Shallow (t : Ty) : Prop :=
  ∀ m ∈ t.members, (∀ us, m ≠ union us) ∧ ∀ us, m ≠ intersection us

/-- A union in normal form without intersections among its members is shallow. -/
theorem NormalHere.shallow {t : Ty} (hnormal : t.NormalHere)
    (hinter : ∀ us, ¬ t.MayBe (intersection us)) : t.Shallow := by
  have hself : ∀ us, t ≠ intersection us := fun us heq => hinter us (heq ▸ .self t)
  intro m hm
  cases t with
  | union ts =>
    refine ⟨hnormal.2.1 m hm, fun us heq => hinter us (.member hm ?_)⟩
    rw [heq]
    exact .self _
  | _ =>
    rw [List.mem_singleton.mp hm]
    exact ⟨fun _ => Ty.noConfusion, hself⟩

end Ty

namespace Assign

variable {options : Options}

/-! ### How soon a type of truth values is decided -/

section Levels

variable {s t : Ty}

/-- A type of truth values has no parts to ask about. -/
theorem step_truth_eq (hs : s.Truth) (hunion : ∀ us, t ≠ .union us)
    (hinter : ∀ us, t ≠ .intersection us) (f g : Ty → Ty → Verdict) :
    step options f s t = step options g s t := by
  cases t with
  | union ts => exact absurd rfl (hunion ts)
  | intersection ts => exact absurd rfl (hinter ts)
  | keyword k => cases hs <;> cases k <;> rfl
  | _ => cases hs <;> rfl

theorem related_truth (hs : s.Truth) (hunion : ∀ us, t ≠ .union us)
    (hinter : ∀ us, t ≠ .intersection us) (levels : Nat) :
    related options (levels + 1) s t = .ok (relates options s t) := by
  rw [related, ← step_relates]
  exact step_truth_eq hs hunion hinter _ _

theorem related_truth_shallow (hs : s.Truth) (ht : t.Shallow) (levels : Nat) :
    related options (levels + 2) s t = .ok (relates options s t) := by
  cases t with
  | union ts =>
    have hmembers : anyOf (related options (levels + 1) s) ts
        = anyOf (fun m => .ok (relates options s m)) ts :=
      (compatible_eq.levelwise options).anyOf fun m hm =>
        related_truth hs (ht m hm).1 (ht m hm).2 levels
    rw [related, ← step_relates, step_union_target hs.ordinary, step_union_target hs.ordinary,
      hmembers]
  | _ =>
    have hself := ht _ (List.mem_singleton_self _)
    exact related_truth hs hself.1 hself.2 (levels + 1)

theorem assignable_of_truth (hs : s.Truth) (ht : t.Shallow) :
    assignable options t s = relates options s t := by
  have hok : related options maxLevels s t = .ok (relates options s t) :=
    related_truth_shallow hs ht 63
  rw [assignable, hok]

theorem assignable_of_literals (ht : t.Shallow) :
    assignable options t .literals = relates options .literals t := by
  have hok : related options maxLevels .literals t = .ok (relates options .literals t) := by
    by_cases hany : t = .any
    · rw [hany, relates_any_target]
      rfl
    by_cases hunknown : t = .unknown
    · rw [hunknown, relates_unknown_target]
      rfl
    · have hliteral : ∀ m ∈ [Ty.boolean true, .boolean false],
          related options 64 m t = .ok (relates options m t) := by
        intro m hm
        have htruth : m.Truth := by
          rcases List.mem_cons.mp hm with rfl | hm
          · exact .literal true
          · rw [List.mem_singleton.mp hm]
            exact .literal false
        exact related_truth_shallow htruth ht 62
      show step options (related options 64) .literals t = _
      simp only [step]
      rw [(compatible_eq.levelwise options).allOf hliteral, allOf_ok, relates_union_source]
  rw [assignable, hok]

end Levels

/-! ### The two directions -/

/-- A target that is no literal itself does not tell `boolean` from its literals. -/
theorem relates_literal_eq {t : Ty} (hunion : ∀ us, t ≠ .union us)
    (hinter : ∀ us, t ≠ .intersection us) (hliteral : ∀ c, t ≠ .boolean c) (b : Bool) :
    relates options (.boolean b) t = relates options (.keyword .boolean) t := by
  apply Except.ok.inj
  rw [← step_relates, ← step_relates]
  cases t with
  | union ts => exact absurd rfl (hunion ts)
  | intersection ts => exact absurd rfl (hinter ts)
  | boolean c => exact absurd rfl (hliteral c)
  | keyword k => cases k <;> rfl
  | _ => rfl

theorem relates_literals (b c : Bool) : relates options (.boolean b) (.boolean c) = (b == c) :=
  relates_of_step rfl

theorem relates_boolean_literal (c : Bool) :
    relates options (.keyword .boolean) (.boolean c) = false :=
  relates_of_step rfl

/-- A literal is related to a shallow target through the same literal, or through a member that
takes all of `boolean`. -/
theorem relates_literal_iff {t : Ty} (ht : t.Shallow) (b : Bool) :
    relates options (.boolean b) t = true
      ↔ .boolean b ∈ t.members ∨ ∃ m ∈ t.members, relates options (.keyword .boolean) m = true := by
  rw [relates_eq_members (Ty.Truth.literal b).ordinary, coversBoolean_eq_false Ty.noConfusion,
    Bool.false_or, List.any_eq_true]
  constructor
  · rintro ⟨m, hm, h⟩
    by_cases hliteral : ∃ c, m = .boolean c
    · obtain ⟨c, rfl⟩ := hliteral
      rw [relates_literals, beq_iff_eq] at h
      exact Or.inl (h ▸ hm)
    · rw [relates_literal_eq (ht m hm).1 (ht m hm).2 fun c heq => hliteral ⟨c, heq⟩] at h
      exact Or.inr ⟨m, hm, h⟩
  · rintro (hm | ⟨m, hm, h⟩)
    · exact ⟨.boolean b, hm, by rw [relates_literals, beq_self_eq_true]⟩
    · refine ⟨m, hm, ?_⟩
      rw [relates_literal_eq (ht m hm).1 (ht m hm).2, h]
      rintro c rfl
      rw [relates_boolean_literal] at h
      cases h

/-- **`boolean` is related exactly if both its literals are**, to a shallow target.  Where both
literals are related through themselves, the target covers `boolean`; otherwise one of them is
related through a member that takes all of it. -/
theorem relates_boolean_source {t : Ty} (ht : t.Shallow) :
    relates options (.keyword .boolean) t = relates options .literals t := by
  have hliterals : relates options .literals t = true
      ↔ relates options (.boolean true) t = true ∧ relates options (.boolean false) t = true := by
    rw [relates_union_source, List.all_eq_true, List.forall_mem_cons, List.forall_mem_singleton]
  rw [Bool.eq_iff_iff, hliterals, relates_literal_iff ht, relates_literal_iff ht,
    relates_eq_members Ty.Truth.whole.ordinary, Bool.or_eq_true, coversBoolean_iff,
    List.any_eq_true]
  constructor
  · rintro (⟨-, htrue, hfalse⟩ | hwhole)
    · exact ⟨Or.inl htrue, Or.inl hfalse⟩
    · exact ⟨Or.inr hwhole, Or.inr hwhole⟩
  · rintro ⟨htrue | hwhole, hfalse | hwhole'⟩
    · exact Or.inl ⟨rfl, htrue, hfalse⟩
    · exact Or.inr hwhole'
    · exact Or.inr hwhole
    · exact Or.inr hwhole

/-- A source that is no type of truth values does not tell `boolean` from its literals. -/
theorem relates_target_literal_eq {s : Ty} (hs : ¬ s.Truth) (hunion : ∀ us, s ≠ .union us)
    (hinter : ∀ us, s ≠ .intersection us) (c : Bool) :
    relates options s (.boolean c) = relates options s (.keyword .boolean) := by
  apply Except.ok.inj
  rw [← step_relates, ← step_relates]
  cases s with
  | union ss => exact absurd rfl (hunion ss)
  | intersection ss => exact absurd rfl (hinter ss)
  | boolean b => exact absurd (.literal b) hs
  | keyword k =>
    cases k with
    | boolean => exact absurd .whole hs
    | _ => rfl
  | _ => rfl

/-- **A source is related to `boolean` exactly if it is related to the union of its literals**, if
no alternative of the source is an intersection. -/
theorem relates_boolean_target {s : Ty} (hinter : ∀ us, ¬ s.MayBe (.intersection us)) :
    relates options s (.keyword .boolean) = relates options s .literals := by
  induction s using Ty.unionInduction with
  | union ss ih =>
    rw [relates_union_source, relates_union_source, Bool.eq_iff_iff, List.all_eq_true,
      List.all_eq_true]
    refine forall₂_congr fun s hs => ?_
    rw [ih s hs fun us hmay => hinter us (.member hs hmay)]
  | other s hunion =>
    have hself : ∀ us, s ≠ .intersection us := fun us heq => hinter us (heq ▸ .self s)
    by_cases htruth : s.Truth
    · cases htruth with
      | whole =>
        have hsource : relates options (.keyword .boolean) (.keyword .boolean) = true :=
          relates_of_step rfl
        rw [hsource, relates_union_target Ty.Truth.whole.ordinary]
        rfl
      | literal b =>
        have hsource : relates options (.boolean b) (.keyword .boolean) = true :=
          relates_of_step rfl
        rw [hsource, relates_union_target (Ty.Truth.literal b).ordinary]
        simp only [List.any_cons, List.any_nil, relates_literals]
        cases b <;> rfl
    · by_cases hany : s = .any
      · rw [hany, relates_any_source (by simp), relates_any_source (by simp)]
      by_cases hnever : s = .never
      · rw [hnever, relates_never_source, relates_never_source]
      by_cases hunknown : s = .unknown
      · subst hunknown
        rw [Bool.eq_iff_iff, relates_unknown_source, relates_unknown_source]
        simp
      · have hboolean : s ≠ .keyword .boolean := fun heq => htruth (heq ▸ .whole)
        rw [relates_union_target ⟨hany, hnever, hunknown, hunion⟩, coversBoolean_eq_false hboolean]
        simp only [List.any_cons, List.any_nil, relates_target_literal_eq htruth hunion hself,
          Bool.or_false, Bool.or_self, Bool.false_or]

/-- **`boolean` is `true | false`.**  As the source, the two are assignable to the same targets in
normal form that are no intersection and have none among their members, however high these are.  As
the target, they take the same sources that have no intersection among their alternatives, within
the limit. -/
theorem boolean_eq_true_or_false (options : Options) :
    (∀ t : Ty, t.NormalHere → (∀ us, ¬ t.MayBe (.intersection us)) →
      (assignable options t (.keyword .boolean) = true
        ↔ assignable options t (.union [.boolean true, .boolean false]) = true)) ∧
    ∀ s : Ty, (∀ us, ¬ s.MayBe (.intersection us)) →
      s.height + (Ty.union [.boolean true, .boolean false]).height ≤ 66 →
      (assignable options (.keyword .boolean) s = true
        ↔ assignable options (.union [.boolean true, .boolean false]) s = true) := by
  constructor
  · intro t hnormal hinter
    have hshallow := hnormal.shallow hinter
    rw [assignable_of_truth .whole hshallow, relates_boolean_source hshallow,
      assignable_of_literals hshallow]
  · intro s hinter hheight
    have hliterals : (Ty.union [.boolean true, .boolean false]).height = 2 := rfl
    have hboolean : (Ty.keyword .boolean).height = 1 := rfl
    rw [assignable_eq_relates (by omega), assignable_eq_relates (by omega),
      relates_boolean_target hinter]

/-- A target with one literal and an object whose properties may all be left out, which takes the
other literal and `boolean` as a whole; and a source with a literal inside two unions. -/
theorem boolean_eq_true_or_false_settings :
    let settings : Ty := .object none [⟨"theme", .keyword .string, true⟩]
    let t : Ty := .union [.keyword .string, .boolean true, settings]
    let s : Ty := .union [.boolean true, .union [.never, .boolean false]]
    (t.NormalHere ∧ assignable .strictest t (.keyword .boolean) = true ∧
      assignable .strictest t (.union [.boolean true, .boolean false]) = true) ∧
    assignable .strictest (.keyword .boolean) s = true ∧
      assignable .strictest (.union [.boolean true, .boolean false]) s = true := by
  intro settings t s
  obtain ⟨htarget, hsource⟩ := boolean_eq_true_or_false .strictest
  have hnormal : t.NormalHere := by
    refine ⟨by decide, ?_, by simp [settings, Ty.same]⟩
    simp [settings]
  have ht : ∀ us, ¬ t.MayBe (.intersection us) := by
    intro us h
    obtain ⟨m, hm, h⟩ := (Ty.mayBe_union_iff fun _ => Ty.noConfusion).mp h
    simp only [settings, List.mem_cons, List.not_mem_nil, or_false] at hm
    rcases hm with rfl | rfl | rfl <;> cases h
  have hs : ∀ us, ¬ s.MayBe (.intersection us) := by
    intro us h
    obtain ⟨m, hm, h⟩ := (Ty.mayBe_union_iff fun _ => Ty.noConfusion).mp h
    simp only [List.mem_cons, List.not_mem_nil, or_false] at hm
    rcases hm with rfl | rfl
    · cases h
    · obtain ⟨m, hm, h⟩ := (Ty.mayBe_union_iff fun _ => Ty.noConfusion).mp h
      simp only [List.mem_cons, List.not_mem_nil, or_false] at hm
      rcases hm with rfl | rfl <;> cases h
  have htrue : assignable .strictest t (.keyword .boolean) = true := by decide
  have htrue' : assignable .strictest (.keyword .boolean) s = true := by decide
  exact ⟨⟨hnormal, htrue, (htarget t hnormal ht).mp htrue⟩, htrue',
    (hsource s hs (by decide)).mp htrue'⟩

end Assign

end PropCheck
