import PropCheck.Assignability.Explanation
import PropCheck.Proofs.NullSafety
import PropCheck.Proofs.Objects

/-!
# What explanations say

The explanation asks about each property on its own, from the top, while the relation asks about it
one level down.  So the explanation has one level more, and the relation may give up where the
explanation does not.  It cannot be the other way round: what is answered within some levels is
answered the same within more.

Within the limit, the relation refuses three kinds of properties, and the explanation sees two of
them.  The third is a property that the target requires and the source may leave out, where the
types are related all the same.

* `Assign.keeps_related_succ`: one more level keeps every answer.
* `Assign.Missing`, `Assign.Clashes`: the two ways in which a property of the target is not
  satisfied.
* `Assign.propertyReason?_eq_some_iff`, `Assign.reason?_eq_some_iff`, `Assign.explain?_eq_some_iff`:
  the reason is that of the first property that is not satisfied, and so is its wording.
* `Assign.not_assignable_of_unsatisfied`: a property that is not satisfied keeps the object from
  being assignable, at any depth.
* `Assign.explanations_sound`: every explanation is about an object that is not assignable and
  names the first property that is not satisfied.
* `Assign.Lapses`: a required property that the source may leave out.
* `Assign.not_assignable_iff`: within the limit, an object is refused for a property that is not
  satisfied or lapses, and for nothing else.
* `Assign.explanations_complete_iff`: every refused object is explained, unless all that it is
  refused for are lapses.
* `Assign.lapse_not_explained`: there are such objects.
-/

namespace PropCheck.Assign

variable {options : Options}

/-! ### One more level -/

theorem keeps_related_succ (levels : Nat) (source target : Ty) :
    Keeps (related options levels source target) (related options (levels + 1) source target) := by
  induction levels generalizing source target with
  | zero =>
    intro answer h
    cases h
  | succ levels ih =>
    show Keeps (step options (related options levels) source target)
      (step options (related options (levels + 1)) source target)
    exact compatible_keeps.step fun s t _ => ih s t

theorem eq_true_of_allOf {α : Type} {ask : α → Verdict} {xs : List α}
    (h : allOf ask xs = .ok true) : ∀ x ∈ xs, ask x = .ok true := by
  induction xs with
  | nil =>
    intro x hx
    cases hx
  | cons x xs ih =>
    rw [allOf] at h
    cases hx : ask x with
    | error fault =>
      rw [hx] at h
      cases h
    | ok answer =>
      rw [hx] at h
      cases answer with
      | false => cases h
      | true =>
        intro y hy
        rcases List.mem_cons.mp hy with rfl | hy
        · exact hx
        · exact ih h y hy

theorem assignable_eq_true_iff {source target : Ty} :
    assignable options target source = true
      ↔ related options maxLevels source target = .ok true := by
  unfold assignable
  cases related options maxLevels source target with
  | error fault =>
    cases fault
    exact iff_of_false Bool.false_ne_true (fun h => by cases h)
  | ok answer => exact ⟨congrArg Except.ok, Except.ok.inj⟩

/-! ### Properties that are not satisfied -/

/-- The target requires a property that the source does not have. -/
def Missing (source : List (Slot Ty)) (target : Slot Ty) : Prop :=
  target.optional = false ∧ Slot.find? source target.name = none

/-- The source has a property of the name, and what the first one is declared with is not assignable
to what the target's is. -/
def Clashes (options : Options) (source : List (Slot Ty)) (target : Slot Ty) : Prop :=
  ∃ p, Slot.find? source target.name = some p ∧
    assignable options target.declared p.declared = false

section

variable {ps : List (Slot Ty)} {q : Slot Ty}

theorem propertyReason?_of_missing (h : Missing ps q) :
    propertyReason? options ps q = some (.missing q.name) := by
  unfold propertyReason?
  rw [h.2, h.1]
  rfl

theorem propertyReason?_of_clashes (h : Clashes options ps q) :
    propertyReason? options ps q = some (.incompatible q.name) := by
  obtain ⟨p, hfind, hclash⟩ := h
  unfold propertyReason?
  simp only [hfind]
  split
  · rename_i hrelated
    rw [assignable_eq_true_iff.mpr hrelated] at hclash
    cases hclash
  · rfl

theorem propertyReason?_eq_none (hmissing : ¬ Missing ps q) (hclashes : ¬ Clashes options ps q) :
    propertyReason? options ps q = none := by
  unfold propertyReason?
  split
  · rename_i habsent
    cases hoptional : q.optional with
    | false => exact absurd ⟨hoptional, habsent⟩ hmissing
    | true => rfl
  · rename_i p hfind
    split
    · rfl
    · rename_i hrelated
      have hclash : assignable options q.declared p.declared = false :=
        Bool.eq_false_iff.mpr fun h => hrelated (assignable_eq_true_iff.mp h)
      exact absurd ⟨p, hfind, hclash⟩ hclashes

/-- A property is a reason exactly if it is not satisfied. -/
theorem propertyReason?_eq_some_iff {reason : Reason} :
    propertyReason? options ps q = some reason
      ↔ Missing ps q ∧ reason = .missing q.name
        ∨ Clashes options ps q ∧ reason = .incompatible q.name := by
  constructor
  · intro h
    by_cases hmissing : Missing ps q
    · rw [propertyReason?_of_missing hmissing] at h
      exact Or.inl ⟨hmissing, (Option.some.inj h).symm⟩
    by_cases hclashes : Clashes options ps q
    · rw [propertyReason?_of_clashes hclashes] at h
      exact Or.inr ⟨hclashes, (Option.some.inj h).symm⟩
    · rw [propertyReason?_eq_none hmissing hclashes] at h
      cases h
  · rintro (⟨hmissing, rfl⟩ | ⟨hclashes, rfl⟩)
    · exact propertyReason?_of_missing hmissing
    · exact propertyReason?_of_clashes hclashes

theorem propertyReason?_eq_none_iff :
    propertyReason? options ps q = none ↔ ¬ Missing ps q ∧ ¬ Clashes options ps q := by
  refine ⟨fun h => ⟨fun hmissing => ?_, fun hclashes => ?_⟩, fun h =>
    propertyReason?_eq_none h.1 h.2⟩
  · rw [propertyReason?_of_missing hmissing] at h
    cases h
  · rw [propertyReason?_of_clashes hclashes] at h
    cases h

end

/-- **The reason is that of the first property that is not satisfied.** -/
theorem reason?_eq_some_iff {a b : Option String} {ps qs : List (Slot Ty)} {reason : Reason} :
    reason? options (.object b qs) (.object a ps) = some reason
      ↔ ∃ before q after, qs = before ++ q :: after ∧
        (∀ p ∈ before, ¬ Missing ps p ∧ ¬ Clashes options ps p) ∧
        (Missing ps q ∧ reason = .missing q.name
          ∨ Clashes options ps q ∧ reason = .incompatible q.name) := by
  show qs.findSome? (propertyReason? options ps) = some reason ↔ _
  rw [List.findSome?_eq_some_iff]
  simp only [propertyReason?_eq_some_iff, propertyReason?_eq_none_iff]
  constructor
  · rintro ⟨before, q, after, hqs, hq, hbefore⟩
    exact ⟨before, q, after, hqs, hbefore, hq⟩
  · rintro ⟨before, q, after, hqs, hbefore, hq⟩
    exact ⟨before, q, after, hqs, hq, hbefore⟩

theorem explain?_eq_some_iff {a b : Option String} {ps qs : List (Slot Ty)} {text : String} :
    explain? options (.object b qs) (.object a ps) = some text
      ↔ ∃ before q after, qs = before ++ q :: after ∧
        (∀ p ∈ before, ¬ Missing ps p ∧ ¬ Clashes options ps p) ∧
        (Missing ps q ∧ text = (Reason.missing q.name).text (.object b qs) (.object a ps)
          ∨ Clashes options ps q
            ∧ text = (Reason.incompatible q.name).text (.object b qs) (.object a ps)) := by
  unfold explain?
  rw [Option.map_eq_some_iff]
  simp only [reason?_eq_some_iff]
  constructor
  · rintro ⟨reason, ⟨before, q, after, hqs, hbefore, ⟨hq, rfl⟩ | ⟨hq, rfl⟩⟩, rfl⟩
    · exact ⟨before, q, after, hqs, hbefore, Or.inl ⟨hq, rfl⟩⟩
    · exact ⟨before, q, after, hqs, hbefore, Or.inr ⟨hq, rfl⟩⟩
  · rintro ⟨before, q, after, hqs, hbefore, ⟨hq, rfl⟩ | ⟨hq, rfl⟩⟩
    · exact ⟨_, ⟨before, q, after, hqs, hbefore, Or.inl ⟨hq, rfl⟩⟩, rfl⟩
    · exact ⟨_, ⟨before, q, after, hqs, hbefore, Or.inr ⟨hq, rfl⟩⟩, rfl⟩

/-- **A property that is not satisfied keeps the object from being assignable.**  The relation asks
about it with one level less than the explanation, so a yes of the relation would be one of the
explanation. -/
theorem not_assignable_of_unsatisfied {a b : Option String} {ps qs : List (Slot Ty)} {q : Slot Ty}
    (hq : q ∈ qs) (h : Missing ps q ∨ Clashes options ps q) :
    assignable options (.object b qs) (.object a ps) = false := by
  rw [Bool.eq_false_iff]
  intro hassignable
  rw [assignable_eq_true_iff] at hassignable
  have hall : allOf (propertyRelated (related options 64) ps) qs = .ok true := hassignable
  have hproperty := eq_true_of_allOf hall q hq
  unfold propertyRelated at hproperty
  rcases h with ⟨hrequired, habsent⟩ | ⟨p, hfind, hclash⟩
  · rw [habsent, hrequired] at hproperty
    cases hproperty
  · simp only [hfind] at hproperty
    split at hproperty
    · cases hproperty
    · have hmore : related options maxLevels p.declared q.declared = .ok true :=
        keeps_related_succ 64 p.declared q.declared true hproperty
      rw [assignable_eq_true_iff.mpr hmore] at hclash
      cases hclash

/-- **Explanations are sound.**  For two object types, an explanation is given exactly if some
property of the target is not satisfied.  It then says of the first such property that it is missing
in the source but required, or that its types are incompatible; and whenever there is an
explanation, the source is not assignable to the target, however deep the types are. -/
theorem explanations_sound (options : Options) (a b : Option String) (ps qs : List (Slot Ty))
    (text : String) :
    (explain? options (.object b qs) (.object a ps) = some text
      ↔ ∃ before q after, qs = before ++ q :: after ∧
        (∀ p ∈ before, ¬ Missing ps p ∧ ¬ Clashes options ps p) ∧
        (Missing ps q ∧
            text = "Property '" ++ q.name ++ "' is missing in type '" ++ (Ty.object a ps).text
              ++ "' but required in type '" ++ (Ty.object b qs).text ++ "'."
          ∨ Clashes options ps q ∧
            text = "Types of property '" ++ q.name ++ "' are incompatible.")) ∧
    (explain? options (.object b qs) (.object a ps) = some text →
      assignable options (.object b qs) (.object a ps) = false) := by
  refine ⟨explain?_eq_some_iff, fun h => ?_⟩
  obtain ⟨before, q, after, hqs, -, hq⟩ := explain?_eq_some_iff.mp h
  have hmem : q ∈ qs := hqs ▸ List.mem_append_right before List.mem_cons_self
  exact not_assignable_of_unsatisfied hmem (hq.imp And.left And.left)

/-- Arrays so deep that the relation gives up on the objects, while the explanation, with one level
more, gets to the keywords at the bottom. -/
theorem explanations_sound_deep :
    let nested (t : Ty) : Ty := (List.range 64).foldl (fun t _ => .array t) t
    let note : Slot Ty := ⟨"note", .keyword .string, true⟩
    let id : Slot Ty := ⟨"id", .keyword .string, false⟩
    let rows (t : Ty) : Slot Ty := ⟨"rows", nested t, false⟩
    let ps : List (Slot Ty) := [⟨"id", .string "a", false⟩, rows (.keyword .string)]
    let qs : List (Slot Ty) := [note, id, rows (.keyword .number)]
    related .strictest maxLevels (.object none ps) (.object none qs) = .error .tooDeep ∧
      explain? .strictest (.object none qs) (.object none ps)
        = some "Types of property 'rows' are incompatible." ∧
      assignable .strictest (.object none qs) (.object none ps) = false := by
  intro nested note id rows ps qs
  have hsound := explanations_sound .strictest none none ps qs
    "Types of property 'rows' are incompatible."
  have hclash : Clashes .strictest ps (rows (.keyword .number)) :=
    ⟨rows (.keyword .string), rfl, by decide +kernel⟩
  have hbefore : ∀ p ∈ [note, id], ¬ Missing ps p ∧ ¬ Clashes .strictest ps p := by
    rw [List.forall_mem_cons, List.forall_mem_singleton]
    constructor
    · constructor
      · rintro ⟨hrequired, -⟩
        cases hrequired
      · rintro ⟨p, hfind, -⟩
        cases hfind
    · constructor
      · rintro ⟨-, habsent⟩
        cases habsent
      · rintro ⟨p, hfind, hclash⟩
        cases hfind
        cases hclash
  have hexplain : explain? .strictest (.object none qs) (.object none ps)
      = some "Types of property 'rows' are incompatible." :=
    hsound.1.mpr ⟨[note, id], rows (.keyword .number), [], rfl, hbefore, Or.inr ⟨hclash, rfl⟩⟩
  exact ⟨rfl, hexplain, hsound.2 hexplain⟩

/-! ### Properties that may be left out -/

/-- The target requires a property that the source has but may leave out. -/
def Lapses (source : List (Slot Ty)) (target : Slot Ty) : Prop :=
  target.optional = false ∧ ∃ p, Slot.find? source target.name = some p ∧ p.optional = true

/-- There is an explanation exactly if some property of the target is not satisfied. -/
theorem explain?_isSome_iff {a b : Option String} {ps qs : List (Slot Ty)} :
    (explain? options (.object b qs) (.object a ps)).isSome = true
      ↔ ∃ q ∈ qs, Missing ps q ∨ Clashes options ps q := by
  have hproperty : ∀ q : Slot Ty, (propertyReason? options ps q).isSome = true
      ↔ Missing ps q ∨ Clashes options ps q := by
    intro q
    rw [Option.isSome_iff_ne_none, Ne, propertyReason?_eq_none_iff,
      Classical.not_and_iff_not_or_not, Classical.not_not, Classical.not_not]
  unfold explain?
  rw [Option.isSome_map]
  show (qs.findSome? (propertyReason? options ps)).isSome = true ↔ _
  rw [List.findSome?_isSome_iff]
  simp only [hproperty]

/-- Where the limit plays no role, a property clashes exactly if its declared types are not related.
-/
theorem clashes_iff {ps : List (Slot Ty)} {p q : Slot Ty}
    (hfind : Slot.find? ps q.name = some p) (h : p.declared.height + q.declared.height ≤ 66) :
    Clashes options ps q ↔ relates options p.declared q.declared = false := by
  unfold Clashes
  simp only [hfind, Option.some.injEq, exists_eq_left', assignable_eq_relates h]

/-- **There are three ways not to supply a property**: it is missing, it clashes, or it lapses. -/
theorem supplies_eq_false_iff {ps : List (Slot Ty)} {q : Slot Ty}
    (h : ∀ p ∈ ps, p.declared.height + q.declared.height ≤ 66) :
    supplies options ps q = false ↔ Missing ps q ∨ Clashes options ps q ∨ Lapses ps q := by
  cases hfind : Slot.find? ps q.name with
  | none => simp [supplies, Missing, Clashes, Lapses, hfind]
  | some p =>
    rw [clashes_iff hfind (h p (Slot.mem_of_find? hfind))]
    simp only [supplies, Missing, Lapses, hfind, Option.some.injEq, exists_eq_left', reduceCtorEq,
      and_false, false_or]
    cases p.optional <;> cases q.optional <;> simp

section Limit

variable {a b : Option String} {ps qs : List (Slot Ty)}

theorem declared_heights_le (h : (Ty.object a ps).height + (Ty.object b qs).height ≤ 66)
    {p q : Slot Ty} (hp : p ∈ ps) (hq : q ∈ qs) :
    p.declared.height + q.declared.height ≤ 66 := by
  have hps := Ty.height_declared_lt hp a
  have hqs := Ty.height_declared_lt hq b
  omega

/-- **Within the limit, every refusal is that of a single property**, which is missing, clashes or
lapses. -/
theorem not_assignable_iff (h : (Ty.object a ps).height + (Ty.object b qs).height ≤ 66) :
    assignable options (.object b qs) (.object a ps) = false
      ↔ ∃ q ∈ qs, Missing ps q ∨ Clashes options ps q ∨ Lapses ps q := by
  rw [assignable_eq_relates h, relates_objects, List.all_eq_false]
  refine exists_congr fun q => and_congr_right fun hq => ?_
  rw [Bool.not_eq_true]
  exact supplies_eq_false_iff fun p hp => declared_heights_le h hp hq

end Limit

/-- Under null checks a lapse shows in the types, unless the target's type admits `undefined`. -/
theorem clashes_of_lapses {ps : List (Slot Ty)} {q : Slot Ty} (hchecks : options.nullChecks = true)
    (hlapses : Lapses ps q) (hadmits : ¬ q.type.Admits .undefined) : Clashes options ps q := by
  obtain ⟨hrequired, p, hfind, hoptional⟩ := hlapses
  refine ⟨p, hfind, Bool.eq_false_iff.mpr fun hassignable => hadmits ?_⟩
  have hmay : p.declared.MayBe .undefined := by
    rw [Slot.declared, hoptional]
    exact p.type.mayBe_undefined_optional
  have hdeclared : q.declared = q.type := by
    rw [Slot.declared, hrequired]
    rfl
  rw [hdeclared] at hassignable
  exact (relates_absent_iff hchecks (Or.inr rfl) q.type).mp
    (relates_of_mayBe (relates_of_assignable hassignable) hmay)

/-- **Explanations are complete, lapses apart.**  Within the limit, an object that is not assignable
to another is explained, unless the target requires some property that the source may leave out and
every property of the target has all the same related types.  Under null checks this takes a
required property whose type admits `undefined`. -/
theorem explanations_complete_iff (options : Options) (a b : Option String) (ps qs : List (Slot Ty))
    (h : (Ty.object a ps).height + (Ty.object b qs).height ≤ 66) :
    ((assignable options (.object b qs) (.object a ps) = false →
        (explain? options (.object b qs) (.object a ps)).isSome = true)
      ↔ ¬ ((∃ q ∈ qs, Lapses ps q) ∧ ∀ q ∈ qs, ¬ Missing ps q ∧ ¬ Clashes options ps q)) ∧
    (options.nullChecks = true →
      (∀ q ∈ qs, q.optional = false → ¬ q.type.Admits .undefined) →
      assignable options (.object b qs) (.object a ps) = false →
        (explain? options (.object b qs) (.object a ps)).isSome = true) := by
  rw [not_assignable_iff h, explain?_isSome_iff]
  constructor
  · constructor
    · rintro hexplained ⟨⟨q, hq, hlapses⟩, hsatisfied⟩
      obtain ⟨q', hq', hunsatisfied⟩ := hexplained ⟨q, hq, Or.inr (Or.inr hlapses)⟩
      exact hunsatisfied.elim (hsatisfied q' hq').1 (hsatisfied q' hq').2
    · rintro hnot ⟨q, hq, hmissing | hclashes | hlapses⟩
      · exact ⟨q, hq, Or.inl hmissing⟩
      · exact ⟨q, hq, Or.inr hclashes⟩
      · -- some other property must be to blame as well
        apply Classical.byContradiction
        intro hnone
        exact hnot ⟨⟨q, hq, hlapses⟩, fun q' hq' =>
          ⟨fun hmissing => hnone ⟨q', hq', Or.inl hmissing⟩,
            fun hclashes => hnone ⟨q', hq', Or.inr hclashes⟩⟩⟩
  · rintro hchecks hadmits ⟨q, hq, hmissing | hclashes | hlapses⟩
    · exact ⟨q, hq, Or.inl hmissing⟩
    · exact ⟨q, hq, Or.inr hclashes⟩
    · exact ⟨q, hq, Or.inr (clashes_of_lapses hchecks hlapses (hadmits q hq hlapses.1))⟩

/-- A lapse of a property of type `any`, which is explained by another property that is missing, and
a lapse that shows in the types. -/
theorem explanations_complete_iff_panel :
    let title (isOptional : Bool) : Slot Ty := ⟨"title", .keyword .string, isOptional⟩
    let data (isOptional : Bool) : Slot Ty := ⟨"data", .any, isOptional⟩
    ((∃ q ∈ [data false, title false], Lapses [data true] q) ∧
      (explain? .strictest (.object none [data false, title false])
        (.object none [data true])).isSome = true) ∧
    assignable .strictest (.object none [title false]) (.object none [title true]) = false ∧
      (explain? .strictest (.object none [title false])
        (.object none [title true])).isSome = true := by
  intro title data
  have hdata := explanations_complete_iff .strictest none none [data true] [data false, title false]
    (by decide)
  have htitle := explanations_complete_iff .strictest none none [title true] [title false]
    (by decide)
  have hlapses : ∃ q ∈ [data false, title false], Lapses [data true] q :=
    ⟨data false, List.mem_cons_self .., rfl, data true, rfl, rfl⟩
  have hmissing : Missing [data true] (title false) := ⟨rfl, rfl⟩
  have hadmits : ∀ q ∈ [title false], q.optional = false → ¬ q.type.Admits .undefined := by
    intro q hq _ h
    rw [List.mem_singleton.mp hq] at h
    cases h
  refine ⟨⟨hlapses, hdata.1.mpr ?_ (by decide)⟩, by decide,
    htitle.2 (by decide) hadmits (by decide)⟩
  rintro ⟨-, hsatisfied⟩
  exact (hsatisfied (title false) (List.mem_cons_of_mem _ (List.mem_singleton_self _))).1 hmissing

/-- A lapse that nothing else shows: the target requires a property of type `any`, and the source
may leave it out. -/
theorem lapse_not_explained :
    ¬ ∀ (options : Options) (a b : Option String) (ps qs : List (Slot Ty)),
      (Ty.object a ps).height + (Ty.object b qs).height ≤ 66 →
      assignable options (.object b qs) (.object a ps) = false →
        (explain? options (.object b qs) (.object a ps)).isSome = true := by
  intro h
  have hexplained := h .strictest none none [⟨"x", .keyword .string, true⟩] [⟨"x", .any, false⟩]
    (by decide) (by decide)
  revert hexplained
  decide

end PropCheck.Assign
