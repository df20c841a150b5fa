import PropCheck.Check.Property
import PropCheck.Proofs.Unions

/-!
# Optional slots

A slot that may be left out is declared with its own type and `undefined`, so it should take all
that its own type takes.  It does, with one exception: `any` and `unknown` take every source, but
the unions they become with `undefined` do not take `unknown`, nor a union that `unknown` is an
alternative of.

* `Assign.relates_optional_iff`: what a type takes and its optional type does not.
* `Assign.optional_widens_iff`: the same for assignability and for the findings about values of
  optional members.
* `Assign.unknown_not_assignable_to_optional`: the exception is met.
-/

namespace PropCheck

namespace Assign

variable {options : Options}

/-- **Of what a type takes, its optional type loses `unknown` and unions with it**, and only if the
type is `any` or `unknown`. -/
theorem relates_optional_iff {s t : Ty} (h : relates options s t = true) :
    relates options s (t.optional true) = true
      ↔ ¬ ((t = .any ∨ t = .unknown) ∧ s.MayBe .unknown) := by
  induction s using Ty.unionInduction with
  | union ss ih =>
    rw [relates_union_source, List.all_eq_true] at h ⊢
    rw [Ty.mayBe_union_iff fun _ => Ty.noConfusion]
    constructor
    · rintro hall ⟨htop, s, hs, hmay⟩
      exact (ih s hs (h s hs)).mp (hall s hs) ⟨htop, hmay⟩
    · intro hnot s hs
      exact (ih s hs (h s hs)).mpr fun ⟨htop, hmay⟩ => hnot ⟨htop, s, hs, hmay⟩
  | other s hunion =>
    by_cases hunknown : s = .unknown
    · -- what takes `unknown` is `any` or `unknown`, and its optional type is neither
      subst hunknown
      have hne : ¬ relates options .unknown (t.optional true) = true :=
        Bool.eq_false_iff.mp (relates_unknown_optional t)
      exact iff_of_false hne fun hnot => hnot ⟨relates_unknown_source.mp h, .self _⟩
    · have hmay : ¬ s.MayBe .unknown := fun hmay => hunknown (Ty.eq_of_mayBe hmay hunion)
      refine iff_of_true ?_ fun hgap => hmay hgap.2
      by_cases hany : s = .any
      · subst hany
        exact relates_any_source (t.optional_true_ne_keyword (by decide))
      · by_cases hnever : s = .never
        · subst hnever
          exact relates_never_source _
        · rw [relates_optional ⟨hany, hnever, hunknown, hunion⟩, h, Bool.true_or]

/-- A type is assignable to an optional type within two levels of the limit as it is without. -/
theorem assignable_optional_eq_relates {s t : Ty} (h : s.height + t.height ≤ 60) :
    assignable options (t.optional true) s = relates options s (t.optional true) := by
  have hle : (t.optional true).height ≤ t.height + 1 := t.height_optional_le true
  exact assignable_eq_relates (by omega)

theorem assignable_optional_iff {s t : Ty} (hheight : s.height + t.height ≤ 60)
    (h : assignable options t s = true) :
    assignable options (t.optional true) s = true
      ↔ ¬ ((t = .any ∨ t = .unknown) ∧ s.MayBe .unknown) := by
  rw [assignable_eq_relates (by omega)] at h
  rw [assignable_optional_eq_relates hheight]
  exact relates_optional_iff h

/-- Every source is assignable to `any` and to `unknown`. -/
theorem assignable_of_top {s t : Ty} (ht : t = .any ∨ t = .unknown) :
    assignable options t s = true := by
  rcases ht with rfl | rfl
  · rfl
  · rfl

end Assign

namespace Check

/-- A value that is rejected for its type is a declared name whose type is not assignable to what
the member is declared with. -/
theorem not_assignable_of_rejected {usage : Usage} {parent node : Node} {attr : Option Node}
    {m : ComponentMember} {finding : Diagnostic} (hspread : parent.isSpread = false)
    (hm : usage.component.member? (attr.getD node).name = some m)
    (h : identifierFinding? usage parent attr node = some finding)
    (hcode : finding.code = Code.notAssignable.number) :
    ∃ declaration, usage.scope.find? node.name = some declaration ∧
      Assign.assignable usage.options m.declared declaration.type = false := by
  unfold identifierFinding? at h
  split at h
  · -- an undeclared name is reported under another number
    cases h
    cases hcode
  · rename_i declaration hfind
    refine ⟨declaration, hfind, ?_⟩
    simp only [hspread, hm, Bool.false_eq_true, ↓reduceIte] at h
    split at h
    · cases h
    · rename_i hassignable
      exact Bool.eq_false_iff.mpr hassignable

end Check

namespace Assign

/-- **Optional slots only widen, `unknown` apart.**  Making a slot optional keeps the sources that
are assignable to it, with exactly one exception: a slot of type `any` or `unknown` loses the
sources that have `unknown` as an alternative.  So a value that is rejected for an optional member
is assignable to the type that the member is shown with in this case only. -/
theorem optional_widens_iff (options : Options) (s t : Ty) (hheight : s.height + t.height ≤ 60) :
    ((assignable options t s = true → assignable options (t.optional true) s = true)
      ↔ ¬ ((t = .any ∨ t = .unknown) ∧ s.MayBe .unknown)) ∧
    ∀ (usage : Check.Usage) (parent : Node) (attr : Option Node) (node : Node)
      (m : ComponentMember) (finding : Diagnostic),
      parent.isSpread = false →
      usage.component.member? (attr.getD node).name = some m → m.optional = true →
      Check.identifierFinding? usage parent attr node = some finding → finding.code = 2322 →
        ∃ declaration, usage.scope.find? node.name = some declaration ∧
          (declaration.type.height + m.type.height ≤ 60 →
            (assignable usage.options m.type declaration.type = true
              ↔ (m.type = .any ∨ m.type = .unknown) ∧ declaration.type.MayBe .unknown)) := by
  constructor
  · constructor
    · intro hwidens hgap
      have h : assignable options t s = true := assignable_of_top hgap.1
      exact (assignable_optional_iff hheight h).mp (hwidens h) hgap
    · intro hgap h
      exact (assignable_optional_iff hheight h).mpr hgap
  · intro usage parent attr node m finding hspread hm hoptional hfinding hcode
    obtain ⟨declaration, hfind, hnot⟩ :=
      Check.not_assignable_of_rejected hspread hm hfinding hcode
    rw [ComponentMember.declared, hoptional] at hnot
    refine ⟨declaration, hfind, fun hlow => ⟨fun h => ?_, fun hgap => assignable_of_top hgap.1⟩⟩
    apply Classical.byContradiction
    intro hgap
    rw [(assignable_optional_iff hlow h).mpr hgap] at hnot
    cases hnot

/-- A literal for an optional slot of a union, and a `boolean` that is rejected for an optional
member of type `string`. -/
theorem optional_widens_iff_string_member :
    let label : ComponentMember := ⟨"label", .property, .keyword .string, true⟩
    let flag : Script.Declaration := ⟨⟨"flag", ⟨6, 10⟩⟩, .const, .keyword .boolean⟩
    let usage : Check.Usage :=
      { options := .strictest
        scope := ⟨"App.svelte.ts", [flag], []⟩
        source := ⟨"App.svelte", ""⟩
        component := ⟨"Counter", "Counter.svelte.d.ts", ⟨0, 40⟩, [label]⟩
        memberNames := ["label"] }
    let name : Node := ⟨.identifier, 16, 20, some "flag", [], [], .absent, none, none⟩
    let tag : Node := ⟨.mustacheTag, 15, 21, none, [], [], .absent, some name, none⟩
    let attr : Node := ⟨.attr, 9, 21, some "label", [], [], .nodes [tag], none, none⟩
    ((assignable .strictest (.union [.keyword .string, .keyword .number]) (.string "a") = true →
        assignable .strictest ((Ty.union [.keyword .string, .keyword .number]).optional true)
          (.string "a") = true)
      ↔ ¬ ((Ty.union [.keyword .string, .keyword .number] = .any
            ∨ Ty.union [.keyword .string, .keyword .number] = .unknown)
          ∧ (Ty.string "a").MayBe .unknown)) ∧
    (Check.identifierFinding? usage tag (some attr) name).map (·.code) = some 2322 ∧
    ∃ declaration, usage.scope.find? name.name = some declaration ∧
      (declaration.type.height + label.type.height ≤ 60 →
        (assignable usage.options label.type declaration.type = true
          ↔ (label.type = .any ∨ label.type = .unknown) ∧ declaration.type.MayBe .unknown)) := by
  intro label flag usage name tag attr
  obtain ⟨hwidens, hrejected⟩ := optional_widens_iff .strictest (.string "a")
    (.union [.keyword .string, .keyword .number]) (by decide)
  exact ⟨hwidens, rfl, hrejected usage tag (some attr) name label _ rfl rfl rfl rfl rfl⟩

/-- The exception is met: `unknown` is assignable to `unknown`, but not to an optional slot of it.
-/
theorem unknown_not_assignable_to_optional :
    ¬ ∀ (options : Options) (s t : Ty), s.height + t.height ≤ 60 →
      assignable options t s = true → assignable options (t.optional true) s = true := by
  intro h
  have hunknown := h .strictest .unknown .unknown (by decide) (by decide)
  revert hunknown
  decide

end Assign

end PropCheck
