import PropCheck.Proofs.DepthLimit

/-!
# Stricter options relate less

A flag that is switched on only ever takes assignments away.  The relation asks about parts of types
in both directions, parameters of functions being compared the other way round; but it never turns
an answer into its opposite, so that a yes about the parts can only help a yes about the whole.

* `Options.AsStrictAs`: options that ask for all that other options ask for.
* `Assign.Rises`: two verdicts that are answers, the second a yes if the first is.
* `Assign.levelwise_rises`: one level carries this from the parts to the whole if the options get
  looser.
* `Assign.relates_of_asStrictAs`: looser options relate all that stricter ones relate.
* `Assign.assignable_of_looser`: the same for assignability, on all pairs that are not too high.
-/

namespace PropCheck

/-- Whatever the second options ask for, the first ask for as well. -/
structure Options.AsStrictAs (first second : Options) : Prop where
  nullChecks : second.nullChecks = true → first.nullChecks = true
  functionTypes : second.functionTypes = true → first.functionTypes = true

namespace Assign

/-! ### Verdicts that rise -/

/-- Both verdicts are answers, and the second is a yes if the first is. -/
def Rises (x y : Verdict) : Prop :=
  ∃ a b : Bool, x = .ok a ∧ y = .ok b ∧ (a = true → b = true)

namespace Rises

variable {x y x' y' : Verdict}

theorem ok {a b : Bool} (h : a = true → b = true) : Rises (.ok a) (.ok b) :=
  ⟨a, b, rfl, rfl, h⟩

/-- A yes that is new leads on to a question that was not asked before, whose answer is worth no
less than the no that stood in its place. -/
theorem andThen (h : Rises x y) (h' : Rises x' y') :
    Rises (do if ← x then x' else return false) (do if ← y then y' else return false) := by
  obtain ⟨a, b, rfl, rfl, hab⟩ := h
  obtain ⟨a', b', rfl, rfl, hab'⟩ := h'
  cases a with
  | false => cases b <;> exact ok nofun
  | true =>
    obtain rfl : b = true := hab rfl
    exact ok hab'

/-- A yes that is new saves a question, whose answer is worth no more than the yes. -/
theorem orElse (h : Rises x y) (h' : Rises x' y') :
    Rises (do if ← x then return true else x') (do if ← y then return true else y') := by
  obtain ⟨a, b, rfl, rfl, hab⟩ := h
  obtain ⟨a', b', rfl, rfl, hab'⟩ := h'
  cases b with
  | true => cases a <;> exact ok fun _ => rfl
  | false =>
    obtain rfl : a = false := Bool.eq_false_iff.mpr fun ha => Bool.false_ne_true (hab ha)
    exact ok hab'

/-- A question that is asked only under a condition is asked no less under a weaker one. -/
theorem guarded {c d : Bool} (hcd : c = true → d = true) (h : Rises x y) :
    Rises (if c then x else return false) (if d then y else return false) := by
  obtain ⟨a, b, rfl, rfl, hab⟩ := h
  cases c with
  | false => cases d <;> exact ok nofun
  | true =>
    obtain rfl : d = true := hcd rfl
    exact ok hab

end Rises

/-- **The relation is positive in its options.**  One level carries rising answers from the parts to
the whole if the options do not get stricter. -/
theorem levelwise_rises {first second : Options} (h : first.AsStrictAs second) :
    Levelwise Rises first second where
  ok _ := .ok id
  andThen := .andThen
  orElse := .orElse
  nullChecks := by
    apply Rises.ok
    intro hfirst
    cases hsecond : second.nullChecks with
    | false => rfl
    | true =>
      rw [h.nullChecks hsecond] at hfirst
      exact hfirst
  functionTypes m n hxy := by
    apply Rises.guarded _ hxy
    intro hfirst
    cases hsecond : second.functionTypes with
    | false => rfl
    | true =>
      rw [h.functionTypes hsecond] at hfirst
      exact hfirst

/-! ### All levels -/

/-- **Looser options relate all that stricter ones relate.** -/
theorem relates_of_asStrictAs {first second : Options} (hstrict : first.AsStrictAs second)
    {source target : Ty} (h : relates first source target = true) :
    relates second source target = true := by
  -- strong induction on the height of the pair, which a level lowers whichever way it asks
  induction hn : source.height + target.height using Nat.strongRecOn generalizing source target with
  | ind n ih =>
    have hlower : Compatible.Below Rises source target
        (fun s t => .ok (relates first s t)) (fun s t => .ok (relates second s t)) := by
      intro s t hlt
      exact .ok fun hst => ih _ (hn ▸ hlt) hst rfl
    obtain ⟨a, b, ha, hb, hab⟩ := (levelwise_rises hstrict).step hlower
    rw [step_relates] at ha hb
    rw [Except.ok.inj hb]
    exact hab (Except.ok.inj ha ▸ h)

/-- **Strictness is monotone.**  On all pairs whose heights add up to at most 66, what may be given
for a type under some options may be given for it under any options that ask for no more. -/
theorem assignable_of_looser {first second : Options} {target source : Ty}
    (hheight : source.height + target.height ≤ 66)
    (hnull : second.nullChecks = true → first.nullChecks = true)
    (hfunction : second.functionTypes = true → first.functionTypes = true)
    (h : assignable first target source = true) : assignable second target source = true := by
  rw [assignable_eq_relates hheight] at h ⊢
  exact relates_of_asStrictAs ⟨hnull, hfunction⟩ h

/-- A function of a handler of texts may be given for one of a handler of texts that may be missing,
the parameters being turned round twice.  That is so with all flags on, hence with the null checks
off; the other way round it is so only then. -/
theorem assignable_of_looser_handler :
    let loose : Options := ⟨some true, some false, none⟩
    let taking (param : Ty) : Ty := .function [⟨"value", param, false⟩] .void false
    let source := taking (taking (.keyword .string))
    let target := taking (taking (.union [.keyword .string, .undefined]))
    source.height + target.height ≤ 66 ∧
      assignable .strictest target source = true ∧ assignable loose target source = true ∧
      assignable .strictest source target = false ∧ assignable loose source target = true := by
  intro loose taking source target
  have hheight : source.height + target.height ≤ 66 := by decide
  have hstrict : assignable .strictest target source = true := by decide +kernel
  have hloose : assignable loose target source = true :=
    assignable_of_looser hheight (by decide) (by decide) hstrict
  exact ⟨hheight, hstrict, hloose, by decide +kernel, by decide +kernel⟩

end Assign

end PropCheck
