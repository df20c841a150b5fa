import PropCheck.Proofs.MergedObjects
import PropCheck.Proofs.Parts
import PropCheck.Proofs.Pieces

/-!
# Intersections below their members

A value of an intersection is a value of each member, so an intersection should be assignable to all
that one of its members is assignable to.  But the target is taken apart first, and the member is
only asked about the pieces.  This loses what the member owes to several pieces together: the
alternatives of a union that go to different members of the target, the two literals that cover
`boolean`, and `never` where there is no piece to ask about.

* `Assign.relates_intersection_singleton`: an intersection with a single member is related exactly
  if the member is, piece by piece.
* `Assign.metBy_never`, `Assign.metBy_of_relates`, `Assign.metBy_of_no_unions`: where a member that
  is related is so piece by piece.
* `Assign.intersection_below_member_iff`: the intersections with a member are assignable to a target
  that the member is assignable to exactly if the member is so piece by piece.
* `Assign.intersection_not_below_member`: the exception is met.
-/

namespace PropCheck.Assign

variable {options : Options}

/-! ### Intersections with a member -/

theorem relates_intersection_singleton (m t : Ty) :
    relates options (.intersection [m]) t = t.metBy (relates options m) := by
  rw [relates_intersection_pieces]
  apply Ty.metBy_congr
  intro u _ hu
  by_cases hobject : ∃ a ps, m = .object a ps
  · -- the object that a single object amounts to has lost its name only
    obtain ⟨a, ps, rfl⟩ := hobject
    have hname : relates options (.object none ps) u = relates options (.object a ps) u :=
      relates_object_congr hu none a fun _ _ _ _ _ => rfl
    have hsingle := relates_intersection_objects options hu [(a, ps)]
    simpa [hname] using hsingle
  · have hmerged : merged? [m] = none := by
      cases m with
      | object a ps => exact absurd ⟨a, ps, rfl⟩ hobject
      | _ => rfl
    rw [relates_intersection_source hu, hmerged, List.any_cons, List.any_nil, Bool.or_false]
    exact Bool.or_false _

/-- What a member is related to piece by piece, the intersection is related to. -/
theorem relates_intersection_of_metBy {m t : Ty} {ms : List Ty} (hm : m ∈ ms)
    (h : t.metBy (relates options m) = true) : relates options (.intersection ms) t = true := by
  rw [relates_intersection_eq_metBy]
  refine Ty.metBy_mono (fun u _ _ hu => ?_) h
  have hany : ms.any (relates options · u) = true := List.any_eq_true.mpr ⟨m, hm, hu⟩
  rw [hany, Bool.true_or]

/-! ### Members that are related piece by piece -/

/-- `never` is related piece by piece where every union has a piece. -/
theorem metBy_never {t : Ty} (ht : .union [] ∉ t.reach) :
    t.metBy (relates options .never) = true := by
  induction t using Ty.targetInduction with
  | any => rfl
  | unknown => rfl
  | union ts ih =>
    rw [Ty.metBy_union, List.any_eq_true]
    cases ts with
    | nil => exact absurd (Ty.self_mem_reach _) ht
    | cons t ts =>
      have hmem : t ∈ t :: ts := List.mem_cons_self
      exact ⟨t, hmem, ih t hmem fun h => ht (Ty.mem_reach_union hmem h)⟩
  | intersection ts ih =>
    rw [Ty.metBy_intersection, List.all_eq_true]
    intro t hmem
    exact ih t hmem fun h => ht (Ty.mem_reach_intersection hmem h)
  | plain t hplain =>
    rw [Ty.metBy_plain hplain]
    exact relates_never_source t

theorem metBy_unknown {t : Ty} (h : relates options .unknown t = true) :
    t.metBy (relates options .unknown) = true := by
  rcases relates_unknown_source.mp h with rfl | rfl
  · rfl
  · rfl

/-- **A member that is no union is related piece by piece**, if no piece is missing for `never` and
no union covers `boolean`. -/
theorem metBy_of_relates {m t : Ty} (hany : m ≠ .any) (hunion : ∀ us, m ≠ .union us)
    (hnever : m = .never → .union [] ∉ t.reach)
    (hboolean : m = .keyword .boolean →
      ∀ us, .union us ∈ t.reach → ¬ (.boolean true ∈ us ∧ .boolean false ∈ us))
    (h : relates options m t = true) : t.metBy (relates options m) = true := by
  by_cases hisNever : m = .never
  · rw [hisNever]
    exact metBy_never (hnever hisNever)
  by_cases hisUnknown : m = .unknown
  · subst hisUnknown
    exact metBy_unknown h
  · have hcovers : ∀ us, .union us ∈ t.reach → coversBoolean m us = false := by
      intro us hus
      rw [Bool.eq_false_iff]
      intro hcover
      obtain ⟨hisBoolean, hliterals⟩ := coversBoolean_iff.mp hcover
      exact hboolean hisBoolean us hus hliterals
    rw [← relates_eq_metBy ⟨hany, hisNever, hisUnknown, hunion⟩ hcovers]
    exact h

/-- What is related to an intersection is related to its members, if `any` is no alternative of
it. -/
theorem relates_of_relates_intersection {m t : Ty} {ts : List Ty} (hany : ¬ m.MayBe .any)
    (h : relates options m (.intersection ts) = true) (ht : t ∈ ts) :
    relates options m t = true := by
  induction m using Ty.unionInduction with
  | union ms ih =>
    rw [relates_union_source, List.all_eq_true] at h ⊢
    intro m hm
    exact ih m hm (fun hmay => hany (.member hm hmay)) (h m hm)
  | other m hunion =>
    by_cases hnever : m = .never
    · rw [hnever]
      exact relates_never_source t
    by_cases hunknown : m = .unknown
    · subst hunknown
      rcases relates_unknown_source.mp h with h | h
      · cases h
      · cases h
    · have hisAny : m ≠ .any := fun heq => hany (heq ▸ .self _)
      rw [relates_intersection_target ⟨hisAny, hnever, hunknown, hunion⟩, List.all_eq_true] at h
      exact h t ht

/-- **A member is related piece by piece to a target without unions**, if `any` is no alternative of
it. -/
theorem metBy_of_no_unions {m t : Ty} (hany : ¬ m.MayBe .any) (ht : ∀ us, .union us ∉ t.reach)
    (h : relates options m t = true) : t.metBy (relates options m) = true := by
  induction t using Ty.targetInduction with
  | any => rfl
  | unknown => rfl
  | union ts => exact absurd (Ty.self_mem_reach _) (ht ts)
  | intersection ts ih =>
    rw [Ty.metBy_intersection, List.all_eq_true]
    intro t hmem
    exact ih t hmem (fun us hus => ht us (Ty.mem_reach_intersection hmem hus))
      (relates_of_relates_intersection hany h hmem)
  | plain t hplain =>
    rw [Ty.metBy_plain hplain]
    exact h

/-! ### Assignability -/

/-- All intersections with the member, within the limit, are assignable to the target. -/
def BelowMember (options : Options) (m t : Ty) : Prop :=
  ∀ ms : List Ty, m ∈ ms → (Ty.intersection ms).height + t.height ≤ 66 →
    assignable options t (.intersection ms) = true

/-- Within the limit, a type is assignable to the pieces exactly if it is related to them. -/
theorem metBy_assignable {m t : Ty} (hheight : m.height + t.height ≤ 66) :
    t.metBy (assignable options · m) = t.metBy (relates options m) := by
  apply Ty.metBy_congr
  intro u hu _
  have hle := Ty.height_le_of_mem_reach hu
  exact assignable_eq_relates (by omega)

/-- **An intersection is below a member piece by piece.**  The intersections with a member are
assignable to a target that the member is assignable to exactly if the member is assignable to it
piece by piece: to one member of each union and all members of each intersection on the way.  This
is so if the member is not `any` nor a union, no union on the way is empty if the member is `never`,
and none has both literals if it is `boolean`.  It is also so if there is no union on the way and
`any` is no alternative of the member. -/
theorem intersection_below_member_iff (options : Options) (m t : Ty)
    (hheight : (Ty.intersection [m]).height + t.height ≤ 66)
    (h : assignable options t m = true) :
    (BelowMember options m t ↔ t.metBy (assignable options · m) = true) ∧
    (m ≠ .any → (∀ us, m ≠ .union us) → (m = .never → .union [] ∉ t.reach) →
      (m = .keyword .boolean →
        ∀ us, .union us ∈ t.reach → ¬ (.boolean true ∈ us ∧ .boolean false ∈ us)) →
      BelowMember options m t) ∧
    (¬ m.MayBe .any → (∀ us, .union us ∉ t.reach) → BelowMember options m t) := by
  have hlower : m.height < (Ty.intersection [m]).height :=
    Ty.height_lt_intersection (List.mem_singleton_self m)
  have hrelates : relates options m t = true := by
    rwa [assignable_eq_relates (by omega)] at h
  have hiff : BelowMember options m t ↔ t.metBy (relates options m) = true := by
    constructor
    · intro hbelow
      have hsingle := hbelow [m] (List.mem_singleton_self m) hheight
      rwa [assignable_eq_relates hheight, relates_intersection_singleton] at hsingle
    · intro hmet ms hm hlimit
      rw [assignable_eq_relates hlimit]
      exact relates_intersection_of_metBy hm hmet
  refine ⟨?_, fun hany hunion hnever hboolean => ?_, fun hany ht => ?_⟩
  · rw [metBy_assignable (by omega)]
    exact hiff
  · exact hiff.mpr (metBy_of_relates hany hunion hnever hboolean hrelates)
  · exact hiff.mpr (metBy_of_no_unions hany ht hrelates)

/-- An object for a target with a union and an intersection on the way, and a union for a target
without a union on the way. -/
theorem intersection_below_member_iff_nested :
    let named : Ty := .object none [⟨"name", .keyword .string, false⟩]
    let t : Ty := .union [.null, .intersection [.unknown, .union [.keyword .string, named]]]
    let either : Ty := .union [.string "a", .number (.finite false 0)]
    let nothing : Ty := .intersection [.object none [], .object none []]
    assignable .strictest t named = true ∧ BelowMember .strictest named t ∧
      assignable .strictest nothing either = true ∧ BelowMember .strictest either nothing := by
  intro named t either nothing
  have h : assignable .strictest t named = true := by decide
  have h' : assignable .strictest nothing either = true := by decide
  have hany : ¬ either.MayBe .any := by
    rw [Ty.mayBe_union_iff fun _ => Ty.noConfusion]
    rintro ⟨u, hu, hmay⟩
    have hne : u ≠ .any ∧ ∀ us, u ≠ .union us := by
      revert u
      simp
    exact hne.1 (Ty.eq_of_mayBe hmay hne.2)
  refine ⟨h, ?_, h', ?_⟩
  · exact (intersection_below_member_iff .strictest named t (by decide) h).2.1 Ty.noConfusion
      (fun _ => Ty.noConfusion) Ty.noConfusion Ty.noConfusion
  · exact (intersection_below_member_iff .strictest either nothing (by decide) h').2.2 hany
      (by simp [nothing, Ty.reach, Ty.reachAll])

/-- The exception is met: a union of two types is assignable to itself, but its intersection with an
object type that asks for nothing is not. -/
theorem intersection_not_below_member :
    ¬ ∀ (options : Options) (ms : List Ty) (m t : Ty), m ∈ ms →
      (Ty.intersection ms).height + t.height ≤ 66 → m ≠ .any → .any ∉ t.inside →
      assignable options t m = true → assignable options t (.intersection ms) = true := by
  intro h
  have hinter := h .strictest [.union [.keyword .string, .keyword .number], .object none []]
    (.union [.keyword .string, .keyword .number]) (.union [.keyword .string, .keyword .number])
    List.mem_cons_self (by decide) Ty.noConfusion (by simp [Ty.inside, Ty.insideAll]) (by decide)
  revert hinter
  decide

end PropCheck.Assign
