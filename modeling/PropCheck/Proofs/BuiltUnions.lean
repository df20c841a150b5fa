import PropCheck.Proofs.Unions

/-!
# Unions that are built are transparent

Building a union takes the members out of the unions it is given, drops those that are the same as
an earlier one, and lets a single one stand for itself.  The relation sees none of this: a union
that is built is related, and is taken, through the types it was built from.

* `Ty.height_unionOf_le_union`: a union that is built is no higher than one that is only written
  down.
* `Assign.relates_unionOf_source`: it is related exactly if all the types are.
* `Assign.relates_unionOf_target`: it takes an ordinary source other than `boolean` exactly if one
  of the types does.
* `Assign.unionOf_transparent`: the same for assignability.
-/

namespace PropCheck

namespace Ty

theorem height_unionOf_le_union (ts : List Ty) : (unionOf ts).height ≤ (union ts).height := by
  have hle : (unionOf ts).height ≤ max 1 (heights ts) + 1 := by
    apply height_unionOf_le (Nat.le_max_left ..)
    intro t ht m hm
    have hmember := height_le_of_mem_members hm
    have hlist := height_le_heights ht
    omega
  rw [height]
  omega

/-- Only a union without members gives no alternatives. -/
theorem members_ne_nil {t : Ty} (h : t ≠ union []) : t.members ≠ [] := by
  cases t with
  | union ts =>
    intro hnil
    exact h (congrArg union hnil)
  | _ => exact List.cons_ne_nil _ _

theorem distinct_ne_nil {ts : List Ty} (h : ts ≠ []) : distinct ts ≠ [] := by
  obtain ⟨t, ht⟩ := List.exists_mem_of_ne_nil ts h
  obtain ⟨u, hu, -⟩ := exists_mem_foldl_insertNew [] ht
  exact List.ne_nil_of_mem hu

end Ty

namespace Assign

variable {options : Options}

/-- **A union that is built is related exactly if all the types are.** -/
theorem relates_unionOf_source (ss : List Ty) (t : Ty) :
    relates options (.unionOf ss) t = ss.all (relates options · t) := by
  have hsame : ∀ s u : Ty, s.same u = true → relates options s t = relates options u t :=
    fun _ _ h => relates_source_eq_of_same h
  calc relates options (.unionOf ss) t
      = (Ty.distinct (ss.flatMap Ty.members)).all (relates options · t) :=
        relates_ofAlternatives_source _ t
    _ = (ss.flatMap Ty.members).all (relates options · t) := Ty.all_distinct hsame _
    _ = ss.all fun s => s.members.all (relates options · t) := List.all_flatMap
    _ = ss.all (relates options · t) := by
        congr 1
        exact funext fun s => (relates_eq_all_members s t).symm

/-- A type takes a source other than `boolean` exactly if one of its members does. -/
theorem relates_eq_any_members {s : Ty} (hs : s.Ordinary) (hboolean : s ≠ .keyword .boolean)
    (t : Ty) : relates options s t = t.members.any (relates options s) := by
  rw [relates_eq_members hs, coversBoolean_eq_false hboolean, Bool.false_or]

/-- **A union that is built takes a source exactly if one of the types does**, if the source is
ordinary and not `boolean`, and the types have an alternative at all. -/
theorem relates_unionOf_target {s : Ty} (hs : s.Ordinary) (hboolean : s ≠ .keyword .boolean)
    {ts : List Ty} (hts : ts.flatMap Ty.members ≠ []) :
    relates options s (.unionOf ts) = ts.any (relates options s) := by
  have hsame : ∀ t u : Ty, t.same u = true → relates options s t = relates options s u :=
    fun _ _ h => relates_eq_of_same h
  calc relates options s (.unionOf ts)
      = (coversBoolean s (Ty.distinct (ts.flatMap Ty.members))
          || (Ty.distinct (ts.flatMap Ty.members)).any (relates options s)) :=
        relates_ofAlternatives hs (Ty.distinct_ne_nil hts)
    _ = (Ty.distinct (ts.flatMap Ty.members)).any (relates options s) := by
        rw [coversBoolean_eq_false hboolean, Bool.false_or]
    _ = (ts.flatMap Ty.members).any (relates options s) := Ty.any_distinct hsame _
    _ = ts.any fun t => t.members.any (relates options s) := List.any_flatMap
    _ = ts.any (relates options s) := by
        congr 1
        exact funext fun t => (relates_eq_any_members hs hboolean t).symm

/-- **Building a union is transparent to assignability.**  A union that is built is assignable to a
type exactly if all its types are.  A source that is not `any`, `unknown`, `boolean` or a union is
assignable to a union that is built exactly if it is assignable to one of its types, of which there
is at least one and none is a union without members. -/
theorem unionOf_transparent (options : Options) (ms : List Ty) :
    (∀ t : Ty, (Ty.union ms).height + t.height ≤ 66 →
      (assignable options t (.unionOf ms) = true ↔ ∀ m ∈ ms, assignable options t m = true)) ∧
    ∀ s : Ty, s.height + (Ty.union ms).height ≤ 66 →
      s ≠ .any → s ≠ .unknown → s ≠ .keyword .boolean → (∀ us, s ≠ .union us) →
      ms ≠ [] → .union [] ∉ ms →
      (assignable options (.unionOf ms) s = true ↔ ∃ m ∈ ms, assignable options m s = true) := by
  have hbuilt := Ty.height_unionOf_le_union ms
  constructor
  · intro t hheight
    have hmember : ∀ m ∈ ms, assignable options t m = relates options m t := by
      intro m hm
      have hlt := Ty.height_lt_union hm
      exact assignable_eq_relates (by omega)
    rw [assignable_eq_relates (by omega), relates_unionOf_source, List.all_eq_true]
    exact forall₂_congr fun m hm => by rw [hmember m hm]
  · intro s hheight hany hunknown hboolean hunion hne hempty
    have hmember : ∀ m ∈ ms, assignable options m s = relates options s m := by
      intro m hm
      have hlt := Ty.height_lt_union hm
      exact assignable_eq_relates (by omega)
    obtain ⟨m, hm⟩ := List.exists_mem_of_ne_nil ms hne
    rw [assignable_eq_relates (by omega)]
    by_cases hnever : s = .never
    · -- `never` is assignable to everything, and there is a type among the given ones
      subst hnever
      refine iff_of_true (relates_never_source _) ⟨m, hm, ?_⟩
      rw [hmember m hm]
      exact relates_never_source m
    · have hflat : ms.flatMap Ty.members ≠ [] := by
        obtain ⟨u, hu⟩ := List.exists_mem_of_ne_nil _
          (Ty.members_ne_nil fun heq => hempty (heq ▸ hm))
        exact List.ne_nil_of_mem (List.mem_flatMap.mpr ⟨m, hm, hu⟩)
      rw [relates_unionOf_target ⟨hany, hnever, hunknown, hunion⟩ hboolean hflat,
        List.any_eq_true]
      constructor
      · rintro ⟨u, hu, h⟩
        exact ⟨u, hu, (hmember u hu).trans h⟩
      · rintro ⟨u, hu, h⟩
        exact ⟨u, hu, (hmember u hu).symm.trans h⟩

/-- Two zeros of different sign, a union inside the list and a type given twice: the union that is
built has three members.  As the source it is compared with a union that has `number` in it, as the
target with a zero of the sign that was dropped. -/
theorem unionOf_transparent_zeros :
    let zero : Ty := .number (.finite false 0)
    let negativeZero : Ty := .number (.finite true 0)
    let ms : List Ty := [zero, .union [.keyword .string, negativeZero], .null, .keyword .string]
    let t : Ty := .union [.keyword .number, .keyword .string, .null]
    (assignable .strictest t (.unionOf ms) = true ↔ ∀ m ∈ ms, assignable .strictest t m = true) ∧
    (assignable .strictest (.unionOf ms) negativeZero = true
      ↔ ∃ m ∈ ms, assignable .strictest m negativeZero = true) ∧
    assignable .strictest t (.unionOf ms) = true ∧
    assignable .strictest (.unionOf ms) negativeZero = true := by
  intro zero negativeZero ms t
  have h := unionOf_transparent .strictest ms
  refine ⟨h.1 t (by decide), ?_, by decide, by decide⟩
  exact h.2 negativeZero (by decide) Ty.noConfusion Ty.noConfusion Ty.noConfusion
    (fun _ => Ty.noConfusion) (List.cons_ne_nil _ _) (by simp [ms, zero])

end Assign

end PropCheck
