import PropCheck.Proofs.BuiltUnions
import PropCheck.Proofs.NormalForm
import PropCheck.Proofs.Reflexivity

/-!
# Widening settles and only widens

Widening makes primitives of the literals among the alternatives of a type and builds their union
anew.  Since building a union takes only one level of unions apart, the members must have been
widened to types that are flat themselves.

* `Ty.IsLiteral`, `Ty.Wide`: a type that widening leaves alone.
* `Ty.wide_widened`: what is widened is wide.
* `Ty.widened_of_wide`: what is wide is left alone.
* `Ty.height_widened_le`: widening makes no type higher.
* `Assign.relates_widened`: a regular type is related to what it is widened to.
* `Assign.widening_settles_and_widens`: the laws of widening.
-/

namespace PropCheck

namespace Ty

/-- A literal type. -/
def IsLiteral : Ty → Prop
  | string _ | number _ | boolean _ => True
  | _ => False

/-- The type is no literal, and if it is a union, it has at least two members, none of them is a
literal or a union, and no two of them are the same. -/
def Wide (t : Ty) : Prop :=
  t.NormalHere ∧ ∀ m ∈ t.members, ¬ m.IsLiteral

/-! ### Wide types -/

theorem wide_of_not_union {t : Ty} (hunion : ∀ us, t ≠ union us) (ht : ¬ t.IsLiteral) :
    t.Wide := by
  constructor
  · cases t with
    | union ts => exact absurd rfl (hunion ts)
    | _ => trivial
  · intro m hm
    rw [members_of_not_union hunion, List.mem_singleton] at hm
    exact hm ▸ ht

/-- No member of a wide type is a union. -/
theorem Wide.not_union {t m : Ty} (h : t.Wide) (hm : m ∈ t.members) : ∀ us, m ≠ union us :=
  h.1.not_union hm

/-- **The union of wide types is wide.** -/
theorem wide_unionOf {ts : List Ty} (h : ∀ t ∈ ts, t.Wide) : (unionOf ts).Wide := by
  have hnormal : ∀ t ∈ ts, t.NormalHere := fun t ht => (h t ht).1
  refine ⟨normalHere_unionOf hnormal, ?_⟩
  intro m hm
  show ¬ m.IsLiteral
  by_cases hnone : distinct (ts.flatMap members) = []
  · rw [unionOf, hnone] at hm
    rw [List.mem_singleton.mp hm]
    exact id
  · rw [unionOf, members_ofAlternatives hnone fun _ => not_union_of_mem_distinct hnormal] at hm
    obtain ⟨t, ht, hmt⟩ := List.mem_flatMap.mp (mem_of_mem_distinct hm)
    exact (h t ht).2 m hmt

/-- **What is widened is wide**, through unions inside unions. -/
theorem wide_widened (t : Ty) : t.widened.Wide := by
  induction t using unionInduction with
  | union ts ih =>
    show (unionOf (widenedAll ts)).Wide
    rw [widenedAll_eq_map]
    apply wide_unionOf
    intro u hu
    obtain ⟨t, ht, rfl⟩ := List.mem_map.mp hu
    exact ih t ht
  | other t hunion =>
    cases t with
    | union ts => exact absurd rfl (hunion ts)
    | _ => exact wide_of_not_union (fun _ => Ty.noConfusion) id

theorem widened_of_not_literal {t : Ty} (hunion : ∀ us, t ≠ union us) (ht : ¬ t.IsLiteral) :
    t.widened = t := by
  cases t with
  | string _ | number _ | boolean _ => exact absurd trivial ht
  | union ts => exact absurd rfl (hunion ts)
  | _ => rfl

/-- **What is wide is left alone.** -/
theorem widened_of_wide {t : Ty} (h : t.Wide) : t.widened = t := by
  cases t with
  | union ts =>
    have hmembers : ts.map widened = ts := by
      calc ts.map widened
        _ = ts.map id := List.map_congr_left fun m hm =>
          widened_of_not_literal (h.not_union hm) (h.2 m hm)
        _ = ts := List.map_id ts
    show unionOf (widenedAll ts) = union ts
    rw [widenedAll_eq_map, hmembers]
    exact unionOf_of_normalHere h.1
  | _ => exact widened_of_not_literal (fun _ => Ty.noConfusion) (h.2 _ (List.mem_singleton_self _))

/-! ### Heights -/

/-- **Widening makes no type higher.** -/
theorem height_widened_le (t : Ty) : t.widened.height ≤ t.height := by
  induction t using unionInduction with
  | union ts ih =>
    have hmembers : heights (ts.map widened) ≤ heights ts := by
      rw [heights_le_iff]
      intro u hu
      obtain ⟨t, ht, rfl⟩ := List.mem_map.mp hu
      exact Nat.le_trans (ih t ht) (height_le_heights ht)
    have hbuilt := height_unionOf_le_union (ts.map widened)
    show (unionOf (widenedAll ts)).height ≤ 1 + max 1 (heights ts)
    rw [widenedAll_eq_map]
    change _ ≤ 1 + max 1 (heights (ts.map widened)) at hbuilt
    omega
  | other t hunion =>
    rcases widened_of_not_union hunion with heq | ⟨k, heq⟩
    · exact Nat.le_of_eq (congrArg height heq)
    · rw [heq]
      exact t.one_le_height

end Ty

namespace Assign

variable {options : Options}

/-! ### A type and what it is widened to -/

/-- Alternatives take what one of them takes, if `unknown` is no alternative of the source. -/
theorem relates_ofAlternatives_of_mem {s t : Ty} {ts : List Ty} (ht : t ∈ ts)
    (hs : ¬ s.MayBe .unknown) (h : relates options s t = true) :
    relates options s (.ofAlternatives ts) = true := by
  match ts with
  | [] => cases ht
  | [u] =>
    rw [List.mem_singleton] at ht
    exact ht ▸ h
  | _ :: _ :: _ => exact relates_union_of_mem ht hs h

/-- A union that is built takes what one of the types takes, if this is no union itself and
`unknown` is no alternative of the source. -/
theorem relates_unionOf_of_mem {s t : Ty} {ts : List Ty} (ht : t ∈ ts)
    (hunion : ∀ us, t ≠ .union us) (hs : ¬ s.MayBe .unknown) (h : relates options s t = true) :
    relates options s (.unionOf ts) = true := by
  have hmember : t ∈ ts.flatMap Ty.members := by
    refine List.mem_flatMap.mpr ⟨t, ht, ?_⟩
    rw [Ty.members_of_not_union hunion]
    exact List.mem_singleton_self t
  -- the type itself may have been dropped, but then one that is the same is kept
  obtain ⟨u, hu, heq⟩ := Ty.exists_mem_foldl_insertNew [] hmember
  have hrelates : relates options s u = true := by
    rcases heq with rfl | hsame
    · exact h
    · rw [relates_eq_of_same hsame]
      exact h
  exact relates_ofAlternatives_of_mem hu hs hrelates

/-- A regular type that is no union is related to what it is widened to. -/
theorem relates_widened_of_not_union {t : Ty} (ht : t.Regular) (hunion : ∀ us, t ≠ .union us) :
    relates options t t.widened = true := by
  by_cases hliteral : t.IsLiteral
  · cases t with
    | string _ | number _ | boolean _ => exact relates_of_step rfl
    | _ => exact absurd hliteral id
  · rw [Ty.widened_of_not_literal hunion hliteral]
    exact relates_of_conjunct ht (.self t)

/-- **A regular type is related to what it is widened to.** -/
theorem relates_widened {t : Ty} (ht : t.Regular) : relates options t t.widened = true := by
  cases t with
  | union ts =>
    rw [relates_union_source, List.all_eq_true]
    intro m hm
    obtain ⟨hunknown, hunion⟩ := ht.here m hm
    have hmay : ¬ m.MayBe .unknown := fun hmay => hunknown (Ty.eq_of_mayBe hmay hunion)
    have hself : relates options m m.widened = true :=
      relates_widened_of_not_union (ht.part hm) hunion
    have hflat : ∀ us, m.widened ≠ .union us := by
      intro us heq
      rcases Ty.widened_of_not_union hunion with h | ⟨k, h⟩
      · exact hunion us (h.symm.trans heq)
      · cases h.symm.trans heq
    show relates options m (.unionOf (Ty.widenedAll ts)) = true
    rw [Ty.widenedAll_eq_map]
    exact relates_unionOf_of_mem (List.mem_map_of_mem hm) hflat hmay hself
  | _ => exact relates_widened_of_not_union ht fun _ => Ty.noConfusion

/-- **Widening settles and only widens.**  Widening a type twice gives what widening it once gives,
which is no literal, and no union with a literal, a union or two types that are the same among its
members.  A type of height at most 33 is assignable to what it is widened to under all options, if
nothing inside it is the literal `nan`, an object with two properties of one name or with an
optional property of type `unknown`, a union with `unknown` or a union among its members, or an
intersection with a union among its members. -/
theorem widening_settles_and_widens (t : Ty) :
    t.widened.widened = t.widened ∧ t.widened.Wide ∧
    ∀ options, t.height ≤ 33 → t.Regular → assignable options t.widened t = true := by
  refine ⟨Ty.widened_of_wide t.wide_widened, t.wide_widened, ?_⟩
  intro options hheight ht
  have hwidened := t.height_widened_le
  rw [assignable_eq_relates (by omega)]
  exact relates_widened ht

/-- Two numbers become one `number`, which stands beside a tuple of literals that is left alone. -/
theorem widening_settles_and_widens_sizes :
    let t : Ty := .union [.number (.finite false 0), .tuple [.string "a", .boolean true],
      .number (.finite true 0), .keyword .number, .boolean false]
    t.height ≤ 33 ∧ t.Regular ∧ assignable .strictest t.widened t = true := by
  intro t
  have hheight : t.height ≤ 33 := by decide
  have ht : t.Regular := by
    simp [Ty.Regular, Ty.RegularHere, t, Ty.inside, Ty.insideAll]
  exact ⟨hheight, ht, (widening_settles_and_widens t).2.2 .strictest hheight ht⟩

end Assign

end PropCheck
