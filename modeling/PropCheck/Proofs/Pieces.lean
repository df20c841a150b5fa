import PropCheck.Proofs.Objects

/-!
# The pieces of a target

A union or an intersection as the target is taken apart before the source is looked into, and so are
the unions and intersections inside it.  What is left are plain targets, and an ordinary source is
asked about each of them on its own.

* `Ty.reach`: the types that a target is taken apart into, the target itself included.
* `Ty.metBy`: whether a target is met if its plain pieces are asked about: a union by one of its
  members, an intersection by all of them.
* `Ty.metBy_mono`, `Ty.metBy_congr`: only the answers about the plain pieces count.
* `Assign.relates_eq_metBy`: an ordinary source is related piece by piece, but for a `boolean` that
  a union covers by its two literals.
* `Assign.relates_intersection_eq_metBy`: so is an intersection, each piece through one of the
  members or through the object type that they amount to.
* `Assign.relates_intersection_congr`: intersections that are related alike to the plain pieces of a
  target are related alike to the target.
-/

namespace PropCheck

namespace Ty

mutual

/-- The types that a target is taken apart into: itself, and what is reached from it through unions
and intersections. -/
def reach : Ty → List Ty
  | union ts => union ts :: reachAll ts
  | intersection ts => intersection ts :: reachAll ts
  | t => [t]

def reachAll : List Ty → List Ty
  | [] => []
  | t :: ts => reach t ++ reachAll ts

end

mutual

/-- Whether a target is met if its plain pieces are asked about: a union by one of its members, an
intersection by all of them. -/
def metBy (ask : Ty → Bool) : Ty → Bool
  | any | unknown => true
  | union ts => someMetBy ask ts
  | intersection ts => allMetBy ask ts
  | t => ask t

def someMetBy (ask : Ty → Bool) : List Ty → Bool
  | [] => false
  | t :: ts => metBy ask t || someMetBy ask ts

def allMetBy (ask : Ty → Bool) : List Ty → Bool
  | [] => true
  | t :: ts => metBy ask t && allMetBy ask ts

end

/-! ### What is reached -/

theorem reachAll_eq_flatMap (ts : List Ty) : reachAll ts = ts.flatMap reach := by
  induction ts with
  | nil => rfl
  | cons t ts ih => rw [reachAll, ih, List.flatMap_cons]

theorem self_mem_reach (t : Ty) : t ∈ t.reach := by
  cases t <;> simp [reach]

theorem mem_reach_union {t u : Ty} {ts : List Ty} (ht : t ∈ ts) (hu : u ∈ t.reach) :
    u ∈ (union ts).reach := by
  rw [reach, reachAll_eq_flatMap]
  exact List.mem_cons_of_mem _ (List.mem_flatMap.mpr ⟨t, ht, hu⟩)

theorem mem_reach_intersection {t u : Ty} {ts : List Ty} (ht : t ∈ ts) (hu : u ∈ t.reach) :
    u ∈ (intersection ts).reach := by
  rw [reach, reachAll_eq_flatMap]
  exact List.mem_cons_of_mem _ (List.mem_flatMap.mpr ⟨t, ht, hu⟩)

theorem reach_plain {t : Ty} (ht : t.Plain) : t.reach = [t] := by
  cases t with
  | union ts => exact absurd rfl (ht.not_union ts)
  | intersection ts => exact absurd rfl (ht.not_intersection ts)
  | _ => rfl

/-- A target is not taken apart into anything higher. -/
theorem height_le_of_mem_reach {t u : Ty} (h : u ∈ t.reach) : u.height ≤ t.height := by
  have hlower : ∀ ts : List Ty, (∀ t ∈ ts, u ∈ t.reach → u.height ≤ t.height) →
      u ∈ reachAll ts → u.height ≤ heights ts := by
    intro ts ih hu
    rw [reachAll_eq_flatMap] at hu
    obtain ⟨t, ht, hut⟩ := List.mem_flatMap.mp hu
    exact Nat.le_trans (ih t ht hut) (height_le_heights ht)
  induction t using targetInduction with
  | union ts ih | intersection ts ih =>
    rw [reach, List.mem_cons] at h
    rcases h with rfl | h
    · exact Nat.le_refl _
    · have hle := hlower ts ih h
      rw [height]
      omega
  | any | unknown => exact Nat.le_of_eq (congrArg height (List.mem_singleton.mp h))
  | plain t ht =>
    rw [reach_plain ht] at h
    exact Nat.le_of_eq (congrArg height (List.mem_singleton.mp h))

/-! ### What is met -/

section

variable {ask p q : Ty → Bool} {t : Ty}

theorem metBy_union (ts : List Ty) : (union ts).metBy ask = ts.any (metBy ask) := by
  rw [metBy]
  induction ts with
  | nil => rfl
  | cons t ts ih => rw [someMetBy, ih, List.any_cons]

theorem metBy_intersection (ts : List Ty) : (intersection ts).metBy ask = ts.all (metBy ask) := by
  rw [metBy]
  induction ts with
  | nil => rfl
  | cons t ts ih => rw [allMetBy, ih, List.all_cons]

theorem metBy_plain (ht : t.Plain) : t.metBy ask = ask t := by
  cases t with
  | keyword k =>
    cases k with
    | any => exact absurd rfl ht.not_any
    | unknown => exact absurd rfl ht.not_unknown
    | _ => rfl
  | union ts => exact absurd rfl (ht.not_union ts)
  | intersection ts => exact absurd rfl (ht.not_intersection ts)
  | _ => rfl

/-- **A target that is met stays met if its plain pieces do.** -/
theorem metBy_mono (h : ∀ u ∈ t.reach, u.Plain → p u = true → q u = true)
    (hp : t.metBy p = true) : t.metBy q = true := by
  induction t using targetInduction with
  | any => rfl
  | unknown => rfl
  | union ts ih =>
    rw [metBy_union, List.any_eq_true] at hp ⊢
    obtain ⟨t, ht, hp⟩ := hp
    exact ⟨t, ht, ih t ht (fun u hu => h u (mem_reach_union ht hu)) hp⟩
  | intersection ts ih =>
    rw [metBy_intersection, List.all_eq_true] at hp ⊢
    intro t ht
    exact ih t ht (fun u hu => h u (mem_reach_intersection ht hu)) (hp t ht)
  | plain t ht =>
    rw [metBy_plain ht] at hp ⊢
    exact h t t.self_mem_reach ht hp

theorem metBy_congr (h : ∀ u ∈ t.reach, u.Plain → p u = q u) : t.metBy p = t.metBy q := by
  rw [Bool.eq_iff_iff]
  constructor
  · exact metBy_mono fun u hu hplain hp => (h u hu hplain).symm.trans hp
  · exact metBy_mono fun u hu hplain hq => (h u hu hplain).trans hq

end

end Ty

namespace Assign

variable {options : Options}

/-! ### Piece by piece -/

/-- **An ordinary source is related piece by piece**, if no union of the target covers it. -/
theorem relates_eq_metBy {s t : Ty} (hs : s.Ordinary)
    (hcovers : ∀ us, .union us ∈ t.reach → coversBoolean s us = false) :
    relates options s t = t.metBy (relates options s) := by
  induction t using Ty.targetInduction with
  | any => exact relates_any_target s
  | unknown => exact relates_unknown_target s
  | union ts ih =>
    have hts : ∀ t ∈ ts, relates options s t = t.metBy (relates options s) :=
      fun t ht => ih t ht fun us hus => hcovers us (Ty.mem_reach_union ht hus)
    rw [relates_union_target hs, hcovers ts (Ty.self_mem_reach _), Bool.false_or, Ty.metBy_union,
      Bool.eq_iff_iff, List.any_eq_true, List.any_eq_true]
    exact exists_congr fun t => and_congr_right fun ht => by rw [hts t ht]
  | intersection ts ih =>
    have hts : ∀ t ∈ ts, relates options s t = t.metBy (relates options s) :=
      fun t ht => ih t ht fun us hus => hcovers us (Ty.mem_reach_intersection ht hus)
    rw [relates_intersection_target hs, Ty.metBy_intersection, Bool.eq_iff_iff, List.all_eq_true,
      List.all_eq_true]
    exact forall₂_congr fun t ht => by rw [hts t ht]
  | plain t ht => rw [Ty.metBy_plain ht]

/-- An intersection is related piece by piece, since no union covers it. -/
theorem relates_intersection_pieces (ss : List Ty) (t : Ty) :
    relates options (.intersection ss) t = t.metBy (relates options (.intersection ss)) :=
  relates_eq_metBy (Ty.ordinary_intersection ss)
    fun us _ => coversBoolean_eq_false Ty.noConfusion us

/-- **An intersection is related piece by piece**, each piece through one of the members or through
the object type that they amount to. -/
theorem relates_intersection_eq_metBy (ss : List Ty) (t : Ty) :
    relates options (.intersection ss) t
      = t.metBy fun u =>
        ss.any (relates options · u) || (merged? ss).any (relates options · u) := by
  rw [relates_intersection_pieces]
  exact Ty.metBy_congr fun u _ hu => relates_intersection_source hu ss

/-- Intersections are related alike if they are so to each plain piece. -/
theorem relates_intersection_congr {ss ss' : List Ty} {t : Ty}
    (h : ∀ u ∈ t.reach, u.Plain →
      relates options (.intersection ss) u = relates options (.intersection ss') u) :
    relates options (.intersection ss) t = relates options (.intersection ss') t := by
  rw [relates_intersection_pieces, relates_intersection_pieces ss']
  exact Ty.metBy_congr h

end Assign

end PropCheck
