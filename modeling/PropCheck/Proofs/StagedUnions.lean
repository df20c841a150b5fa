import PropCheck.Proofs.BuiltUnions
import PropCheck.Proofs.NormalForm

/-!
# Unions built in stages

Building a union takes the members out of unions, drops a type that is the same as an earlier one,
and lets a single type stand for itself.  Done in stages, it does all this several times over: a
type that is dropped in an early stage is not there to be dropped in a later one, and the result of
a stage may be no union at all.  Nevertheless the stages do not show.  What is dropped early would
be dropped later by the type that stands for it, since sameness is transitive; that `nan` is not
even the same as itself does no harm, since it is never dropped.

* `Ty.foldl_insertNew_insertNew`: a type may be left out of a list that is added, or left out when
  the list has been added.
* `Ty.foldl_insertNew_distinct`, `Ty.distinct_flatMap_distinct`: dropping duplicates in parts first
  does not change what is kept.
* `Ty.members_unionOf`: a union that is built gives back the alternatives it was built from.
* `Ty.unionOf_map_unionOf`: a union of unions is the union of all their types.
* `Ty.unionOf_associative`: the same for two lists of types, with the normal form of the result.
-/

namespace PropCheck

namespace Ty

/-! ### Dropping duplicates in stages -/

theorem insertNew_of_same {seen : List Ty} {t u : Ty} (hu : u ∈ seen) (hsame : same u t = true) :
    insertNew seen t = seen := by
  have hany : seen.any (same · t) = true := List.any_eq_true.mpr ⟨u, hu, hsame⟩
  rw [insertNew, if_pos hany]

/-- Whether a type is left out of a list that is added, or only when the list has been added, is the
same. -/
theorem foldl_insertNew_insertNew (seen kept : List Ty) (t : Ty) :
    (insertNew kept t).foldl insertNew seen = insertNew (kept.foldl insertNew seen) t := by
  by_cases hany : kept.any (same · t) = true
  · -- what the type is the same as has itself been added, or it is the same as one seen before
    obtain ⟨u, hu, hut⟩ := List.any_eq_true.mp hany
    obtain ⟨v, hv, hvu⟩ := exists_mem_foldl_insertNew seen hu
    have hvt : same v t = true := by
      rcases hvu with rfl | hvu
      · exact hut
      · exact same_trans hvu hut
    rw [insertNew_of_same hu hut, insertNew_of_same hv hvt]
  · rw [insertNew, if_neg hany, List.foldl_append]
    rfl

/-- Adding to a list what another has kept of some types is adding the types. -/
theorem foldl_insertNew_foldl (seen kept ts : List Ty) :
    (ts.foldl insertNew kept).foldl insertNew seen
      = ts.foldl insertNew (kept.foldl insertNew seen) := by
  induction ts generalizing kept with
  | nil => rfl
  | cons t ts ih => rw [List.foldl_cons, ih, foldl_insertNew_insertNew, List.foldl_cons]

theorem foldl_insertNew_distinct (seen ts : List Ty) :
    (distinct ts).foldl insertNew seen = ts.foldl insertNew seen :=
  foldl_insertNew_foldl seen [] ts

/-- **Dropping duplicates in parts first** does not change what is kept of all. -/
theorem distinct_flatMap_distinct {α : Type} (part : α → List Ty) (xs : List α) :
    distinct (xs.flatMap fun x => distinct (part x)) = distinct (xs.flatMap part) := by
  unfold distinct
  rw [List.foldl_flatMap, List.foldl_flatMap]
  congr 1
  funext seen x
  exact foldl_insertNew_distinct seen (part x)

/-! ### Building unions in stages -/

/-- A type in normal form has an alternative. -/
theorem NormalHere.members_ne_nil {t : Ty} (h : t.NormalHere) : t.members ≠ [] := by
  apply Ty.members_ne_nil
  rintro rfl
  have hlength : 2 ≤ ([] : List Ty).length := h.1
  simp at hlength

/-- **A union that is built gives back its alternatives**, also where a single one of them stands
for itself. -/
theorem members_unionOf {ts : List Ty} (hne : ts ≠ []) (h : ∀ t ∈ ts, t.NormalHere) :
    (unionOf ts).members = distinct (ts.flatMap members) := by
  have hsome : ts.flatMap members ≠ [] := by
    obtain ⟨t, ht⟩ := List.exists_mem_of_ne_nil ts hne
    obtain ⟨m, hm⟩ := List.exists_mem_of_ne_nil _ (h t ht).members_ne_nil
    exact List.ne_nil_of_mem (List.mem_flatMap.mpr ⟨t, ht, hm⟩)
  exact members_ofAlternatives (distinct_ne_nil hsome) fun _ => not_union_of_mem_distinct h

/-- **A union of unions that are built is the union of all their types.** -/
theorem unionOf_map_unionOf (tss : List (List Ty)) (hne : ∀ ts ∈ tss, ts ≠ [])
    (h : ∀ ts ∈ tss, ∀ t ∈ ts, t.NormalHere) :
    unionOf (tss.map unionOf) = unionOf tss.flatten := by
  have hmembers : tss.map (fun ts => (unionOf ts).members)
      = tss.map (fun ts => distinct (ts.flatMap members)) :=
    List.map_congr_left fun ts hts => members_unionOf (hne ts hts) (h ts hts)
  have hdistinct : distinct ((tss.map unionOf).flatMap members)
      = distinct (tss.flatten.flatMap members) := by
    calc distinct ((tss.map unionOf).flatMap members)
      _ = distinct (tss.flatMap fun ts => (unionOf ts).members) := by rw [List.flatMap_map]
      _ = distinct (tss.flatMap fun ts => distinct (ts.flatMap members)) := by
          rw [List.flatMap_def, hmembers, ← List.flatMap_def]
      _ = distinct (tss.flatMap (·.flatMap members)) := distinct_flatMap_distinct _ tss
      _ = distinct (tss.flatten.flatMap members) := by
          rw [List.flatten_eq_flatMap, List.flatMap_assoc]
          rfl
  rw [unionOf, hdistinct, unionOf]

/-- **Building unions is associative.**  Let two lists of types be given, neither of them empty,
with every union among the types in normal form: it has at least two members, none of them a union
and no two the same.  Then the union of the two unions is the union of all the types, building that
union again changes nothing, it is in normal form too, and its members are the alternatives of all
the types without those that are the same as an earlier one.  An empty list would show in the first
law, since its union is `never`. -/
theorem unionOf_associative {as bs : List Ty} (has : as ≠ []) (hbs : bs ≠ [])
    (hnormal : ∀ t ∈ as, t.NormalHere) (hnormal' : ∀ t ∈ bs, t.NormalHere) :
    unionOf [unionOf as, unionOf bs] = unionOf (as ++ bs) ∧
    unionOf (as ++ bs) = unionOf [unionOf (as ++ bs)] ∧
    (unionOf (as ++ bs)).NormalHere ∧
    (unionOf (as ++ bs)).members = distinct ((as ++ bs).flatMap members) := by
  have hne : as ++ bs ≠ [] := List.append_ne_nil_of_left_ne_nil has bs
  have hboth : ∀ t ∈ as ++ bs, t.NormalHere := by
    intro t ht
    rcases List.mem_append.mp ht with ht | ht
    · exact hnormal t ht
    · exact hnormal' t ht
  refine ⟨?_, ?_, normalHere_unionOf hboth, members_unionOf hne hboth⟩
  · have hstages : unionOf [unionOf as, unionOf bs] = unionOf [as, bs].flatten := by
      apply unionOf_map_unionOf [as, bs]
      · simp [has, hbs]
      · simp only [List.forall_mem_cons]
        exact ⟨hnormal, hnormal', by simp⟩
    simpa using hstages
  · have hstage : unionOf [unionOf (as ++ bs)] = unionOf [as ++ bs].flatten := by
      apply unionOf_map_unionOf [as ++ bs]
      · simpa using hne
      · simpa using hboth
    simpa using hstage.symm

/-- Two zeros, of which the first stands for both and then by itself, and a list with a union in it,
`nan` and `string` twice and a third zero: of all that is there twice, only `nan` is kept twice. -/
theorem unionOf_associative_numbers :
    let zero : Ty := .number (.finite false 0)
    let negativeZero : Ty := .number (.finite true 0)
    let nan : Ty := .number .nan
    let as : List Ty := [zero, negativeZero]
    let bs : List Ty := [.union [nan, .keyword .string], nan, negativeZero, .keyword .string]
    unionOf as = zero ∧ unionOf (as ++ bs) = .union [zero, nan, .keyword .string, nan] ∧
    unionOf [unionOf as, unionOf bs] = unionOf (as ++ bs) ∧
    unionOf (as ++ bs) = unionOf [unionOf (as ++ bs)] ∧ (unionOf (as ++ bs)).NormalHere ∧
    (unionOf (as ++ bs)).members = distinct ((as ++ bs).flatMap members) := by
  intro zero negativeZero nan as bs
  have hunion : (union [nan, .keyword .string]).NormalHere :=
    ⟨by decide, by simp [nan], by simp [nan, same]⟩
  have hbs : ∀ t ∈ bs, t.NormalHere := by
    simp only [bs, List.forall_mem_cons]
    exact ⟨hunion, trivial, trivial, trivial, by simp⟩
  have has : ∀ t ∈ as, t.NormalHere := by
    simp only [as, List.forall_mem_cons]
    exact ⟨trivial, trivial, by simp⟩
  exact ⟨rfl, rfl, unionOf_associative (by simp [as]) (by simp [bs]) has hbs⟩

end Ty

end PropCheck
