import PropCheck.Proofs.Parts
import PropCheck.Proofs.Sameness

/-!
# The normal form of unions

A union is in normal form if it has at least two members, none of them is a union, and no two of
them are the same.  Building a union takes only one level of unions apart, so its members must be in
normal form for the union to be.

* `Ty.NormalHere`, `Ty.Normal`: a type is in normal form at its top, and everywhere inside.
* `Ty.normalHere_unionOf`, `Ty.normal_unionOf`: the union of types in normal form is in normal form.
* `Ty.members_ofAlternatives`: the members of a type are the alternatives that it was made of.
* `Ty.unionOf_of_normalHere`: building a union in normal form again changes nothing.
* `Ty.Normal.widened`, `Ty.Normal.optional`, `Ty.Normal.property?`, `Ty.Normal.element?`: so are the
  types that widening, optional places and destructuring make of them.
-/

namespace PropCheck

namespace Ty

/-- Whether two types are the same does not depend on which comes first. -/
theorem same_comm (a b : Ty) : same a b = same b a := by
  have hsymm : ∀ {a b : Ty}, same a b = true → same b a = true := by
    intro a b h
    have heq : a.unsigned = b.unsigned := unsigned_eq_of_same h
    calc same b a
      _ = same b.unsigned a.unsigned := (same_unsigned b a).symm
      _ = same a.unsigned b.unsigned := by rw [heq]
      _ = same a b := same_unsigned a b
      _ = true := h
  rw [Bool.eq_iff_iff]
  exact ⟨hsymm, hsymm⟩

theorem same_trans {a b c : Ty} (hab : same a b = true) (hbc : same b c = true) :
    same a c = true := by
  have heq : a.unsigned = b.unsigned := unsigned_eq_of_same hab
  calc same a c
    _ = same a.unsigned c.unsigned := (same_unsigned a c).symm
    _ = same b.unsigned c.unsigned := by rw [heq]
    _ = same b c := same_unsigned b c
    _ = true := hbc

/-! ### Normal form -/

/-- The type is no union, or one with at least two members, none of which is a union and no two of
which are the same. -/
def NormalHere : Ty → Prop
  | union ts => 2 ≤ ts.length ∧ (∀ t ∈ ts, ∀ us, t ≠ union us) ∧
      ts.Pairwise fun t u => same t u = false ∧ same u t = false
  | _ => True

/-- All unions inside the type are in normal form. -/
def Normal (t : Ty) : Prop :=
  ∀ u ∈ t.inside, u.NormalHere

theorem normal_iff {t : Ty} : t.Normal ↔ t.NormalHere ∧ ∀ u ∈ t.parts, u.Normal := by
  unfold Normal
  rw [inside_eq t]
  simp only [List.forall_mem_cons, List.forall_mem_flatMap]

theorem Normal.here {t : Ty} (h : t.Normal) : t.NormalHere :=
  (normal_iff.mp h).1

theorem Normal.part {t u : Ty} (h : t.Normal) (hu : u ∈ t.parts) : u.Normal :=
  (normal_iff.mp h).2 u hu

theorem Normal.inside {t u : Ty} (h : t.Normal) (hu : u ∈ t.inside) : u.Normal :=
  fun v hv => h v (inside_subset_of_mem_inside hu hv)

section Constructors

variable {t r : Ty} {ts : List Ty} {ps : List (Slot Ty)} {name : String} {label : Option String}

@[simp] theorem normal_keyword (k : Keyword) : (keyword k).Normal :=
  normal_iff.mpr ⟨trivial, fun _ hu => absurd hu List.not_mem_nil⟩

@[simp] theorem normal_string (s : String) : (string s).Normal :=
  normal_iff.mpr ⟨trivial, fun _ hu => absurd hu List.not_mem_nil⟩

@[simp] theorem normal_number (x : Double) : (number x).Normal :=
  normal_iff.mpr ⟨trivial, fun _ hu => absurd hu List.not_mem_nil⟩

@[simp] theorem normal_boolean (b : Bool) : (boolean b).Normal :=
  normal_iff.mpr ⟨trivial, fun _ hu => absurd hu List.not_mem_nil⟩

@[simp] theorem normal_array_iff : (array t).Normal ↔ t.Normal := by
  simp [normal_iff (t := array t), NormalHere, parts]

@[simp] theorem normal_tuple_iff : (tuple ts).Normal ↔ ∀ t ∈ ts, t.Normal := by
  simp [normal_iff (t := tuple ts), NormalHere, parts]

@[simp] theorem normal_intersection_iff : (intersection ts).Normal ↔ ∀ t ∈ ts, t.Normal := by
  simp [normal_iff (t := intersection ts), NormalHere, parts]

@[simp] theorem normal_reference_iff : (reference name ts).Normal ↔ ∀ t ∈ ts, t.Normal := by
  simp [normal_iff (t := reference name ts), NormalHere, parts]

@[simp] theorem normal_function_iff {m : Bool} :
    (function ps r m).Normal ↔ (∀ p ∈ ps, p.type.Normal) ∧ r.Normal := by
  simp [normal_iff (t := function ps r m), NormalHere, parts, or_imp, forall_and]

@[simp] theorem normal_object_iff : (object label ps).Normal ↔ ∀ p ∈ ps, p.type.Normal := by
  simp [normal_iff (t := object label ps), NormalHere, parts]

end Constructors

/-! ### Unions that are built -/

theorem pairwise_insertNew {seen : List Ty}
    (h : seen.Pairwise fun t u => same t u = false ∧ same u t = false) (t : Ty) :
    (insertNew seen t).Pairwise fun t u => same t u = false ∧ same u t = false := by
  unfold insertNew
  split
  · exact h
  · rename_i hnew
    refine List.pairwise_append.mpr ⟨h, List.pairwise_singleton _ t, ?_⟩
    intro u hu v hv
    have hut : same u t = false := by
      rw [Bool.eq_false_iff]
      exact fun hsame => hnew (List.any_eq_true.mpr ⟨u, hu, hsame⟩)
    rw [List.mem_singleton.mp hv]
    exact ⟨hut, (same_comm t u).trans hut⟩

/-- No two of the distinct types are the same. -/
theorem pairwise_distinct (ts : List Ty) :
    (distinct ts).Pairwise fun t u => same t u = false ∧ same u t = false :=
  List.foldlRecOn ts insertNew .nil fun _ h t _ => pairwise_insertNew h t

theorem normalHere_ofAlternatives {ts : List Ty} (hflat : ∀ t ∈ ts, ∀ us, t ≠ union us)
    (hdistinct : ts.Pairwise fun t u => same t u = false ∧ same u t = false) :
    (ofAlternatives ts).NormalHere := by
  match ts with
  | [] => trivial
  | [t] =>
    have ht := hflat t (List.mem_singleton_self t)
    cases t with
    | union us => exact absurd rfl (ht us)
    | _ => trivial
  | t :: u :: ts => exact ⟨Nat.le_add_left 2 ts.length, hflat, hdistinct⟩

theorem normal_ofAlternatives {ts : List Ty} (hnormal : ∀ t ∈ ts, t.Normal)
    (hflat : ∀ t ∈ ts, ∀ us, t ≠ union us)
    (hdistinct : ts.Pairwise fun t u => same t u = false ∧ same u t = false) :
    (ofAlternatives ts).Normal := by
  match ts with
  | [] => exact normal_keyword .never
  | [t] => exact hnormal t (List.mem_singleton_self t)
  | t :: u :: ts =>
    have hlength : 2 ≤ (t :: u :: ts).length := Nat.le_add_left 2 ts.length
    exact normal_iff.mpr ⟨⟨hlength, hflat, hdistinct⟩, hnormal⟩

/-- No member of a type in normal form is a union. -/
theorem NormalHere.not_union {t m : Ty} (h : t.NormalHere) (hm : m ∈ t.members) :
    ∀ us, m ≠ union us := by
  cases t with
  | union ts => exact h.2.1 m hm
  | _ =>
    rw [List.mem_singleton.mp hm]
    exact fun _ => Ty.noConfusion

/-- The members of a type in normal form are in normal form, and none of them is a union. -/
theorem Normal.members {t m : Ty} (h : t.Normal) (hm : m ∈ t.members) :
    m.Normal ∧ ∀ us, m ≠ union us := by
  refine ⟨?_, h.here.not_union hm⟩
  cases t with
  | union ts => exact h.part hm
  | _ => exact List.mem_singleton.mp hm ▸ h

theorem foldl_insertNew_of_pairwise {ts seen : List Ty}
    (h : (seen ++ ts).Pairwise fun t u => same t u = false ∧ same u t = false) :
    ts.foldl insertNew seen = seen ++ ts := by
  induction ts generalizing seen with
  | nil => simp
  | cons t ts ih =>
    have hnew : insertNew seen t = seen ++ [t] := by
      have hany : ¬ seen.any (same · t) = true := by
        rw [List.any_eq_true]
        intro ⟨u, hu, hsame⟩
        have hut := ((List.pairwise_append.mp h).2.2 u hu t List.mem_cons_self).1
        simp [hut] at hsame
      rw [insertNew, if_neg hany]
    rw [List.foldl_cons, hnew, ih (by simpa using h)]
    simp

/-- Types no two of which are the same are all kept. -/
theorem distinct_of_pairwise {ts : List Ty}
    (h : ts.Pairwise fun t u => same t u = false ∧ same u t = false) : distinct ts = ts :=
  foldl_insertNew_of_pairwise h

theorem members_of_not_union {t : Ty} (h : ∀ us, t ≠ union us) : t.members = [t] := by
  cases t with
  | union ts => exact absurd rfl (h ts)
  | _ => rfl

theorem flatMap_members_of_not_union {ts : List Ty} (h : ∀ t ∈ ts, ∀ us, t ≠ union us) :
    ts.flatMap members = ts := by
  induction ts with
  | nil => rfl
  | cons t ts ih =>
    rw [List.flatMap_cons, members_of_not_union (h t List.mem_cons_self),
      ih fun u hu => h u (List.mem_cons_of_mem t hu)]
    rfl

/-- The alternatives that a type is made of are its members, unless one of them is a union. -/
theorem members_ofAlternatives {ts : List Ty} (hne : ts ≠ [])
    (hflat : ∀ t ∈ ts, ∀ us, t ≠ union us) : (ofAlternatives ts).members = ts := by
  cases ts with
  | nil => exact absurd rfl hne
  | cons t rest =>
    cases rest with
    | nil => exact members_of_not_union (hflat t List.mem_cons_self)
    | cons u rest => rfl

/-- **Building a union in normal form again gives the same union.** -/
theorem unionOf_of_normalHere {ts : List Ty} (h : (union ts).NormalHere) :
    unionOf ts = union ts := by
  obtain ⟨hlength, hflat, hdistinct⟩ := h
  rw [unionOf, flatMap_members_of_not_union hflat, distinct_of_pairwise hdistinct]
  cases ts with
  | nil => simp at hlength
  | cons t ts =>
    cases ts with
    | nil => simp at hlength
    | cons u ts => rfl

/-- None of the alternatives that types in normal form give together is a union. -/
theorem not_union_of_mem_distinct {ts : List Ty} (h : ∀ t ∈ ts, t.NormalHere) {m : Ty}
    (hm : m ∈ distinct (ts.flatMap Ty.members)) : ∀ us, m ≠ union us := by
  obtain ⟨t, ht, hmt⟩ := List.mem_flatMap.mp (mem_of_mem_distinct hm)
  exact (h t ht).not_union hmt

/-- The union of types in normal form at the top is in normal form at the top. -/
theorem normalHere_unionOf {ts : List Ty} (h : ∀ t ∈ ts, t.NormalHere) :
    (unionOf ts).NormalHere :=
  normalHere_ofAlternatives (fun _ hm => not_union_of_mem_distinct h hm) (pairwise_distinct _)

/-- **The union of types in normal form is in normal form.** -/
theorem normal_unionOf {ts : List Ty} (h : ∀ t ∈ ts, t.Normal) : (unionOf ts).Normal := by
  have hmember : ∀ m ∈ distinct (ts.flatMap Ty.members), m.Normal ∧ ∀ us, m ≠ union us := by
    intro m hm
    obtain ⟨t, ht, hmt⟩ := List.mem_flatMap.mp (mem_of_mem_distinct hm)
    exact (h t ht).members hmt
  exact normal_ofAlternatives (fun m hm => (hmember m hm).1) (fun m hm => (hmember m hm).2)
    (pairwise_distinct _)

theorem Normal.optional {t : Ty} (h : t.Normal) (isOptional : Bool) :
    (t.optional isOptional).Normal := by
  cases isOptional with
  | false => exact h
  | true =>
    apply normal_unionOf
    intro u hu
    rcases List.mem_cons.mp hu with rfl | hu
    · exact h
    · rw [List.mem_singleton.mp hu]
      exact normal_keyword .undefined

/-! ### Widening and looking into a type -/

/-- Widening keeps what is no union, or makes a keyword of it. -/
theorem widened_of_not_union {t : Ty} (ht : ∀ us, t ≠ union us) :
    t.widened = t ∨ ∃ k, t.widened = keyword k := by
  cases t with
  | string _ | number _ | boolean _ => exact Or.inr ⟨_, rfl⟩
  | union ts => exact absurd rfl (ht ts)
  | _ => exact Or.inl rfl

theorem Normal.widened {t : Ty} (h : t.Normal) : t.widened.Normal := by
  have hother : ∀ {u : Ty}, u.Normal → (∀ us, u ≠ union us) → u.widened.Normal := by
    intro u hu hunion
    rcases widened_of_not_union hunion with heq | ⟨k, heq⟩
    · rw [heq]
      exact hu
    · rw [heq]
      exact normal_keyword k
  cases t with
  | union ts =>
    show (unionOf (widenedAll ts)).Normal
    rw [widenedAll_eq_map]
    apply normal_unionOf
    intro u hu
    obtain ⟨m, hm, rfl⟩ := List.mem_map.mp hu
    exact hother (h.part hm) (h.here.2.1 m hm)
  | _ => exact hother h fun _ => Ty.noConfusion

mutual

theorem Normal.property? {name : String} : ∀ {t u : Ty}, t.Normal →
    property? name t = some u → u.Normal
  | keyword k, u, _, hu => by
    cases k with
    | any =>
      cases hu
      exact normal_keyword .any
    | _ => cases hu
  | object _ ps, u, h, hu => by
    obtain ⟨p, hp, rfl⟩ := Option.map_eq_some_iff.mp hu
    exact h.part (List.mem_map_of_mem (List.mem_of_find?_eq_some hp))
  | intersection ts, u, h, hu => Normal.firstProperty? (fun _ ht => h.part ht) hu
  | string _, _, _, hu | number _, _, _, hu | boolean _, _, _, hu | array _, _, _, hu
  | tuple _, _, _, hu | union _, _, _, hu | function .., _, _, hu | reference .., _, _, hu => by
    cases hu

theorem Normal.firstProperty? {name : String} : ∀ {ts : List Ty} {u : Ty},
    (∀ t ∈ ts, t.Normal) → firstProperty? name ts = some u → u.Normal
  | [], _, _, hu => by cases hu
  | t :: ts, u, h, hu => by
    rw [Ty.firstProperty?, Option.or_eq_some_iff] at hu
    rcases hu with hu | ⟨-, hu⟩
    · exact Normal.property? (h t (List.mem_cons_self ..)) hu
    · exact Normal.firstProperty? (fun t ht => h t (List.mem_cons_of_mem _ ht)) hu

end

theorem Normal.element? {t u : Ty} {index : Nat} (h : t.Normal)
    (hu : element? index t = some u) : u.Normal := by
  cases t with
  | keyword k =>
    cases k with
    | any =>
      cases hu
      exact normal_keyword .any
    | _ => cases hu
  | array element =>
    cases hu
    exact h.part (List.mem_singleton_self u)
  | tuple ts => exact h.part (List.mem_of_getElem? hu)
  | _ => cases hu

end Ty

/-- What a property inside a type in normal form is declared with is in normal form. -/
theorem Ty.Normal.declared {t : Ty} (h : t.Normal) {name : Option String} {ps : List (Slot Ty)}
    {p : Slot Ty} (hinside : Ty.object name ps ∈ t.inside) (hp : p ∈ ps) : p.declared.Normal := by
  have hobject : (Ty.object name ps).Normal := h.inside hinside
  have htype : p.type.Normal := hobject.part (List.mem_map_of_mem hp)
  exact htype.optional p.optional

end PropCheck
