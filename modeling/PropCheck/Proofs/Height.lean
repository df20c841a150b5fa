import PropCheck.Assignability.Relation

/-!
# The height of a type

The relation of two types goes down through both of them, and the types it asks about next are
built from their parts.  The height measures how far it can go.

* `Ty.height`: one for a keyword, a literal and an object without properties, and one more than the
  highest part for any other type; a property that may be left out counts one more.
* `Ty.height_optional_le`: making a type optional adds at most one level, although the union it
  becomes is flattened and freed of duplicates.
* `Ty.height_declared_lt`: what a property is declared with is lower than its object.
* `Assign.height_merged_lt`: the object that an intersection amounts to is lower than the
  intersection.
-/

namespace PropCheck

namespace Ty

mutual

/-- How many levels a type has.  Every height is at least one, so the properties of an object that
has some need no bound from below. -/
def height : Ty → Nat
  | keyword _ | string _ | number _ | boolean _ => 1
  | array t => 1 + max 1 (height t)
  | tuple ts | union ts | intersection ts | reference _ ts => 1 + max 1 (heights ts)
  | function ps r _ => 1 + max 1 (max (paramHeights ps) (height r))
  | object _ ps => 1 + propertyHeights ps

def heights : List Ty → Nat
  | [] => 0
  | t :: ts => max (height t) (heights ts)

def paramHeights : List (Slot Ty) → Nat
  | [] => 0
  | ⟨_, t, _⟩ :: ps => max (height t) (paramHeights ps)

def propertyHeights : List (Slot Ty) → Nat
  | [] => 0
  | ⟨_, t, isOptional⟩ :: ps =>
    max (if isOptional then height t + 1 else height t) (propertyHeights ps)

end

end Ty

/-- The height of a property: that of its type, and one more if it may be left out. -/
def Slot.height (p : Slot Ty) : Nat :=
  if p.optional then p.type.height + 1 else p.type.height

namespace Ty

theorem one_le_height (t : Ty) : 1 ≤ t.height := by
  cases t with
  | keyword | string | number | boolean => exact Nat.le_refl 1
  | _ => exact Nat.le_add_right 1 _

/-! ### Lists of parts -/

/-- The largest of some numbers, one for each thing of a list, is bounded by what bounds each of
them.  The heights of types, of parameters and of properties are such maxima, defined together. -/
theorem highest_le_iff {α : Type} {highest : List α → Nat} {measure : α → Nat}
    (hnil : highest [] = 0) (hcons : ∀ x xs, highest (x :: xs) = max (measure x) (highest xs))
    {xs : List α} {n : Nat} : highest xs ≤ n ↔ ∀ x ∈ xs, measure x ≤ n := by
  induction xs with
  | nil =>
    rw [hnil]
    exact iff_of_true (Nat.zero_le n) fun x hx => absurd hx List.not_mem_nil
  | cons x xs ih => rw [hcons, Nat.max_le, ih, List.forall_mem_cons]

theorem heights_le_iff {ts : List Ty} {n : Nat} : heights ts ≤ n ↔ ∀ t ∈ ts, t.height ≤ n :=
  highest_le_iff rfl fun _ _ => rfl

theorem paramHeights_le_iff {ps : List (Slot Ty)} {n : Nat} :
    paramHeights ps ≤ n ↔ ∀ p ∈ ps, p.type.height ≤ n :=
  highest_le_iff rfl fun _ _ => rfl

theorem propertyHeights_le_iff {ps : List (Slot Ty)} {n : Nat} :
    propertyHeights ps ≤ n ↔ ∀ p ∈ ps, p.height ≤ n :=
  highest_le_iff rfl fun _ _ => rfl

theorem propertyHeights_append (ps qs : List (Slot Ty)) :
    propertyHeights (ps ++ qs) = max (propertyHeights ps) (propertyHeights qs) := by
  induction ps with
  | nil => exact (Nat.zero_max _).symm
  | cons p ps ih =>
    show max p.height (propertyHeights (ps ++ qs))
      = max (max p.height (propertyHeights ps)) (propertyHeights qs)
    rw [ih, Nat.max_assoc]

theorem height_le_heights {t : Ty} {ts : List Ty} (h : t ∈ ts) : t.height ≤ heights ts :=
  heights_le_iff.mp (Nat.le_refl _) t h

theorem height_le_paramHeights {p : Slot Ty} {ps : List (Slot Ty)} (h : p ∈ ps) :
    p.type.height ≤ paramHeights ps :=
  paramHeights_le_iff.mp (Nat.le_refl _) p h

theorem height_le_propertyHeights {p : Slot Ty} {ps : List (Slot Ty)} (h : p ∈ ps) :
    p.height ≤ propertyHeights ps :=
  propertyHeights_le_iff.mp (Nat.le_refl _) p h

/-! ### Parts are lower -/

theorem height_lt_array (t : Ty) : t.height < (array t).height := by
  show t.height < 1 + max 1 t.height
  omega

theorem height_lt_tuple {t : Ty} {ts : List Ty} (h : t ∈ ts) : t.height < (tuple ts).height := by
  have hle := height_le_heights h
  show t.height < 1 + max 1 (heights ts)
  omega

theorem height_lt_union {t : Ty} {ts : List Ty} (h : t ∈ ts) : t.height < (union ts).height :=
  height_lt_tuple h

theorem height_lt_intersection {t : Ty} {ts : List Ty} (h : t ∈ ts) :
    t.height < (intersection ts).height :=
  height_lt_tuple h

theorem height_lt_reference {t : Ty} {name : String} {ts : List Ty} (h : t ∈ ts) :
    t.height < (reference name ts).height :=
  height_lt_tuple h

theorem height_param_lt {p : Slot Ty} {ps : List (Slot Ty)} (h : p ∈ ps) (r : Ty) (m : Bool) :
    p.type.height < (function ps r m).height := by
  have hle := height_le_paramHeights h
  show p.type.height < 1 + max 1 (max (paramHeights ps) r.height)
  omega

theorem height_result_lt (ps : List (Slot Ty)) (r : Ty) (m : Bool) :
    r.height < (function ps r m).height := by
  show r.height < 1 + max 1 (max (paramHeights ps) r.height)
  omega

/-! ### Unions that are built -/

theorem mem_of_mem_insertNew {seen : List Ty} {t u : Ty} (h : u ∈ insertNew seen t) :
    u ∈ seen ∨ u = t := by
  unfold insertNew at h
  split at h
  · exact Or.inl h
  · rwa [List.mem_append, List.mem_singleton] at h

theorem mem_of_mem_foldl_insertNew {ts seen : List Ty} {u : Ty}
    (h : u ∈ ts.foldl insertNew seen) : u ∈ seen ∨ u ∈ ts := by
  induction ts generalizing seen with
  | nil => exact Or.inl h
  | cons t ts ih =>
    rw [List.foldl_cons] at h
    rcases ih h with h | h
    · rcases mem_of_mem_insertNew h with h | rfl
      · exact Or.inl h
      · exact Or.inr (List.mem_cons_self ..)
    · exact Or.inr (List.mem_cons_of_mem t h)

theorem mem_of_mem_distinct {ts : List Ty} {u : Ty} (h : u ∈ distinct ts) : u ∈ ts := by
  rcases mem_of_mem_foldl_insertNew h with h | h
  · exact absurd h (List.not_mem_nil)
  · exact h

theorem height_ofAlternatives_le {ts : List Ty} {n : Nat} (hn : 1 ≤ n)
    (h : ∀ t ∈ ts, t.height ≤ n) : (ofAlternatives ts).height ≤ n + 1 := by
  unfold ofAlternatives
  split
  · show 1 ≤ n + 1
    omega
  · exact Nat.le_succ_of_le (h _ (List.mem_singleton_self _))
  · have hs := heights_le_iff.mpr h
    show 1 + max 1 (heights ts) ≤ n + 1
    omega

theorem height_unionOf_le {ts : List Ty} {n : Nat} (hn : 1 ≤ n)
    (h : ∀ t ∈ ts, ∀ m ∈ t.members, m.height ≤ n) : (unionOf ts).height ≤ n + 1 := by
  apply height_ofAlternatives_le hn
  intro m hm
  obtain ⟨t, ht, hmt⟩ := List.mem_flatMap.mp (mem_of_mem_distinct hm)
  exact h t ht m hmt

/-- The members of a type are no higher than the type. -/
theorem height_le_of_mem_members {t m : Ty} (h : m ∈ t.members) : m.height ≤ t.height := by
  unfold members at h
  split at h
  · have hm := height_le_heights h
    show m.height ≤ 1 + max 1 (heights _)
    omega
  · exact Nat.le_of_eq (congrArg height (List.mem_singleton.mp h))

theorem height_optional_le (t : Ty) (isOptional : Bool) :
    (t.optional isOptional).height ≤ if isOptional then t.height + 1 else t.height := by
  cases isOptional with
  | false => exact Nat.le_refl _
  | true =>
    show (unionOf [t, undefined]).height ≤ t.height + 1
    apply height_unionOf_le t.one_le_height
    intro u hu m hm
    rcases List.mem_cons.mp hu with rfl | hu
    · exact height_le_of_mem_members hm
    · rw [List.mem_singleton.mp hu] at hm
      rw [List.mem_singleton.mp hm]
      exact t.one_le_height

end Ty

theorem Slot.height_declared_le (p : Slot Ty) : p.declared.height ≤ p.height :=
  p.type.height_optional_le p.optional

theorem Ty.height_declared_lt {p : Slot Ty} {ps : List (Slot Ty)} (h : p ∈ ps)
    (name : Option String) : p.declared.height < (object name ps).height := by
  have hle := height_le_propertyHeights h
  have hd := p.height_declared_le
  show p.declared.height < 1 + propertyHeights ps
  omega

/-! ### Merged objects -/

namespace Assign

theorem mem_of_mem_foldl_addProperty {ps merged : List (Slot Ty)} {q : Slot Ty}
    (h : q ∈ ps.foldl addProperty merged) : q ∈ merged ∨ q ∈ ps := by
  induction ps generalizing merged with
  | nil => exact Or.inl h
  | cons p ps ih =>
    rw [List.foldl_cons] at h
    rcases ih h with h | h
    · unfold addProperty at h
      split at h
      · exact Or.inl h
      · rcases List.mem_append.mp h with h | h
        · exact Or.inl h
        · exact Or.inr (List.mem_cons.mpr (Or.inl (List.mem_singleton.mp h)))
    · exact Or.inr (List.mem_cons_of_mem p h)

/-- Every property of the merged object is a property of one of the members. -/
theorem mem_of_mem_mergeProperties {ts : List Ty} {merged ps : List (Slot Ty)} {q : Slot Ty}
    (h : mergeProperties? ts merged = some ps) (hq : q ∈ ps) :
    q ∈ merged ∨ ∃ name qs, Ty.object name qs ∈ ts ∧ q ∈ qs := by
  induction ts generalizing merged with
  | nil =>
    cases h
    exact Or.inl hq
  | cons t ts ih =>
    cases t with
    | object name qs =>
      rcases ih h with hq | ⟨name', qs', hmem, hq⟩
      · rcases mem_of_mem_foldl_addProperty hq with hq | hq
        · exact Or.inl hq
        · exact Or.inr ⟨name, qs, List.mem_cons_self .., hq⟩
      · exact Or.inr ⟨name', qs', List.mem_cons_of_mem _ hmem, hq⟩
    | _ => cases h

theorem height_merged_lt {ts : List Ty} {t : Ty} (h : merged? ts = some t) :
    t.height < (Ty.intersection ts).height := by
  obtain ⟨ps, hps, rfl⟩ := Option.map_eq_some_iff.mp h
  -- a property of the merged object is one level below the member it comes from
  have hle : Ty.propertyHeights ps ≤ Ty.heights ts - 1 := by
    apply Ty.propertyHeights_le_iff.mpr
    intro q hq
    rcases mem_of_mem_mergeProperties hps hq with hq | ⟨name, qs, hmem, hq⟩
    · exact absurd hq List.not_mem_nil
    · have hq' := Ty.height_le_propertyHeights hq
      have hm := Ty.height_le_heights hmem
      change 1 + Ty.propertyHeights qs ≤ Ty.heights ts at hm
      omega
  show 1 + Ty.propertyHeights ps < 1 + max 1 (Ty.heights ts)
  omega

end Assign

end PropCheck
