import PropCheck.Proofs.Height

/-!
# The types inside a type

* `Ty.parts`: the types that a type is directly made of.
* `Ty.inside`: a type and all types inside it, at any depth.
* `Ty.inside_eq`: what is inside a type is the type itself and what is inside its parts.
* `Ty.inside_subset_of_mem_parts`, `Ty.height_lt_of_mem_parts`: a part has less inside it and is
  lower.
* `Ty.inside_subset_of_mem_inside`: so has whatever is inside, at any depth.
-/

namespace PropCheck.Ty

/-- The types that a type is directly made of. -/
def parts : Ty → List Ty
  | keyword _ | string _ | number _ | boolean _ => []
  | array t => [t]
  | tuple ts | union ts | intersection ts | reference _ ts => ts
  | function ps r _ => ps.map (·.type) ++ [r]
  | object _ ps => ps.map (·.type)

mutual

/-- A type and all types inside it. -/
def inside : Ty → List Ty
  | array t => array t :: inside t
  | tuple ts => tuple ts :: insideAll ts
  | union ts => union ts :: insideAll ts
  | intersection ts => intersection ts :: insideAll ts
  | reference name ts => reference name ts :: insideAll ts
  | function ps r m => function ps r m :: (insideSlots ps ++ inside r)
  | object name ps => object name ps :: insideSlots ps
  | t => [t]

def insideAll : List Ty → List Ty
  | [] => []
  | t :: ts => inside t ++ insideAll ts

def insideSlots : List (Slot Ty) → List Ty
  | [] => []
  | ⟨_, t, _⟩ :: ps => inside t ++ insideSlots ps

end

theorem insideAll_eq_flatMap (ts : List Ty) : insideAll ts = ts.flatMap inside := by
  induction ts with
  | nil => rfl
  | cons t ts ih => rw [insideAll, ih, List.flatMap_cons]

theorem insideSlots_eq_flatMap (ps : List (Slot Ty)) :
    insideSlots ps = (ps.map (·.type)).flatMap inside := by
  induction ps with
  | nil => rfl
  | cons p ps ih => rw [insideSlots, ih, List.map_cons, List.flatMap_cons]

theorem inside_eq (t : Ty) : t.inside = t :: t.parts.flatMap inside := by
  cases t <;> simp [inside, parts, insideAll_eq_flatMap, insideSlots_eq_flatMap]

theorem self_mem_inside (t : Ty) : t ∈ t.inside := by
  rw [inside_eq]
  exact List.mem_cons_self ..

theorem inside_subset_of_mem_parts {t u : Ty} (h : u ∈ t.parts) : u.inside ⊆ t.inside := by
  rw [inside_eq t]
  intro v hv
  exact List.mem_cons_of_mem t (List.mem_flatMap.mpr ⟨u, h, hv⟩)

theorem height_lt_of_mem_parts {t u : Ty} (h : u ∈ t.parts) : u.height < t.height := by
  cases t with
  | array t =>
    rw [List.mem_singleton.mp h]
    exact height_lt_array t
  | tuple ts | union ts | intersection ts | reference name ts => exact height_lt_tuple h
  | function ps r m =>
    rcases List.mem_append.mp h with h | h
    · obtain ⟨p, hp, rfl⟩ := List.mem_map.mp h
      exact height_param_lt hp r m
    · rw [List.mem_singleton.mp h]
      exact height_result_lt ps r m
  | object name ps =>
    obtain ⟨p, hp, rfl⟩ := List.mem_map.mp h
    have hle := height_le_propertyHeights hp
    unfold Slot.height at hle
    rw [height]
    split at hle <;> omega
  | _ => exact absurd h List.not_mem_nil

theorem inside_subset_of_mem_inside {t u : Ty} (h : u ∈ t.inside) : u.inside ⊆ t.inside := by
  induction hn : t.height using Nat.strongRecOn generalizing t with
  | ind n ih =>
    subst hn
    rw [inside_eq t, List.mem_cons, List.mem_flatMap] at h
    rcases h with rfl | ⟨v, hv, hu⟩
    · exact List.Subset.refl _
    · exact List.Subset.trans (ih v.height (height_lt_of_mem_parts hv) hu rfl)
        (inside_subset_of_mem_parts hv)

end PropCheck.Ty
