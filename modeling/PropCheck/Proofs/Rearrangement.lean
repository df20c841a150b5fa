import Mathlib.Data.List.Forall2
import PropCheck.Proofs.MergedObjects
import PropCheck.Proofs.Parts

/-!
# Types in another order and under other names

Two types say the same if one is the other with its properties in another order, the members of its
unions in another order or repeated, and its objects and parameters named differently, at any depth.

* `Covers`: two lists have matching elements, in any order and number.
* `Ty.Rearranged`: a type is another one in another order and under other names.
* `Ty.Rearranged.height_eq`: rearranging keeps the height.
* `Ty.DistinctNames`: no object inside a type has two properties of one name.
* `Slot.Alike`: two lists have rearranged slots under each name.
* `Ty.Rearranged.alike`: rearranged objects do, if the names are distinct.
* `Assign.rel_mergeProperties?`: so do the objects that rearranged intersections amount to.
-/

namespace PropCheck

/-! ### Matching elements -/

/-- Each element of one list matches an element of the other. -/
def Covers {α β : Type} (r : α → β → Prop) (xs : List α) (ys : List β) : Prop :=
  (∀ x ∈ xs, ∃ y ∈ ys, r x y) ∧ ∀ y ∈ ys, ∃ x ∈ xs, r x y

namespace Covers

variable {α β : Type} {r : α → β → Prop} {xs xs' : List α} {ys ys' : List β}

theorem left_of_forall₂ (h : List.Forall₂ r xs ys) : ∀ x ∈ xs, ∃ y ∈ ys, r x y := by
  induction h with
  | nil => intro x hx; cases hx
  | cons hr _ ih =>
    intro z hz
    rcases List.mem_cons.mp hz with rfl | hz
    · exact ⟨_, List.mem_cons_self .., hr⟩
    · obtain ⟨y, hy, hzy⟩ := ih z hz
      exact ⟨y, List.mem_cons_of_mem _ hy, hzy⟩

theorem right_of_forall₂ (h : List.Forall₂ r xs ys) : ∀ y ∈ ys, ∃ x ∈ xs, r x y :=
  left_of_forall₂ h.flip

theorem of_forall₂ (h : List.Forall₂ r xs ys) : Covers r xs ys :=
  ⟨left_of_forall₂ h, right_of_forall₂ h⟩

/-- Each list is matched, place by place, with elements of the other. -/
theorem of_forall₂_subset (h : List.Forall₂ r xs ys') (hys : ys' ⊆ ys)
    (h' : List.Forall₂ r xs' ys) (hxs : xs' ⊆ xs) : Covers r xs ys := by
  constructor
  · intro x hx
    obtain ⟨y, hy, hxy⟩ := left_of_forall₂ h x hx
    exact ⟨y, hys hy, hxy⟩
  · intro y hy
    obtain ⟨x, hx, hxy⟩ := right_of_forall₂ h' y hy
    exact ⟨x, hxs hx, hxy⟩

theorem of_perm_forall₂ (hperm : xs.Perm xs') (h : List.Forall₂ r xs' ys) : Covers r xs ys := by
  constructor
  · intro x hx
    exact left_of_forall₂ h x (hperm.mem_iff.mp hx)
  · intro y hy
    obtain ⟨x, hx, hxy⟩ := right_of_forall₂ h y hy
    exact ⟨x, hperm.mem_iff.mpr hx, hxy⟩

variable {p : α → Bool} {q : β → Bool}

theorem all_eq (h : Covers r xs ys) (hpq : ∀ x ∈ xs, ∀ y ∈ ys, r x y → p x = q y) :
    xs.all p = ys.all q := by
  rw [Bool.eq_iff_iff, List.all_eq_true, List.all_eq_true]
  constructor
  · intro hall y hy
    obtain ⟨x, hx, hxy⟩ := h.2 y hy
    rw [← hpq x hx y hy hxy]
    exact hall x hx
  · intro hall x hx
    obtain ⟨y, hy, hxy⟩ := h.1 x hx
    rw [hpq x hx y hy hxy]
    exact hall y hy

theorem any_eq (h : Covers r xs ys) (hpq : ∀ x ∈ xs, ∀ y ∈ ys, r x y → p x = q y) :
    xs.any p = ys.any q := by
  rw [List.any_eq_not_all_not, List.any_eq_not_all_not]
  congr 1
  exact h.all_eq fun x hx y hy hxy => congrArg Bool.not (hpq x hx y hy hxy)

/-- Matching elements of the same size have the same least bound. -/
theorem bound_eq {f : α → Nat} {g : β → Nat} {m n : Nat} (h : Covers r xs ys)
    (hfg : ∀ x ∈ xs, ∀ y ∈ ys, r x y → f x = g y) (hm : ∀ {k}, m ≤ k ↔ ∀ x ∈ xs, f x ≤ k)
    (hn : ∀ {k}, n ≤ k ↔ ∀ y ∈ ys, g y ≤ k) : m = n := by
  apply Nat.le_antisymm
  · apply hm.mpr
    intro x hx
    obtain ⟨y, hy, hxy⟩ := h.1 x hx
    rw [hfg x hx y hy hxy]
    exact hn.mp (Nat.le_refl n) y hy
  · apply hn.mpr
    intro y hy
    obtain ⟨x, hx, hxy⟩ := h.2 y hy
    rw [← hfg x hx y hy hxy]
    exact hm.mp (Nat.le_refl m) x hx

end Covers

namespace Ty

/-! ### Rearranged types -/

/-- A type is another one in another order and under other names: the names of objects and
parameters count for nothing, properties may be permuted, and the members of unions may be permuted
and repeated, here and in all parts. -/
inductive Rearranged : Ty → Ty → Prop where
  | keyword (k : Keyword) : Rearranged (keyword k) (keyword k)
  | string (value : String) : Rearranged (string value) (string value)
  | number (value : Double) : Rearranged (number value) (number value)
  | boolean (value : Bool) : Rearranged (boolean value) (boolean value)
  | array {t u : Ty} : Rearranged t u → Rearranged (array t) (array u)
  | tuple {ts us : List Ty} : List.Forall₂ Rearranged ts us → Rearranged (tuple ts) (tuple us)
  -- each side is matched, place by place, with members of the other
  | union {ts ts' us us' : List Ty} :
    List.Forall₂ Rearranged ts us' → us' ⊆ us → List.Forall₂ Rearranged ts' us → ts' ⊆ ts →
      Rearranged (union ts) (union us)
  | intersection {ts us : List Ty} :
    List.Forall₂ Rearranged ts us → Rearranged (intersection ts) (intersection us)
  | function {ps qs : List (Slot Ty)} {r s : Ty} (method : Bool) :
    ps.map (·.optional) = qs.map (·.optional) →
      List.Forall₂ Rearranged (ps.map (·.type)) (qs.map (·.type)) → Rearranged r s →
        Rearranged (function ps r method) (function qs s method)
  -- the properties change places first, and then match place by place
  | object {ps ps' qs : List (Slot Ty)} (a b : Option String) :
    ps.Perm ps' → ps'.map (·.name) = qs.map (·.name) →
      ps'.map (·.optional) = qs.map (·.optional) →
        List.Forall₂ Rearranged (ps'.map (·.type)) (qs.map (·.type)) →
          Rearranged (object a ps) (object b qs)
  | reference {ts us : List Ty} (name : String) :
    List.Forall₂ Rearranged ts us → Rearranged (reference name ts) (reference name us)

end Ty

/-- A slot is another one of the same name, and its type is rearranged. -/
structure Slot.Rearranged (p q : Slot Ty) : Prop where
  name_eq : p.name = q.name
  optional_eq : p.optional = q.optional
  type : p.type.Rearranged q.type

theorem Slot.forall₂_rearranged {ps qs : List (Slot Ty)}
    (hname : ps.map (·.name) = qs.map (·.name))
    (hoptional : ps.map (·.optional) = qs.map (·.optional))
    (htype : List.Forall₂ Ty.Rearranged (ps.map (·.type)) (qs.map (·.type))) :
    List.Forall₂ Slot.Rearranged ps qs := by
  induction ps generalizing qs with
  | nil =>
    cases qs with
    | nil => exact .nil
    | cons q qs => cases hname
  | cons p ps ih =>
    cases qs with
    | nil => cases hname
    | cons q qs =>
      rw [List.map_cons, List.map_cons, List.cons.injEq] at hname hoptional
      rw [List.map_cons, List.map_cons, List.forall₂_cons] at htype
      exact .cons ⟨hname.1, hoptional.1, htype.1⟩ (ih hname.2 hoptional.2 htype.2)

namespace Ty

variable {t u : Ty}

/-! ### What stays at the top -/

theorem Rearranged.eq_keyword_iff (h : t.Rearranged u) {k : Keyword} :
    t = .keyword k ↔ u = .keyword k := by
  cases h <;> simp

theorem Rearranged.eq_boolean_iff (h : t.Rearranged u) {b : Bool} :
    t = .boolean b ↔ u = .boolean b := by
  cases h <;> simp

theorem Rearranged.exists_union {ts : List Ty} (h : (Ty.union ts).Rearranged u) :
    ∃ us, u = .union us ∧ Covers Rearranged ts us := by
  cases h with
  | union h hus h' hts => exact ⟨_, rfl, .of_forall₂_subset h hus h' hts⟩

theorem Rearranged.exists_object {a : Option String} {ps : List (Slot Ty)}
    (h : (Ty.object a ps).Rearranged u) :
    ∃ b qs, u = .object b qs ∧ Covers Slot.Rearranged ps qs := by
  cases h with
  | object _ b hperm hname hoptional htype =>
    exact ⟨b, _, rfl, .of_perm_forall₂ hperm (Slot.forall₂_rearranged hname hoptional htype)⟩

theorem Rearranged.ordinary (h : t.Rearranged u) (ht : t.Ordinary) : u.Ordinary where
  not_any := mt h.eq_keyword_iff.mpr ht.not_any
  not_never := mt h.eq_keyword_iff.mpr ht.not_never
  not_unknown := mt h.eq_keyword_iff.mpr ht.not_unknown
  not_union us := by
    rintro rfl
    cases h with
    | union => exact ht.not_union _ rfl

theorem Rearranged.plain (h : t.Rearranged u) (ht : t.Plain) : u.Plain where
  not_any := mt h.eq_keyword_iff.mpr ht.not_any
  not_unknown := mt h.eq_keyword_iff.mpr ht.not_unknown
  not_union us := by
    rintro rfl
    cases h with
    | union => exact ht.not_union _ rfl
  not_intersection us := by
    rintro rfl
    cases h with
    | intersection => exact ht.not_intersection _ rfl

/-- Nothing needs to change. -/
theorem Rearranged.refl (t : Ty) : t.Rearranged t := by
  induction hn : t.height using Nat.strongRecOn generalizing t with
  | ind n ih =>
    subst hn
    have hparts : ∀ u ∈ t.parts, u.Rearranged u :=
      fun u hu => ih u.height (height_lt_of_mem_parts hu) u rfl
    cases t with
    | keyword k => exact .keyword k
    | string value => exact .string value
    | number value => exact .number value
    | boolean value => exact .boolean value
    | array t => exact .array (hparts t (List.mem_singleton_self t))
    | tuple ts => exact .tuple (List.forall₂_same.mpr hparts)
    | union ts =>
      have hsame := List.forall₂_same.mpr hparts
      exact .union hsame (List.Subset.refl ts) hsame (List.Subset.refl ts)
    | intersection ts => exact .intersection (List.forall₂_same.mpr hparts)
    | function ps r method =>
      have hparams : ∀ u ∈ ps.map (·.type), u.Rearranged u :=
        fun u hu => hparts u (List.mem_append_left _ hu)
      exact .function method rfl (List.forall₂_same.mpr hparams)
        (hparts r (List.mem_append_right _ (List.mem_singleton_self r)))
    | object name ps => exact .object name name (.refl ps) rfl rfl (List.forall₂_same.mpr hparts)
    | reference name ts => exact .reference name (List.forall₂_same.mpr hparts)

/-! ### Heights -/

theorem heights_eq_of_covers {ts us : List Ty} (h : Covers Rearranged ts us)
    (hheight : ∀ t ∈ ts, ∀ u, t.Rearranged u → t.height = u.height) :
    heights ts = heights us :=
  h.bound_eq (fun t ht u _ => hheight t ht u) heights_le_iff heights_le_iff

theorem paramHeights_eq_heights (ps : List (Slot Ty)) :
    paramHeights ps = heights (ps.map (·.type)) := by
  induction ps with
  | nil => rfl
  | cons p ps ih => rw [paramHeights, ih, List.map_cons, heights]

/-- **Rearranging keeps the height.** -/
theorem Rearranged.height_eq (h : t.Rearranged u) : t.height = u.height := by
  induction hn : t.height using Nat.strongRecOn generalizing t u with
  | ind n ih =>
    subst hn
    have hparts : ∀ v ∈ t.parts, ∀ w, v.Rearranged w → v.height = w.height :=
      fun v hv w hw => ih v.height (height_lt_of_mem_parts hv) hw rfl
    cases h with
    | keyword | string | number | boolean => rfl
    | array h => rw [height, height, hparts _ (List.mem_singleton_self _) _ h]
    | tuple h | intersection h | reference _ h =>
      rw [height, height, heights_eq_of_covers (.of_forall₂ h) hparts]
    | union h hus h' hts =>
      rw [height, height, heights_eq_of_covers (.of_forall₂_subset h hus h' hts) hparts]
    | function method _ htype hresult =>
      have hresultHeight := hparts _ (List.mem_append_right _ (List.mem_singleton_self _)) _ hresult
      rw [height, height, hresultHeight, paramHeights_eq_heights, paramHeights_eq_heights,
        heights_eq_of_covers (.of_forall₂ htype)
          fun v hv => hparts v (List.mem_append_left _ hv)]
    | @object ps ps' qs a b hperm hname hoptional htype =>
      have hcovers : Covers Slot.Rearranged ps qs :=
        .of_perm_forall₂ hperm (Slot.forall₂_rearranged hname hoptional htype)
      have hslots : ∀ p ∈ ps, ∀ q ∈ qs, p.Rearranged q → p.height = q.height := by
        intro p hp q _ hpq
        unfold Slot.height
        rw [hpq.optional_eq, hparts p.type (List.mem_map_of_mem hp) q.type hpq.type]
      rw [height, height, hcovers.bound_eq hslots propertyHeights_le_iff propertyHeights_le_iff]

/-! ### Distinct names -/

/-- No object inside the type has two properties of one name. -/
def DistinctNames (t : Ty) : Prop :=
  ∀ name ps, object name ps ∈ t.inside → (ps.map (·.name)).Nodup

theorem DistinctNames.part (h : t.DistinctNames) (hu : u ∈ t.parts) : u.DistinctNames :=
  fun name ps hps => h name ps (inside_subset_of_mem_parts hu hps)

theorem distinctNames_keyword (k : Keyword) : (keyword k).DistinctNames := by
  intro name ps hps
  cases List.mem_singleton.mp hps

theorem DistinctNames.nodup {name : Option String} {ps : List (Slot Ty)}
    (h : (object name ps).DistinctNames) : (ps.map (·.name)).Nodup :=
  h name ps (self_mem_inside _)

end Ty

/-! ### Slots by name -/

namespace Slot

variable {ps ps' qs qs' : List (Slot Ty)}

/-- Two lists have rearranged slots under each name. -/
def Alike (ps qs : List (Slot Ty)) : Prop :=
  ∀ name, Option.Rel Slot.Rearranged (Slot.find? ps name) (Slot.find? qs name)

theorem find?_eq_of_perm (hnodup : (ps.map (·.name)).Nodup) (hperm : ps.Perm ps')
    (name : String) : Slot.find? ps name = Slot.find? ps' name := by
  cases hfind : Slot.find? ps name with
  | none =>
    have hnot : ¬ name ∈ ps'.map (·.name) := by
      rw [← (hperm.map _).mem_iff, ← isSome_find?, hfind]
      exact Bool.false_ne_true
    rw [← isSome_find?, Bool.not_eq_true, Option.isSome_eq_false_iff, Option.isNone_iff_eq_none]
      at hnot
    exact hnot.symm
  | some p =>
    have hp : p ∈ ps' := hperm.mem_iff.mp (mem_of_find? hfind)
    rw [← name_of_find? hfind]
    exact (find?_eq_some_of_mem ((hperm.map _).nodup_iff.mp hnodup) hp).symm

theorem alike_of_forall₂ (h : List.Forall₂ Slot.Rearranged ps qs) : Alike ps qs := by
  intro name
  induction h with
  | nil => exact .none
  | @cons p q ps qs hpq _ ih =>
    unfold Slot.find?
    rw [List.find?_cons, List.find?_cons, ← hpq.name_eq]
    cases p.name == name with
    | true => exact .some hpq
    | false => exact ih

/-- Adding slots that are alike keeps slots alike. -/
theorem Alike.foldl_addProperty (h : Alike ps qs) (h' : Alike ps' qs') :
    Alike (ps'.foldl Assign.addProperty ps) (qs'.foldl Assign.addProperty qs) := by
  intro name
  rw [Assign.find?_foldl_addProperty, Assign.find?_foldl_addProperty]
  have hname := h name
  have hname' := h' name
  generalize Slot.find? ps name = p at hname ⊢
  generalize Slot.find? qs name = q at hname ⊢
  cases hname with
  | none => exact hname'
  | some hpq => exact .some hpq

end Slot

/-- **Rearranged objects have rearranged properties under each name**, if the names are distinct. -/
theorem Ty.Rearranged.alike {a b : Option String} {ps qs : List (Slot Ty)}
    (h : (Ty.object a ps).Rearranged (.object b qs)) (hnodup : (ps.map (·.name)).Nodup) :
    Slot.Alike ps qs := by
  cases h with
  | object _ _ hperm hname hoptional htype =>
    intro name
    rw [Slot.find?_eq_of_perm hnodup hperm]
    exact Slot.alike_of_forall₂ (Slot.forall₂_rearranged hname hoptional htype) name

namespace Assign

theorem rel_mergeProperties? {ss ts : List Ty} (h : List.Forall₂ Ty.Rearranged ss ts)
    (hdistinct : ∀ s ∈ ss, s.DistinctNames) {ps qs : List (Slot Ty)} (hslots : Slot.Alike ps qs) :
    Option.Rel Slot.Alike (mergeProperties? ss ps) (mergeProperties? ts qs) := by
  induction h generalizing ps qs with
  | nil => exact .some hslots
  | @cons s t ss ts hst _ ih =>
    have hs := hdistinct s (List.mem_cons_self ..)
    have hss : ∀ s ∈ ss, s.DistinctNames := fun u hu => hdistinct u (List.mem_cons_of_mem s hu)
    cases hst with
    | object a b hperm hname hoptional htype =>
      have halike := (Ty.Rearranged.object a b hperm hname hoptional htype).alike hs.nodup
      exact ih hss (hslots.foldl_addProperty halike)
    | _ => exact .none

end Assign

end PropCheck
