import PropCheck.Proofs.Intersections

/-!
# How objects are related

An object as the source counts only for what it has under each name: the first property of the name,
if there is one.

* `find?_eq_some_of_nodup`, `Slot.find?_eq_some_of_mem`: where the names are distinct, the first of
  a name is the only one.
* `Assign.supplies`: an object has what a property of the target asks for.
* `Assign.relates_objects`: an object is related to another exactly if it has what each property of
  the other asks for.
* `Assign.relates_object_congr`: a plain target looks at an object only under the names it asks for
  itself.
-/

namespace PropCheck

/-! ### The first of a name -/

/-- Where the keys are distinct, each thing is the first of its key. -/
theorem find?_eq_some_of_nodup {α : Type} {key : α → String} {xs : List α} {x : α}
    (hnodup : (xs.map key).Nodup) (hx : x ∈ xs) : xs.find? (key · == key x) = some x := by
  induction xs with
  | nil => cases hx
  | cons y xs ih =>
    rw [List.map_cons, List.nodup_cons] at hnodup
    rcases List.mem_cons.mp hx with rfl | hx
    · exact List.find?_cons_of_pos (beq_self_eq_true _)
    · have hne : key y ≠ key x := by
        intro heq
        rw [heq] at hnodup
        exact hnodup.1 (List.mem_map_of_mem hx)
      rw [List.find?_cons_of_neg (by simpa using hne)]
      exact ih hnodup.2 hx

namespace Slot

variable {α : Type} {slots : List (Slot α)} {p : Slot α} {name : String}

/-- With distinct names, every slot is the first of its name. -/
theorem find?_eq_some_of_mem (hnodup : (slots.map (·.name)).Nodup) (hp : p ∈ slots) :
    Slot.find? slots p.name = some p :=
  find?_eq_some_of_nodup hnodup hp

theorem name_of_find? (h : Slot.find? slots name = some p) : p.name = name :=
  beq_iff_eq.mp (List.find?_some h :)

theorem mem_of_find? (h : Slot.find? slots name = some p) : p ∈ slots :=
  List.mem_of_find?_eq_some h

theorem find?_append (first second : List (Slot α)) (name : String) :
    Slot.find? (first ++ second) name = (Slot.find? first name).or (Slot.find? second name) :=
  List.find?_append

theorem isSome_find? : (Slot.find? slots name).isSome = true ↔ name ∈ slots.map (·.name) := by
  simp [Slot.find?, List.find?_isSome]

end Slot

namespace Assign

variable {options : Options}

/-! ### Objects against objects -/

/-- Whether an object with some properties has what a property of the target asks for: a property of
its name that is not less certain to be there and whose type is related, or none where none is
needed. -/
def supplies (options : Options) (ps : List (Slot Ty)) (q : Slot Ty) : Bool :=
  match Slot.find? ps q.name with
  | some p => (!p.optional || q.optional) && relates options p.declared q.declared
  | none => q.optional

theorem supplies_iff {ps : List (Slot Ty)} {q : Slot Ty} :
    supplies options ps q = true
      ↔ (q.optional = false → ∃ p, Slot.find? ps q.name = some p ∧ p.optional = false) ∧
        ∀ p, Slot.find? ps q.name = some p → relates options p.declared q.declared = true := by
  unfold supplies
  cases Slot.find? ps q.name with
  | none => simp
  | some p =>
    simp only [Option.some.injEq, exists_eq_left', forall_eq', Bool.and_eq_true]
    cases p.optional <;> cases q.optional <;> simp

theorem propertyRelated_eq_supplies (ps : List (Slot Ty)) (q : Slot Ty) :
    propertyRelated (fun a b => .ok (relates options a b)) ps q = .ok (supplies options ps q) := by
  unfold propertyRelated supplies
  cases Slot.find? ps q.name with
  | none => rfl
  | some p =>
    show (if p.optional && !q.optional then Except.ok false else Except.ok _)
      = Except.ok ((!p.optional || q.optional) && relates options p.declared q.declared)
    cases p.optional <;> cases q.optional <;> rfl

/-- **An object is related to another exactly if it has what each property of the other asks
for.** -/
theorem relates_objects (a b : Option String) (ps qs : List (Slot Ty)) :
    relates options (.object a ps) (.object b qs) = qs.all (supplies options ps) := by
  apply relates_of_step
  show allOf (propertyRelated (fun a b => .ok (relates options a b)) ps) qs = _
  rw [funext (propertyRelated_eq_supplies ps)]
  exact allOf_ok _ qs

theorem supplies_congr {ps ps' : List (Slot Ty)} {q : Slot Ty}
    (h : Slot.find? ps q.name = Slot.find? ps' q.name) :
    supplies options ps q = supplies options ps' q := by
  unfold supplies
  rw [h]

/-- **A plain target looks at an object only under the names it asks for itself.** -/
theorem relates_object_congr {t : Ty} (ht : t.Plain) (a b : Option String)
    {ps ps' : List (Slot Ty)}
    (h : ∀ c qs, t = .object c qs → ∀ q ∈ qs, Slot.find? ps q.name = Slot.find? ps' q.name) :
    relates options (.object a ps) t = relates options (.object b ps') t := by
  by_cases hobject : ∃ c qs, t = .object c qs
  · obtain ⟨c, qs, rfl⟩ := hobject
    rw [relates_objects, relates_objects, Bool.eq_iff_iff, List.all_eq_true, List.all_eq_true]
    refine forall₂_congr fun q hq => ?_
    rw [supplies_congr (h c qs rfl q hq)]
  · apply Except.ok.inj
    rw [ok_relates_eq_simpleRelated (Ty.ordinary_object a ps) (fun _ => Ty.noConfusion) ht,
      ok_relates_eq_simpleRelated (Ty.ordinary_object b ps') (fun _ => Ty.noConfusion) ht]
    cases t with
    | keyword k => cases k <;> rfl
    | object c qs => exact absurd ⟨c, qs, rfl⟩ hobject
    | _ => rfl

end Assign

end PropCheck
