import PropCheck.Proofs.FirstOfEach
import PropCheck.Proofs.Objects

/-!
# The object that an intersection amounts to

An intersection of objects amounts to one object, which is made by going through the properties of
all its members and adding those whose names are not there yet.  The relation uses this object;
destructuring does not, and asks the members one after the other instead.

* `Assign.find?_addProperty`, `Assign.find?_foldl_addProperty`: merging properties keeps the first
  of each name.
* `Assign.foldl_addProperty`: it keeps nothing else, and in the order of the places.
* `Assign.mergeProperties?_objects`: merging objects is merging all their properties.
* `Assign.relates_intersection_objects`: to the relation, an intersection of objects reads as one of
  them, or as the object with all their properties one after the other, of which the first of a name
  counts.
* `Ty.property?_intersection_objects`: to destructuring it reads as that object.
* `Assign.destructuring_sees_merged`: destructuring finds what is in the merged object.
-/

namespace PropCheck

namespace Assign

/-! ### Merged properties -/

theorem find?_addProperty (merged : List (Slot Ty)) (p : Slot Ty) (name : String) :
    Slot.find? (addProperty merged p) name
      = (Slot.find? merged name).or (Slot.find? [p] name) := by
  unfold addProperty
  split
  · rename_i hsome
    by_cases hname : p.name = name
    · -- the property is not added, since there is one of its name
      subst hname
      obtain ⟨q, hq⟩ := Option.isSome_iff_exists.mp hsome
      rw [hq, Option.some_or]
    · rw [show Slot.find? [p] name = none by simpa [Slot.find?] using hname, Option.or_none]
  · exact Slot.find?_append merged [p] name

/-- **Merging properties keeps the first of each name.** -/
theorem find?_foldl_addProperty (ps merged : List (Slot Ty)) (name : String) :
    Slot.find? (ps.foldl addProperty merged) name
      = (Slot.find? merged name).or (Slot.find? ps name) := by
  induction ps generalizing merged with
  | nil => exact (Option.or_none).symm
  | cons p ps ih =>
    have hcons : Slot.find? (p :: ps) name = (Slot.find? [p] name).or (Slot.find? ps name) :=
      Slot.find?_append [p] ps name
    rw [List.foldl_cons, ih, find?_addProperty, hcons, Option.or_assoc]

/-- **The merged properties** are those there were and the first of each new name. -/
theorem foldl_addProperty (ps merged : List (Slot Ty)) :
    ps.foldl addProperty merged
      = merged ++ firstOfEach (·.name) (merged.map (·.name)) ps := by
  apply foldl_eq_append_firstOfEach
  intro kept p
  simp only [addProperty, Slot.isSome_find?]

/-! ### Intersections of objects -/

/-- Objects are merged by merging all their properties, one after the other. -/
theorem mergeProperties?_objects (objects : List (Option String × List (Slot Ty)))
    (merged : List (Slot Ty)) :
    mergeProperties? (objects.map fun o => .object o.1 o.2) merged
      = some ((objects.flatMap (·.2)).foldl addProperty merged) := by
  induction objects generalizing merged with
  | nil => rfl
  | cons o objects ih =>
    rw [List.flatMap_cons, List.foldl_append]
    exact ih (o.2.foldl addProperty merged)

theorem merged?_objects (objects : List (Option String × List (Slot Ty))) :
    merged? (objects.map fun o => .object o.1 o.2)
      = some (.object none ((objects.flatMap (·.2)).foldl addProperty [])) := by
  rw [merged?, mergeProperties?_objects]
  rfl

/-- **An intersection of objects reads as one of them or as all their properties one after the
other**, of which the first of a name counts. -/
theorem relates_intersection_objects (options : Options) {u : Ty} (hu : u.Plain)
    (objects : List (Option String × List (Slot Ty))) :
    relates options (.intersection (objects.map fun o => .object o.1 o.2)) u
      = ((objects.any fun o => relates options (.object o.1 o.2) u)
        || relates options (.object none (objects.flatMap (·.2))) u) := by
  have hobject : relates options (.object none ((objects.flatMap (·.2)).foldl addProperty [])) u
      = relates options (.object none (objects.flatMap (·.2))) u :=
    relates_object_congr hu none none fun _ _ _ q _ => find?_foldl_addProperty _ [] q.name
  rw [relates_intersection_source hu, merged?_objects, List.any_map, Option.any_some, hobject]
  rfl

end Assign

/-! ### Destructuring -/

namespace Ty

theorem firstProperty?_eq_findSome? (name : String) (ts : List Ty) :
    firstProperty? name ts = ts.findSome? (property? name) := by
  induction ts with
  | nil => rfl
  | cons t ts ih =>
    rw [firstProperty?, ih, List.findSome?_cons]
    cases property? name t <;> rfl

/-- **Destructuring an intersection of objects** finds what is first of the name in all their
properties, one after the other. -/
theorem property?_intersection_objects (objects : List (Option String × List (Slot Ty)))
    (name : String) :
    property? name (.intersection (objects.map fun o => .object o.1 o.2))
      = (Slot.find? (objects.flatMap (·.2)) name).map (·.type) := by
  show firstProperty? name (objects.map fun o => .object o.1 o.2) = _
  calc firstProperty? name (objects.map fun o => .object o.1 o.2)
    _ = objects.findSome? (fun o => (Slot.find? o.2 name).map (·.type)) := by
        rw [firstProperty?_eq_findSome?, List.findSome?_map]
        rfl
    _ = (objects.findSome? (fun o => Slot.find? o.2 name)).map (·.type) :=
        List.map_findSome?.symm
    _ = (Slot.find? (objects.flatMap (·.2)) name).map (·.type) := by
        rw [Slot.find?, List.find?_flatMap]
        rfl

end Ty

namespace Assign

/-- **Destructuring and assignability see the same intersection.**  Objects always amount to one
object.  Under each name, destructuring their intersection finds the type of the property that this
object has of the name, and nothing exactly if it has none.  The names of its properties are
distinct: of all properties, in the order of the members, it has the first of each name. -/
theorem destructuring_sees_merged (objects : List (Option String × List (Slot Ty))) :
    let members : List Ty := objects.map fun o => .object o.1 o.2
    ∃ properties, merged? members = some (.object none properties) ∧
      (∀ name, Ty.property? name (.intersection members)
        = (Slot.find? properties name).map (·.type)) ∧
      (∀ name, Ty.property? name (.intersection members) = none
        ↔ Slot.find? properties name = none) ∧
      (properties.map (·.name)).Nodup ∧
      properties = firstOfEach (·.name) [] (objects.flatMap (·.2)) := by
  intro members
  have hfound : ∀ name, Ty.property? name (.intersection members)
      = (Slot.find? ((objects.flatMap (·.2)).foldl addProperty []) name).map (·.type) := by
    intro name
    rw [Ty.property?_intersection_objects, find?_foldl_addProperty]
    rfl
  refine ⟨_, merged?_objects objects, hfound, ?_, ?_, foldl_addProperty _ []⟩
  · intro name
    rw [hfound, Option.map_eq_none_iff]
  · rw [foldl_addProperty]
    exact nodup_names_firstOfEach [] _

example : merged?
    [.object (some "Field") [⟨"value", .keyword .string, true⟩, ⟨"value", .null, false⟩],
      .object none [⟨"label", .keyword .string, false⟩, ⟨"value", .keyword .number, false⟩]]
      = some (.object none [⟨"value", .keyword .string, true⟩,
        ⟨"label", .keyword .string, false⟩]) := rfl

end Assign

end PropCheck
