import PropCheck.Proofs.MemberTables

/-!
# Which elements of a class can be set from outside

Only what is open to everyone on an instance should be there to be set: no element that is static,
private or protected, no constructor and nothing with a private name.  Fields, getters, setters and
methods are looked at for all of this.  Auto-accessors are not looked at for being private or
protected, so hidden ones are taken as well, unless an element before them has taken their name.

* `Script.Member.IsPublic`: the element is open to everyone on an instance.
* `Script.Member.IsHiddenAccessor`: the element is a private or protected auto-accessor.
* `Script.Member.Eligible.isPublic_or`: an eligible element is one or the other.
* `mem_takenElements_iff`: the elements that members are taken from.
* `Component.taken_elements_public_iff`: all of them are public exactly if each hidden accessor
  comes after an eligible element of its name.
* `Component.private_accessor_taken`: a private accessor is taken.
-/

namespace PropCheck

open Script (TypeTable)

namespace Script.Member

/-- The element is open to everyone on an instance: it is not static, neither private nor protected,
no constructor, and its name is not a private one. -/
def IsPublic : Script.Member → Prop
  | .mk form marks _ key _ _ =>
    marks.isStatic = false ∧ marks.hidden = false ∧ form ≠ .constructor ∧ key ≠ .secret
  | .other _ => False

/-- The element is a private or protected auto-accessor of an instance, and its name can be told. -/
def IsHiddenAccessor : Script.Member → Prop
  | .mk form marks _ key _ _ =>
    form = .autoAccessor ∧ marks.isStatic = false ∧ marks.hidden = true ∧ key.name?.isSome = true
  | .other _ => False

variable {element : Script.Member}

/-- **An eligible element is public or a hidden accessor.** -/
theorem Eligible.isPublic_or (h : element.Eligible) :
    element.IsPublic ∨ element.IsHiddenAccessor := by
  cases element with
  | other parts => cases h
  | mk form marks decorators key type value =>
    obtain ⟨hform, hstatic, hhidden, hname, -⟩ := h
    have hkey : key ≠ .secret := by
      rintro rfl
      cases hname
    cases hmark : marks.hidden with
    | false => exact Or.inl ⟨hstatic, hmark, hform, hkey⟩
    | true => exact Or.inr ⟨hhidden hmark, hstatic, hmark, hname⟩

theorem IsHiddenAccessor.eligible (h : element.IsHiddenAccessor) : element.Eligible := by
  cases element with
  | other parts => cases h
  | mk form marks decorators key type value =>
    obtain ⟨rfl, hstatic, -, hname⟩ := h
    exact ⟨by decide, hstatic, fun _ => rfl, hname, Or.inr (Or.inl rfl)⟩

theorem IsHiddenAccessor.not_isPublic (h : element.IsHiddenAccessor) : ¬ element.IsPublic := by
  cases element with
  | other parts => cases h
  | mk form marks decorators key type value =>
    intro hpublic
    have hmark : marks.hidden = true := h.2.2.1
    rw [hpublic.2.1] at hmark
    cases hmark

end Script.Member

/-! ### The elements that members are taken from -/

section

variable {table : TypeTable} {elements : List Script.Member} {element : Script.Member}
  {m : ComponentMember}

theorem mem_names_givingElements_iff {name : String} :
    name ∈ (givingElements table elements).map (·.2.name)
      ↔ ∃ element ∈ elements, element.Eligible ∧ element.name? = some name := by
  rw [givingElements, List.mem_map]
  constructor
  · rintro ⟨⟨element, m⟩, hgiving, rfl⟩
    obtain ⟨e, he, hm⟩ := List.mem_filterMap.mp hgiving
    obtain ⟨n, hn, hpair⟩ := Option.map_eq_some_iff.mp hm
    obtain ⟨rfl, rfl⟩ := Prod.mk.inj hpair
    exact ⟨e, he, eligible_of_elementMember? hn⟩
  · rintro ⟨element, helement, heligible, hname⟩
    obtain ⟨m, hm⟩ := exists_elementMember? table heligible
    have hmname := (eligible_of_elementMember? hm).2
    rw [hname] at hmname
    refine ⟨(element, m), List.mem_filterMap.mpr ⟨element, helement, ?_⟩, ?_⟩
    · rw [hm]
      rfl
    · exact (Option.some.inj hmname).symm

/-- **A member is taken from an element** that gives it, if no eligible element before has its
name. -/
theorem mem_takenElements_iff :
    (element, m) ∈ takenElements table elements
      ↔ elementMember? table element = some m ∧ ∃ before after,
        elements = before ++ element :: after ∧
          ∀ earlier ∈ before, earlier.Eligible → earlier.name? ≠ element.name? := by
  have hearlier : ∀ {before : List Script.Member}, elementMember? table element = some m →
      (m.name ∉ (givingElements table before).map (·.2.name)
        ↔ ∀ earlier ∈ before, earlier.Eligible → earlier.name? ≠ element.name?) := by
    intro before hm
    rw [mem_names_givingElements_iff, (eligible_of_elementMember? hm).2]
    simp only [not_exists, not_and]
  rw [takenElements, mem_firstOfEach_iff]
  constructor
  · rintro ⟨-, given, after, hsplit, hfirst⟩
    obtain ⟨first, rest, rfl, rfl, hrest⟩ := List.filterMap_eq_append_iff.mp hsplit
    obtain ⟨second, e, last, rfl, hnone, he, -⟩ := List.filterMap_eq_cons_iff.mp hrest
    obtain ⟨n, hn, hpair⟩ := Option.map_eq_some_iff.mp he
    obtain ⟨rfl, rfl⟩ := Prod.mk.inj hpair
    -- the elements between the last one that gives a member and this one give none
    have hgiving : givingElements table (first ++ second) = givingElements table first := by
      rw [givingElements, List.filterMap_append, List.filterMap_eq_nil_iff.mpr hnone,
        List.append_nil]
      rfl
    refine ⟨hn, first ++ second, last, (List.append_assoc ..).symm, (hearlier hn).mp ?_⟩
    rw [hgiving]
    exact hfirst
  · rintro ⟨hm, before, after, rfl, hfirst⟩
    refine ⟨List.not_mem_nil, givingElements table before, givingElements table after, ?_,
      (hearlier hm).mpr hfirst⟩
    rw [givingElements, List.filterMap_append, List.filterMap_cons_some (by rw [hm]; rfl)]
    rfl

end

namespace Component

section

variable {table : TypeTable} {file : String} {fallback : Option String} {span : Script.Span}
  {className : Option Script.Name} {head interfaces : List Script.Part} {base : Script.Expr}
  {arguments : List Script.TypeExpr} {elements : List Script.Member} {component : Component}

/-- **Only public elements are taken, hidden accessors apart.** The members of a component are taken
from elements of its class, and after these from the properties that its base class is given.  Every
element that is taken is public or a hidden accessor; and all of them are public exactly if each
hidden accessor of the class comes after an eligible element of its name. -/
theorem taken_elements_public_iff
    (h : Component.ofClass? table file fallback
      (.mk span className head base arguments interfaces elements) = some component) :
    (∃ others, component.members = (takenElements table elements).map Prod.snd ++ others ∧
      ∀ m ∈ others, m ∈ baseMembers table base arguments) ∧
    (∀ taken ∈ takenElements table elements,
      taken.1 ∈ elements ∧ (taken.1.IsPublic ∨ taken.1.IsHiddenAccessor)) ∧
    ((∀ taken ∈ takenElements table elements, taken.1.IsPublic)
      ↔ ∀ before element after, elements = before ++ element :: after →
        element.IsHiddenAccessor →
          ∃ earlier ∈ before, earlier.Eligible ∧ earlier.name? = element.name?) := by
  have htaken : ∀ taken ∈ takenElements table elements,
      taken.1 ∈ elements ∧ (taken.1.IsPublic ∨ taken.1.IsHiddenAccessor) := by
    rintro ⟨element, m⟩ hmem
    obtain ⟨hm, before, after, rfl, -⟩ := mem_takenElements_iff.mp hmem
    refine ⟨List.mem_append_right before (List.mem_cons_self ..), ?_⟩
    exact (eligible_of_elementMember? hm).1.isPublic_or
  refine ⟨?_, htaken, ?_, ?_⟩
  · obtain ⟨name, -, rfl⟩ := Option.map_eq_some_iff.mp h
    exact ⟨_, firstOfEachName_append table base arguments elements,
      fun m hm => mem_of_mem_firstOfEach hm⟩
  · intro hpublic before element after hsplit haccessor
    apply Classical.byContradiction
    intro hfirst
    have hearlier : ∀ earlier ∈ before, earlier.Eligible → earlier.name? ≠ element.name? :=
      fun earlier hmem heligible hname => hfirst ⟨earlier, hmem, heligible, hname⟩
    obtain ⟨m, hm⟩ := exists_elementMember? table haccessor.eligible
    have hmem := mem_takenElements_iff.mpr ⟨hm, before, after, hsplit, hearlier⟩
    exact haccessor.not_isPublic (hpublic _ hmem)
  · rintro hlate ⟨element, m⟩ hmem
    rcases (htaken _ hmem).2 with hpublic | haccessor
    · exact hpublic
    · obtain ⟨-, before, after, hsplit, hfirst⟩ := mem_takenElements_iff.mp hmem
      obtain ⟨earlier, hearlier, heligible, hname⟩ := hlate before element after hsplit haccessor
      exact absurd hname (hfirst earlier hearlier heligible)

end

/-- A class with a field, and a hidden accessor of the same name after it. -/
theorem taken_elements_public_iff_panel :
    let field : Script.Member :=
      .mk .field ⟨false, false, false⟩ [] (.named "title") (.keyword .string) .missing
    let accessor : Script.Member :=
      .mk .autoAccessor ⟨false, true, false⟩ [] (.named "title") (.keyword .number) .missing
    let declared : Script.Class :=
      .mk ⟨0, 0⟩ (some ⟨"Panel", ⟨6, 11⟩⟩) [] .missing [] [] [field, accessor]
    ∃ component, Component.ofClass? [] "Panel.ts" none declared = some component ∧
      (∀ taken ∈ takenElements [] [field, accessor], taken.1.IsPublic) ∧
      component.properties = [⟨"title", .keyword .string, false⟩] := by
  intro field accessor declared
  have hdeclared : Component.ofClass? [] "Panel.ts" none declared = some _ := rfl
  refine ⟨_, hdeclared, (taken_elements_public_iff hdeclared).2.2.mpr ?_, ?_⟩
  · intro before element after hsplit haccessor
    match before, hsplit with
    | [], hsplit =>
      obtain ⟨rfl, -⟩ := List.cons.inj hsplit
      cases haccessor.1
    | [first], hsplit =>
      obtain ⟨-, rfl, -⟩ : field = first ∧ accessor = element ∧ [] = after := by
        simpa using hsplit
      obtain ⟨rfl, -⟩ := List.cons.inj hsplit
      have heligible : field.Eligible := by
        simp [field, Script.Member.Eligible, Script.Key.name?]
      exact ⟨field, List.mem_singleton_self field, heligible, rfl⟩
    | first :: second :: before, hsplit => simp at hsplit
  · have hgiven : [field, accessor].filterMap (elementMember? []) ++ baseMembers [] .missing []
        = [⟨"title", .property, .keyword .string, false⟩,
          ⟨"title", .accessor, .keyword .number, false⟩] := by
      cbv
    rw [hgiven]
    rfl

/-- **A private accessor is taken**, so not all elements that members are taken from are public. -/
theorem private_accessor_taken :
    ¬ ∀ (table : TypeTable) (file : String) (fallback : Option String) (span : Script.Span)
      (className : Option Script.Name) (head interfaces : List Script.Part) (base : Script.Expr)
      (arguments : List Script.TypeExpr) (elements : List Script.Member) (component : Component),
      Component.ofClass? table file fallback
        (.mk span className head base arguments interfaces elements) = some component →
      ∀ taken ∈ takenElements table elements, taken.1.IsPublic := by
  intro hpublic
  let accessor : Script.Member :=
    .mk .autoAccessor ⟨false, true, false⟩ [] (.named "secret") (.keyword .string) .missing
  have htaken : ∃ m, (accessor, m) ∈ takenElements [] [accessor] := by
    obtain ⟨m, hm⟩ : ∃ m, elementMember? [] accessor = some m := ⟨_, rfl⟩
    exact ⟨m, mem_takenElements_iff.mpr ⟨hm, [], [], rfl, fun _ h => absurd h List.not_mem_nil⟩⟩
  obtain ⟨m, hm⟩ := htaken
  have hshown : accessor.IsPublic := hpublic [] "Panel.ts" none ⟨0, 0⟩ (some ⟨"Panel", ⟨6, 11⟩⟩)
    [] [] .missing [] [accessor] _ rfl _ hm
  cases hshown.2.1

end Component

end PropCheck
