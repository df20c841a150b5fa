import PropCheck.Check.Property
import PropCheck.Proofs.Objects

/-!
# Spreading an object and setting its properties one by one

A component can be given the properties of an object all at once, by spreading the object, or one by
one, by an attribute for each.  The spread is checked against the type of an instance, and each
attribute against the member of its name; the two agree.

* `Node.StandsFor`: a node stands for a name through expressions inside it.
* `Check.SpreadsType`, `Check.SetsType`: a node spreads, or sets an attribute to, a declared name of
  a type.
* `Check.findings_spread_iff`, `Check.findings_attribute_iff`: when there is nothing to report about
  such a node.
* `Assign.relates_instanceType_iff`: an object is related to the type of an instance exactly if it
  has all required members, and each of its properties is related to the member of its name.
* `Check.spread_agrees_with_attributes`: there is nothing to report about a spread exactly if all
  required members are given and there is nothing to report about any of the attributes.
-/

namespace PropCheck

/-- The node is a name, or the expression that it stands for is one, with no spread between. -/
inductive Node.StandsFor : Node → Node → Prop where
  | self {identifier : Node} : identifier.isIdentifier = true → StandsFor identifier identifier
  | expression {node inner identifier : Node} : node.isWrapper = true → node.isSpread = false →
    node.expression = some inner → StandsFor inner identifier → StandsFor node identifier

theorem Node.isWrapper_of_isSpread {node : Node} (h : node.isSpread = true) :
    node.isWrapper = true := by
  simp only [isSpread, beq_iff_eq] at h
  simp [isWrapper, h]

theorem Component.member?_eq_some_of_mem {component : Component} {m : ComponentMember}
    (hdistinct : component.memberNames.Nodup) (hm : m ∈ component.members) :
    component.member? m.name = some m :=
  find?_eq_some_of_nodup hdistinct hm

namespace Check

/-! ### Declared names as values -/

/-- The name is declared with the type. -/
def DeclaresType (scope : Script.Scope) (identifier : Node) (type : Ty) : Prop :=
  ∃ declaration, scope.find? identifier.name = some declaration ∧ declaration.type = type

/-- The node spreads a name that is declared with the type. -/
structure SpreadsType (scope : Script.Scope) (type : Ty) (node : Node) : Prop where
  isSpread : node.isSpread = true
  value : ∃ identifier, node.expression = some identifier ∧ identifier.isIdentifier = true ∧
    DeclaresType scope identifier type

/-- The node is the attribute of a name, and its value a name that is declared with the type. -/
structure SetsType (scope : Script.Scope) (name : String) (type : Ty) (node : Node) : Prop where
  isAttribute : node.isAttribute = true
  name_eq : node.name = name
  value : ∃ piece identifier, node.value = .nodes [piece] ∧ piece.StandsFor identifier ∧
    DeclaresType scope identifier type

section Values

variable {usage : Usage} {type : Ty}

theorem identifierFinding?_spread_iff {parent node : Node} {attr : Option Node}
    (hparent : parent.isSpread = true) (h : DeclaresType usage.scope node type) :
    identifierFinding? usage parent attr node = none
      ↔ Assign.assignable usage.options usage.component.instanceType type = true := by
  obtain ⟨declaration, hfind, rfl⟩ := h
  unfold identifierFinding?
  simp only [hfind, hparent, ↓reduceIte, ite_eq_left_iff, reduceCtorEq, imp_false,
    Decidable.not_not]

theorem identifierFinding?_member_iff {parent setting node : Node} {m : ComponentMember}
    (hparent : parent.isSpread = false) (h : DeclaresType usage.scope node type)
    (hm : usage.component.member? setting.name = some m) :
    identifierFinding? usage parent (some setting) node = none
      ↔ Assign.assignable usage.options m.declared type = true := by
  obtain ⟨declaration, hfind, rfl⟩ := h
  unfold identifierFinding?
  simp only [hfind, hparent, hm, Bool.false_eq_true, ↓reduceIte, Option.getD_some, ite_eq_left_iff,
    reduceCtorEq, imp_false, Decidable.not_not]

/-- What stands for a name has the findings of the name, which is not spread. -/
theorem findings_standsFor (usage : Usage) {node identifier : Node} (h : node.StandsFor identifier)
    {parent : Node} (hparent : parent.isSpread = false) (attr : Option Node) :
    ∃ around : Node, around.isSpread = false ∧
      findings usage parent attr node
        = (identifierFinding? usage around attr identifier).toList := by
  induction h generalizing parent with
  | self hidentifier => exact ⟨parent, hparent, findings_identifier usage parent attr hidentifier⟩
  | expression hwrapper hspread hinner _ ih =>
    rw [findings_wrapper usage parent attr hwrapper, hinner, Option.toList_some,
      List.flatMap_singleton]
    exact ih hspread

/-- There is nothing to report about a spread exactly if its type is assignable to that of an
instance. -/
theorem findings_spread_iff {host spread : Node} {attr : Option Node}
    (h : SpreadsType usage.scope type spread) :
    findings usage host attr spread = []
      ↔ Assign.assignable usage.options usage.component.instanceType type = true := by
  obtain ⟨identifier, hexpression, hidentifier, hdeclares⟩ := h.value
  rw [findings_wrapper usage host attr (Node.isWrapper_of_isSpread h.isSpread), hexpression,
    Option.toList_some, List.flatMap_singleton, findings_identifier usage spread attr hidentifier,
    Option.toList_eq_nil_iff, identifierFinding?_spread_iff h.isSpread hdeclares]

/-- There is nothing to report about an attribute exactly if the type of its value is assignable to
the member of its name. -/
theorem findings_attribute_iff {host setting : Node} {attr : Option Node} {m : ComponentMember}
    (hnames : usage.memberNames = usage.component.memberNames)
    (hm : usage.component.member? m.name = some m)
    (h : SetsType usage.scope m.name type setting) :
    findings usage host attr setting = []
      ↔ Assign.assignable usage.options m.declared type = true := by
  obtain ⟨piece, identifier, hvalue, hstands, hdeclares⟩ := h.value
  have hmember : usage.memberNames.contains setting.name = true := by
    rw [List.contains_iff_mem, hnames, h.name_eq]
    exact List.mem_map_of_mem (List.mem_of_find?_eq_some hm)
  have hsetting : setting.isSpread = false := by
    have hkind := h.isAttribute
    simp only [Node.isAttribute, beq_iff_eq] at hkind
    simp [Node.isSpread, hkind]
  obtain ⟨around, haround, hpiece⟩ :=
    findings_standsFor usage hstands hsetting (some setting)
  rw [findings_attribute usage host attr h.isAttribute, if_pos hmember, hvalue]
  show [piece].flatMap _ = [] ↔ _
  rw [List.flatMap_singleton, hpiece, Option.toList_eq_nil_iff]
  exact identifierFinding?_member_iff haround hdeclares (h.name_eq ▸ hm)

end Values

end Check

/-! ### The type of an instance -/

namespace Component

variable {component : Component}

theorem mem_properties {q : Slot Ty} :
    q ∈ component.properties ↔ ∃ m ∈ component.members, m.kind ≠ .method ∧ m.toSlot = q := by
  simp [properties, and_assoc]

theorem toSlot_mem_properties {m : ComponentMember} (hm : m ∈ component.members)
    (hkind : m.kind ≠ .method) : m.toSlot ∈ component.properties :=
  mem_properties.mpr ⟨m, hm, hkind, rfl⟩

end Component

namespace Assign

/-- **An object is related to the type of an instance exactly if** it has all required members for
certain, and each of its properties is related to the member of its name. -/
theorem relates_instanceType_iff {options : Options} {component : Component}
    {name : Option String} {ps : List (Slot Ty)} :
    relates options (.object name ps) component.instanceType = true
      ↔ (∀ m ∈ component.members, m.kind ≠ .method → m.optional = false →
          ∃ p, Slot.find? ps m.name = some p ∧ p.optional = false) ∧
        ∀ m ∈ component.members, m.kind ≠ .method → ∀ p, Slot.find? ps m.name = some p →
          relates options p.declared m.declared = true := by
  have hmember : (∀ q ∈ component.properties, supplies options ps q = true)
      ↔ ∀ m ∈ component.members, m.kind ≠ .method → supplies options ps m.toSlot = true := by
    constructor
    · intro h m hm hkind
      exact h m.toSlot (Component.toSlot_mem_properties hm hkind)
    · intro h q hq
      obtain ⟨m, hm, hkind, rfl⟩ := Component.mem_properties.mp hq
      exact h m hm hkind
  rw [Component.instanceType, relates_objects, List.all_eq_true, hmember]
  simp only [supplies_iff]
  constructor
  · intro h
    exact ⟨fun m hm hkind => (h m hm hkind).1, fun m hm hkind => (h m hm hkind).2⟩
  · rintro ⟨hrequired, hrelated⟩ m hm hkind
    exact ⟨hrequired m hm hkind, hrelated m hm hkind⟩

end Assign

namespace Check

/-- **Spreading an object agrees with setting its properties one by one.**  For a component whose
members have distinct names, there is nothing to report about the spread of an object exactly if
every member that is required has a property of its name in the object, which is not optional, and
there is nothing to report about any attribute that sets a member to what the object has under its
name. -/
theorem spread_agrees_with_attributes {usage : Usage}
    (hnames : usage.memberNames = usage.component.memberNames)
    (hdistinct : usage.component.memberNames.Nodup) {name : Option String} {ps : List (Slot Ty)}
    (hheight : (Ty.object name ps).height + usage.component.instanceType.height ≤ 66)
    {host spread : Node} {attr : Option Node}
    (hspread : SpreadsType usage.scope (.object name ps) spread)
    {scope : String → Script.Scope} {setting : String → Node}
    (hsetting : ∀ property p, Slot.find? ps property = some p →
      SetsType (scope property) property p.declared (setting property)) :
    findings usage host attr spread = []
      ↔ (∀ m ∈ usage.component.members, m.kind ≠ .method → m.optional = false →
          ∃ p, Slot.find? ps m.name = some p ∧ p.optional = false) ∧
        ∀ m ∈ usage.component.members, m.kind ≠ .method → (Slot.find? ps m.name).isSome →
          findings { usage with scope := scope m.name } host attr (setting m.name) = [] := by
  rw [findings_spread_iff hspread, Assign.assignable_eq_relates hheight,
    Assign.relates_instanceType_iff]
  refine and_congr_right fun _ => forall₂_congr fun m hm => forall_congr' fun hkind => ?_
  rw [Option.isSome_iff_exists, forall_exists_index]
  refine forall₂_congr fun p hp => ?_
  -- both types are lower than the object and the instance
  have hlow : p.declared.height + m.declared.height ≤ 66 := by
    have hp' := Ty.height_declared_lt (Slot.mem_of_find? hp) name
    have hm' := Ty.height_declared_lt (Component.toSlot_mem_properties hm hkind)
      (some usage.component.name)
    exact Nat.le_trans (Nat.le_of_lt (Nat.add_lt_add hp' hm')) hheight
  have hclean : findings { usage with scope := scope m.name } host attr (setting m.name) = []
      ↔ Assign.assignable usage.options m.declared p.declared = true :=
    findings_attribute_iff hnames (Component.member?_eq_some_of_mem hdistinct hm)
      (hsetting m.name p hp)
  rw [hclean, Assign.assignable_eq_relates hlow]

/-- An object that has one property too many, and one that may be missing where the member may be
missing too: there is nothing to report about its spread, hence about either attribute. -/
theorem spread_agrees_with_attributes_counter :
    let ps : List (Slot Ty) := [⟨"label", .keyword .string, true⟩,
      ⟨"count", .number (.finite false 0), false⟩, ⟨"step", .keyword .number, false⟩]
    let usage : Usage :=
      { options := .strictest
        scope := ⟨"App.svelte.ts", [⟨⟨"rest", ⟨6, 10⟩⟩, .const, .object none ps⟩], []⟩
        source := ⟨"App.svelte", ""⟩
        component := ⟨"Counter", "Counter.svelte.d.ts", ⟨0, 80⟩,
          [⟨"count", .property, .keyword .number, false⟩,
            ⟨"label", .accessor, .union [.keyword .string, .null], true⟩,
            ⟨"reset", .method, .function [] .void true, false⟩]⟩
        memberNames := ["count", "label", "reset"] }
    let name (text : String) : Node :=
      ⟨.identifier, 16, 20, some text, [], [], .absent, none, none⟩
    let spread : Node := ⟨.spread, 9, 21, none, [], [], .absent, some (name "rest"), none⟩
    let host : Node := ⟨.inlineComponent, 0, 24, some "Counter", [], [spread], .absent, none, none⟩
    let scope (property : String) : Script.Scope :=
      ⟨"App.svelte.ts", [⟨⟨property, ⟨4, 9⟩⟩, .const,
        ((Slot.find? ps property).map (·.declared)).getD .any⟩], []⟩
    let setting (property : String) : Node :=
      ⟨.attr, 9, 21, some property, [], [],
        .nodes [⟨.mustacheTag, 15, 21, none, [], [], .absent, some (name property), none⟩], none,
        none⟩
    usage.component.memberNames.Nodup ∧
      (Ty.object none ps).height + usage.component.instanceType.height ≤ 66 ∧
      findings usage host none spread = [] ∧
      ∀ m ∈ usage.component.members, m.kind ≠ .method → (Slot.find? ps m.name).isSome →
        findings { usage with scope := scope m.name } host none (setting m.name) = [] := by
  intro ps usage name spread host scope setting
  have hdistinct : usage.component.memberNames.Nodup := by decide
  have hheight : (Ty.object none ps).height + usage.component.instanceType.height ≤ 66 := by decide
  have hspread : SpreadsType usage.scope (.object none ps) spread :=
    ⟨rfl, name "rest", rfl, rfl, _, rfl, rfl⟩
  have hsetting : ∀ property p, Slot.find? ps property = some p →
      SetsType (scope property) property p.declared (setting property) := by
    intro property p hp
    refine ⟨rfl, rfl, _, name property, rfl, .expression rfl rfl rfl (.self rfl), _,
      List.find?_cons_of_pos (beq_self_eq_true property), ?_⟩
    simp only [hp, Option.map_some, Option.getD_some]
  have hclean : findings usage host none spread = [] :=
    (findings_spread_iff hspread).mpr (by decide)
  exact ⟨hdistinct, hheight, hclean,
    ((spread_agrees_with_attributes rfl hdistinct hheight hspread hsetting).mp hclean).2⟩

end Check

end PropCheck
