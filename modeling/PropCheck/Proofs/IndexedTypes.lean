import PropCheck.Proofs.Meanings
import PropCheck.Proofs.MemberTables
import PropCheck.Proofs.NormalForm
import PropCheck.Proofs.Resolution

/-!
# The types that scripts and modules hold

Every type that the index of a script or the class of a module holds is in normal form, whatever the
script is: each way to make a type keeps to normal form.

* `Script.TypeTable.normal_lowerType`: what a written type means.
* `Script.TypeTable.normal_infer`: the type of a value, if the types of names are in normal form.
* `Script.DeclaresNormal`: all declared types are in normal form.
* `Script.declaresNormal_bindPattern`: taking a type apart keeps this.
* `MembersNormal`, `membersNormal_ofClass?`: the types of all members of a class are in normal form.
* `IndexedType`: the types that the index of a script and the classes of its module hold.
* `normal_of_indexedType`: all of them are in normal form.
-/

namespace PropCheck

namespace Script

namespace TypeTable

/-! ### Written types -/

theorem followsFromParts_normal : FollowsFromParts Ty.Normal where
  of_parts {t} hunion _ hparts := by
    refine Ty.normal_iff.mpr ⟨?_, hparts⟩
    cases t with
    | union ts => exact absurd rfl (hunion ts)
    | _ => exact trivial
  unionOf := Ty.normal_unionOf

/-- **What a written type means is in normal form.** -/
theorem normal_lowerType (table : TypeTable) (resolving : List String) (type : TypeExpr) :
    (table.lowerType resolving type).Normal := by
  induction resolving, type using table.loweringInduction with
  | step resolving type hoperands hnamed =>
    refine followsFromParts_normal.lowerType hoperands ?_
    rintro name args rfl
    refine followsFromParts_normal.lowerReference hoperands (fun _ _ => ?_)
      fun _ meaning hfind hnew => hnamed name args meaning rfl hfind hnew
    exact Ty.normal_reference_iff.mpr (forall_lowerTypes hoperands)

theorem normal_lower (table : TypeTable) (type : TypeExpr) : (table.lower type).Normal :=
  normal_lowerType table [] type

theorem normal_params (table : TypeTable) (f : Function) : ∀ p ∈ table.params f, p.type.Normal := by
  obtain ⟨head, params, tail, result, body⟩ := f
  exact forall_lowerParams 0 fun type _ => normal_lower table type

theorem normal_result (table : TypeTable) (f : Function) : (table.result f).Normal := by
  obtain ⟨head, params, tail, result, body⟩ := f
  exact normal_lower table result

theorem normal_functionType (table : TypeTable) (method : Bool) (f : Function) :
    (table.functionType method f).Normal :=
  Ty.normal_function_iff.mpr ⟨normal_params table f, normal_result table f⟩

/-! ### Types of values -/

theorem normal_arrayOf {ts : List Ty} (h : ∀ t ∈ ts, t.Normal) : (arrayOf ts).Normal := by
  cases ts with
  | nil => simp [arrayOf]
  | cons t ts => exact Ty.normal_array_iff.mpr (Ty.normal_unionOf h)

/-- The types of names are in normal form. -/
abbrev NamesNormal (lookup : String → Option Ty) : Prop :=
  ∀ name t, lookup name = some t → t.Normal

theorem normal_nameType {lookup : String → Option Ty} (h : NamesNormal lookup) (name : String) :
    (nameType lookup name).Normal := by
  unfold nameType
  split
  · exact Ty.normal_keyword .undefined
  · cases hname : lookup name with
    | none => exact Ty.normal_keyword .any
    | some t => exact h name t hname

theorem normal_unaryType (operator : UnaryOp) : (unaryType operator).Normal := by
  cases operator <;> exact Ty.normal_keyword _

mutual

/-- **The type of a value is in normal form**, if the types of names are. -/
theorem normal_infer (table : TypeTable) {lookup : String → Option Ty} (h : NamesNormal lookup)
    (e : Expr) : (table.infer lookup e).Normal := by
  cases e with
  | identifier name =>
    rw [infer]
    exact normal_nameType h name
  | paren e =>
    rw [infer]
    exact normal_infer table h e
  | cast e type =>
    rw [infer]
    exact normal_lower table type
  | unary operator e =>
    rw [infer]
    exact normal_unaryType operator
  | object items =>
    rw [infer, Ty.normal_object_iff]
    exact normal_inferProperties table h items
  | array items =>
    rw [infer]
    exact normal_arrayOf (normal_inferElements table h items)
  | function f =>
    rw [infer]
    exact normal_functionType table false f
  | construct callee arguments => cases callee <;> simp [infer]
  | _ => simp [infer]
termination_by sizeOf e

theorem normal_inferProperties (table : TypeTable) {lookup : String → Option Ty}
    (h : NamesNormal lookup) (items : List Item) :
    ∀ p ∈ table.inferProperties lookup items, p.type.Normal := by
  unfold inferProperties
  split
  · exact fun p hp => absurd hp List.not_mem_nil
  · rename_i key e items
    rw [List.forall_mem_append]
    exact ⟨forall_slot? fun _ => (normal_infer table h e).widened,
      normal_inferProperties table h items⟩
  · rename_i name value items
    rw [List.forall_mem_cons]
    exact ⟨(normal_nameType h name).widened, normal_inferProperties table h items⟩
  · rename_i items _ _
    exact normal_inferProperties table h items
termination_by sizeOf items

theorem normal_inferElements (table : TypeTable) {lookup : String → Option Ty}
    (h : NamesNormal lookup) (items : List Item) :
    ∀ t ∈ table.inferElements lookup items, t.Normal := by
  unfold inferElements
  split
  · exact fun t ht => absurd ht List.not_mem_nil
  · rename_i e items
    rw [List.forall_mem_cons]
    exact ⟨(normal_infer table h e).widened, normal_inferElements table h items⟩
  · rename_i items _
    exact normal_inferElements table h items
termination_by sizeOf items

end

end TypeTable

/-! ### Declarations -/

/-- All declared types are in normal form. -/
def DeclaresNormal (declared : List Declaration) : Prop :=
  ∀ d ∈ declared, d.type.Normal

theorem DeclaresNormal.append {declared : List Declaration} (h : DeclaresNormal declared)
    {d : Declaration} (hd : d.type.Normal) : DeclaresNormal (declared ++ [d]) := by
  intro e he
  rcases List.mem_append.mp he with he | he
  · exact h e he
  · rw [List.mem_singleton.mp he]
    exact hd

theorem DeclaresNormal.lookup {declared : List Declaration} (h : DeclaresNormal declared) :
    TypeTable.NamesNormal (lookup declared) := by
  intro name t ht
  obtain ⟨d, hd, rfl⟩ := Option.map_eq_some_iff.mp ht
  exact h d (List.mem_of_find?_eq_some hd)

theorem normal_restType {type : Ty} (h : type.Normal) : (restType type).Normal := by
  cases type with
  | array t => exact h
  | _ => exact Ty.normal_keyword .any

theorem normal_keyType {type : Ty} (h : type.Normal) (key : Key) : (keyType key type).Normal := by
  unfold keyType
  cases hfound : key.name?.bind fun name => type.property? name with
  | none => exact Ty.normal_keyword .any
  | some t =>
    obtain ⟨name, -, ht⟩ := Option.bind_eq_some_iff.mp hfound
    exact h.property? ht

theorem normal_elementType {type : Ty} (h : type.Normal) (index : Nat) :
    ((type.element? index).getD .any).Normal := by
  cases ht : type.element? index with
  | none => exact Ty.normal_keyword .any
  | some t => exact h.element? ht

section Patterns

variable (table : TypeTable) (kind : DeclarationKind)

mutual

/-- **Taking a type in normal form apart declares types in normal form.** -/
theorem declaresNormal_bindPattern (pattern : Pattern) {type : Ty} (htype : type.Normal)
    {declared : List Declaration} (h : DeclaresNormal declared) :
    DeclaresNormal (bindPattern table kind pattern type declared) := by
  cases pattern with
  | hole =>
    rw [bindPattern]
    exact h
  | name name =>
    rw [bindPattern]
    exact h.append htype
  | property key p =>
    rw [bindPattern]
    exact declaresNormal_bindPattern p (normal_keyType htype key) h
  | object ps rest =>
    rw [bindPattern]
    exact declaresNormal_bindPattern rest (Ty.normal_keyword .any)
      (declaresNormal_bindProperties ps htype h)
  | array ps rest =>
    rw [bindPattern]
    exact declaresNormal_bindPattern rest (normal_restType htype)
      (declaresNormal_bindElements ps 0 htype h)
  | default p value =>
    unfold bindPattern
    apply declaresNormal_bindPattern p _ h
    split
    · exact (TypeTable.normal_infer table h.lookup value).widened
    · exact htype
termination_by sizeOf pattern

theorem declaresNormal_bindProperties (patterns : List Pattern) {type : Ty} (htype : type.Normal)
    {declared : List Declaration} (h : DeclaresNormal declared) :
    DeclaresNormal (bindProperties table kind patterns type declared) := by
  cases patterns with
  | nil =>
    rw [bindProperties]
    exact h
  | cons p ps =>
    rw [bindProperties]
    exact declaresNormal_bindProperties ps htype (declaresNormal_bindPattern p htype h)
termination_by sizeOf patterns

theorem declaresNormal_bindElements (patterns : List Pattern) (index : Nat) {type : Ty}
    (htype : type.Normal) {declared : List Declaration} (h : DeclaresNormal declared) :
    DeclaresNormal (bindElements table kind patterns index type declared) := by
  cases patterns with
  | nil =>
    rw [bindElements]
    exact h
  | cons p ps =>
    rw [bindElements]
    exact declaresNormal_bindElements ps (index + 1) htype
      (declaresNormal_bindPattern p (normal_elementType htype index) h)
termination_by sizeOf patterns

end

end Patterns

theorem normal_binderType (table : TypeTable) (kind : VariableKind) {declared : List Declaration}
    (h : DeclaresNormal declared) (type : TypeExpr) (value : Expr) :
    (binderType table kind declared type value).Normal := by
  have hinfer := TypeTable.normal_infer table h.lookup value
  unfold binderType
  split
  · dsimp only
    split
    · exact hinfer
    · exact hinfer.widened
  · exact TypeTable.normal_lower table type

theorem DeclaresNormal.bind {declared : List Declaration} (h : DeclaresNormal declared)
    (table : TypeTable) (kind : VariableKind) (binder : Binder) :
    DeclaresNormal (bind table kind declared binder) := by
  obtain ⟨decorators, pattern, type, isOptional, value⟩ := binder
  exact declaresNormal_bindPattern table _ pattern (normal_binderType table kind h type value) h

/-- One piece of a script keeps the declared types in normal form. -/
theorem DeclaresNormal.declare {declared : List Declaration} (h : DeclaresNormal declared)
    (table : TypeTable) (piece : Part) : DeclaresNormal (declare table declared piece) := by
  unfold Script.declare
  split
  · rename_i kind binders
    exact List.foldlRecOn binders _ h fun _ hb binder _ => hb.bind table kind binder
  · exact h.append (TypeTable.normal_functionType table false _)
  · exact h

theorem declaresNormal_declarationsOf (statements : List Stmt) :
    DeclaresNormal (declarationsOf statements) :=
  List.foldlRecOn (piecesOf statements) _ (fun _ hd => absurd hd List.not_mem_nil)
    fun _ h piece _ => h.declare _ piece

end Script

/-! ### Classes -/

section Classes

open Script (TypeTable)

/-- The types of some members are in normal form. -/
def MembersNormal (members : List ComponentMember) : Prop :=
  ∀ m ∈ members, m.type.Normal

theorem normal_fieldType (table : TypeTable) (value : Script.Expr) (type : Script.TypeExpr) :
    (fieldType table value type).Normal := by
  have hinfer : (table.infer (fun _ => none) value).Normal :=
    TypeTable.normal_infer table (fun name t ht => by cases ht) value
  unfold fieldType
  split
  · exact hinfer.widened
  · exact TypeTable.normal_lower table type

theorem normal_setterType (table : TypeTable) (f : Script.Function) :
    (setterType table f).Normal := by
  have hparams := TypeTable.normal_params table f
  unfold setterType
  split
  · rename_i p ps hps
    exact hparams p (hps ▸ List.mem_cons_self ..)
  · exact Ty.normal_keyword .any

theorem normal_elementMember? {table : TypeTable} {element : Script.Member} {m : ComponentMember}
    (h : elementMember? table element = some m) : m.type.Normal := by
  unfold elementMember? at h
  split at h
  · split at h
    · cases h
    · obtain ⟨name, -, rfl⟩ := Option.map_eq_some_iff.mp h
      exact normal_fieldType table _ _
  · split at h
    · cases h
    · obtain ⟨name, -, rfl⟩ := Option.map_eq_some_iff.mp h
      exact TypeTable.normal_lower table _
  · split at h
    · cases h
    · split at h <;> cases h
      · exact TypeTable.normal_result table _
      · exact normal_setterType table _
      · exact TypeTable.normal_functionType table true _
  · cases h

theorem normal_baseMembers (table : TypeTable) (base : Script.Expr)
    (arguments : List Script.TypeExpr) : MembersNormal (baseMembers table base arguments) := by
  intro m hm
  unfold baseMembers at hm
  split at hm
  · rename_i argument rest
    have hargument := TypeTable.normal_lower table argument
    split at hm
    · split at hm
      · rename_i slots hslots
        rw [hslots] at hargument
        obtain ⟨p, hp, rfl⟩ := List.mem_map.mp hm
        exact Ty.normal_object_iff.mp hargument p hp
      · cases hm
    · cases hm
  · cases hm

theorem membersNormal_ofClass? {table : TypeTable} {file : String} {fallback : Option String}
    {c : Script.Class} {component : Component}
    (h : Component.ofClass? table file fallback c = some component) :
    MembersNormal component.members := by
  obtain ⟨span, name, head, base, arguments, interfaces, elements⟩ := c
  obtain ⟨name, -, rfl⟩ := Option.map_eq_some_iff.mp h
  intro m hm
  change m ∈ firstOfEachName _ at hm
  rw [firstOfEachName_eq] at hm
  rcases List.mem_append.mp (mem_of_mem_firstOfEach hm) with hm | hm
  · obtain ⟨element, -, helement⟩ := List.mem_filterMap.mp hm
    exact normal_elementMember? helement
  · exact normal_baseMembers table base arguments m hm

theorem membersNormal_of_mem_classes {file : String} {statements : List Script.Stmt}
    {c : Component} (h : c ∈ (Module.ofStatements file statements).classes) :
    MembersNormal c.members := by
  obtain ⟨fallback, declared, hofClass⟩ := Module.madeFromClasses_ofStatements file statements c h
  exact membersNormal_ofClass? hofClass

end Classes

/-! ### All types of a script -/

/-- The types that the index of a script and the classes of its module hold: those of declarations
and members, what members are declared with, and what properties inside any of these types are
declared with.  The statements may be any, not only those that `Script.Scope.parse` and
`Program.addModule` read from a text. -/
inductive IndexedType (file : String) (statements : List Script.Stmt) : Ty → Prop where
  | declaration {d : Script.Declaration} :
    d ∈ (Script.Scope.ofStatements file statements).declarations →
      IndexedType file statements d.type
  | member {c : Component} {m : ComponentMember} :
    c ∈ (Module.ofStatements file statements).classes → m ∈ c.members →
      IndexedType file statements m.type
  | declaredMember {c : Component} {m : ComponentMember} :
    c ∈ (Module.ofStatements file statements).classes → m ∈ c.members →
      IndexedType file statements m.declared
  | declaredProperty {t : Ty} {name : Option String} {ps : List (Slot Ty)} {p : Slot Ty} :
    IndexedType file statements t → Ty.object name ps ∈ t.inside → p ∈ ps →
      IndexedType file statements p.declared

/-- **Every indexed type is in normal form**: each union inside it has at least two members, none of
them is a union, and no two of them are the same. -/
theorem normal_of_indexedType {file : String} {statements : List Script.Stmt} {t : Ty}
    (h : IndexedType file statements t) : t.Normal := by
  induction h with
  | declaration hd => exact Script.declaresNormal_declarationsOf statements _ hd
  | member hc hm => exact membersNormal_of_mem_classes hc _ hm
  | @declaredMember c m hc hm => exact (membersNormal_of_mem_classes hc m hm).optional m.optional
  | declaredProperty _ hinside hp ih => exact ih.declared hinside hp

/-- The field of `class Panel { size?: (string | null) | "auto" | null }` is declared with the flat
union `string | null | "auto" | undefined`. -/
theorem normal_of_indexedType_panel :
    let written : Script.TypeExpr :=
      .union [.group (.union [.keyword .string, .keyword .null]), .string "auto", .keyword .null]
    let panel : Script.Class :=
      .mk ⟨0, 0⟩ (some ⟨"Panel", ⟨0, 0⟩⟩) [] .missing [] []
        [.mk .field ⟨false, false, true⟩ [] (.named "size") written .missing]
    let t : Ty := .union [.keyword .string, .keyword .null, .string "auto", .undefined]
    IndexedType "Panel.ts" [.classDecl panel] t ∧ t.Normal := by
  intro written panel t
  have hlower : (Script.TypeTable.lower [] written).optional true = t := by
    simp only [written, Script.TypeTable.lower, Script.TypeTable.lowerType,
      Script.TypeTable.lowerTypes]
    rfl
  have h : IndexedType "Panel.ts" [.classDecl panel] t := by
    rw [← hlower]
    exact .declaredMember (m := ⟨"size", .property, Script.TypeTable.lower [] written, true⟩)
      (List.mem_singleton_self _) (List.mem_singleton_self _)
  exact ⟨h, normal_of_indexedType h⟩

end PropCheck
