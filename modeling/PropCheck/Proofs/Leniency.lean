import PropCheck.Template.Record

/-!
# What is malformed inside a node does not spoil it

A record is a node if its kind and its offsets can be read.  The six other fields are read each by
itself, so that something malformed in one of them is felt in that field and nowhere else.  This
goes on inside: a node that is malformed is as good as left out of the list or the field that it
stands in, and whatever surrounds it is read as if it had not been written.

* `Node.head?`: the kind and the offsets of a record.
* `Node.map_head_ofValue?`: they alone decide whether a record is a node.
* `LenientField`, `OpenRecord`: a field that is read leniently, and a record in which it is left
  open.
* `OpenRecord.ofValue?_close`: what stands in the field is felt in that field only.
* `Place`, `Surroundings`: a place for a node inside a node, and all that is written around it.
* `Surroundings.ofValue?_foldr_wrap`: at any depth, what surrounds a value is read apart from it,
  and what is read of the value is put into its place.
* `Node.lenient_fields_never_sink`: these together.
-/

namespace PropCheck

open Json (Value lookup?)

theorem Json.lookup?_append (name : String) (xs ys : List (String × Value)) :
    lookup? name (xs ++ ys) = (lookup? name xs).or (lookup? name ys) := by
  induction xs with
  | nil => rfl
  | cons x xs ih =>
    obtain ⟨key, value⟩ := x
    rw [List.cons_append, lookup?, lookup?, ih]
    split <;> rfl

namespace Node

/-! ### The fields that decide -/

/-- The kind and the offsets of a node. -/
def head (node : Node) : NodeKind × UInt32 × UInt32 :=
  (node.kind, node.start, node.stop)

/-- The kind and the offsets of a record, if they can be read. -/
def head? (v : Value) : Option (NodeKind × UInt32 × UInt32) :=
  if v.isRecord fieldNames.length then do
    let kind ← (v.part? 0 "type").bind Value.choice?
    let start ← offset? (v.part? 1 "start")
    let stop ← offset? (v.part? 2 "end")
    return (NodeKind.ofName kind, start, stop)
  else none

/-- **The kind and the offsets alone decide whether a record is a node.** -/
theorem map_head_ofValue? (v : Value) : (ofValue? v).map head = head? v := by
  rw [ofValue?_eq, head?]
  split
  · cases (v.part? 0 "type").bind Value.choice? with
    | none => rfl
    | some kind =>
      cases offset? (v.part? 1 "start") with
      | none => rfl
      | some start => cases offset? (v.part? 2 "end") <;> rfl
  · rfl

theorem ofValue?_null : ofValue? .null = none := by
  rw [ofValue?_eq]
  rfl

end Node

/-! ### The fields that do not -/

/-- The fields of a node that are read if they fit and are as good as missing otherwise. -/
inductive LenientField where
  | name
  | children
  | attributes
  | value
  | expression
  | otherwise
deriving DecidableEq

namespace LenientField

/-- Where a field stands in a record that is written as an array. -/
def index : LenientField → Nat
  | name => 3
  | children => 4
  | attributes => 5
  | value => 6
  | expression => 7
  | otherwise => 8

/-- What a field is called in a record that is written as an object. -/
def key : LenientField → String
  | name => "name"
  | children => "children"
  | attributes => "attributes"
  | value => "value"
  | expression => "expression"
  | otherwise => "else"

/-- The value does not fit the field. -/
def Misfit (field : LenientField) (v : Value) : Prop :=
  match field with
  | name => ∀ text, v ≠ .string text
  | children | attributes => ∀ items, v ≠ .array items
  | value => (∀ set, v ≠ .bool set) ∧ ∀ items, v ≠ .array items
  | expression | otherwise => Node.ofValue? v = none

/-- Puts what is read of a value into a field of a node. -/
def put (field : LenientField) (v : Value) (node : Node) : Node :=
  match field with
  | name => { node with name? := v.text? }
  | children => { node with children := v.items.filterMap Node.ofValue? }
  | attributes => { node with attributes := v.items.filterMap Node.ofValue? }
  | value => { node with value := Node.attributeValueOf (some v) }
  | expression => { node with expression := Node.ofValue? v }
  | otherwise => { node with otherwise := Node.ofValue? v }

/-- A value that does not fit is read as nothing, just as `null` is. -/
theorem put_of_misfit {field : LenientField} {v : Value} (h : field.Misfit v) (node : Node) :
    field.put v node = field.put .null node := by
  cases field with
  | name =>
    cases v with
    | string text => exact absurd rfl (h text)
    | _ => rfl
  | children | attributes =>
    cases v with
    | array items => exact absurd rfl (h items)
    | _ => rfl
  | value =>
    cases v with
    | bool set => exact absurd rfl (h.1 set)
    | array items => exact absurd rfl (h.2 items)
    | _ => rfl
  | expression | otherwise =>
    have hv : Node.ofValue? v = none := h
    rw [put, put, hv, Node.ofValue?_null]

end LenientField

/-- A record in which a field is left open: an object by the fields before and after it, or an array
by the values before and after it. -/
inductive OpenRecord (field : LenientField) where
  | object (before after : List (String × Value)) (fresh : lookup? field.key before = none)
  | array (before after : List Value) (place : before.length = field.index)

namespace OpenRecord

variable {field : LenientField}

/-- The record with a value in the open field. -/
def close : OpenRecord field → Value → Value
  | object before after _, v => .object (before ++ (field.key, v) :: after)
  | array before after _, v => .array (before ++ v :: after)

theorem isRecord_close (record : OpenRecord field) (v w : Value) (fields : Nat) :
    (record.close v).isRecord fields = (record.close w).isRecord fields := by
  cases record with
  | object before after fresh => rfl
  | array before after place => simp only [close, Value.isRecord, List.length_append,
      List.length_cons]

/-- The open field holds the value, and every other field what it held before. -/
theorem part?_close (record : OpenRecord field) (v w : Value) (index : Nat) (key : String)
    (h : key = field.key ↔ index = field.index) :
    (record.close v).part? index key
      = if index = field.index then some v else (record.close w).part? index key := by
  cases record with
  | object before after fresh =>
    simp only [close, Value.part?, Json.lookup?_append, lookup?]
    by_cases hkey : key = field.key
    · simp [hkey, fresh, h.mp hkey]
    · have hne : (field.key == key) = false := by simpa using Ne.symm hkey
      simp only [hne, Bool.false_eq_true, ↓reduceIte, if_neg (mt h.mpr hkey)]
  | array before after place =>
    simp only [close, Value.part?, ← place]
    split
    · rename_i hindex
      simp [hindex]
    · rename_i hindex
      rcases Nat.lt_or_gt_of_ne hindex with hlt | hgt
      · rw [List.getElem?_append_left hlt, List.getElem?_append_left hlt]
      · obtain ⟨k, hk⟩ : ∃ k, index - before.length = k + 1 := ⟨index - before.length - 1, by omega⟩
        rw [List.getElem?_append_right (Nat.le_of_lt hgt),
          List.getElem?_append_right (Nat.le_of_lt hgt), hk]
        rfl

/-- **What stands in a field is felt in that field only**: the record is read with nothing in the
field, and what is read of the value is put there. -/
theorem ofValue?_close (record : OpenRecord field) (v : Value) :
    Node.ofValue? (record.close v)
      = (Node.ofValue? (record.close .null)).map (field.put v) := by
  have hpart := record.part?_close v .null
  rw [Node.ofValue?_eq, Node.ofValue?_eq (record.close .null), record.isRecord_close v .null,
    hpart 0 "type" (by cases field <;> decide), hpart 1 "start" (by cases field <;> decide),
    hpart 2 "end" (by cases field <;> decide), hpart 3 "name" (by cases field <;> decide),
    hpart 4 "children" (by cases field <;> decide),
    hpart 5 "attributes" (by cases field <;> decide), hpart 6 "value" (by cases field <;> decide),
    hpart 7 "expression" (by cases field <;> decide), hpart 8 "else" (by cases field <;> decide)]
  split
  · -- the open field is none of the three that decide
    have hindex : ∀ i, i < 3 → i ≠ field.index := by cases field <;> decide
    rw [if_neg (hindex 0 (by decide)), if_neg (hindex 1 (by decide)), if_neg (hindex 2 (by decide))]
    split
    · cases field <;> rfl
    · rfl
  · rfl

theorem ofValue?_close_of_misfit (record : OpenRecord field) {v : Value} (h : field.Misfit v) :
    Node.ofValue? (record.close v) = Node.ofValue? (record.close .null) := by
  calc Node.ofValue? (record.close v)
      = (Node.ofValue? (record.close .null)).map (field.put v) := record.ofValue?_close v
    _ = (Node.ofValue? (record.close .null)).map (field.put .null) := by
      rw [funext (LenientField.put_of_misfit h)]
    _ = Node.ofValue? (record.close .null) := (record.ofValue?_close .null).symm

end OpenRecord

/-! ### What surrounds a node -/

/-- A place for a node inside a node: an item of one of its three lists, between the values before
and after it, or one of its two optional nodes. -/
inductive Place where
  | child (before after : List Value)
  | attr (before after : List Value)
  | piece (before after : List Value)
  | expression
  | otherwise

namespace Place

/-- The field that a place belongs to. -/
def field : Place → LenientField
  | child .. => .children
  | attr .. => .attributes
  | piece .. => .value
  | expression => .expression
  | otherwise => .otherwise

/-- What stands in the field if a value stands at the place. -/
def content (v : Value) : Place → Value
  | child before after | attr before after | piece before after => .array (before ++ v :: after)
  | expression | otherwise => v

/-- What stands in the field if nothing stands at the place. -/
def rest : Place → Value
  | child before after | attr before after | piece before after => .array (before ++ after)
  | expression | otherwise => .null

/-- What is read of some items, around a node that may be there. -/
def around (before after : List Value) (inner : Option Node) : List Node :=
  before.filterMap Node.ofValue? ++ (inner.toList ++ after.filterMap Node.ofValue?)

/-- Puts a node, or nothing, at a place; in a list the neighbours are read each on its own. -/
def fill (inner : Option Node) (node : Node) : Place → Node
  | child before after => { node with children := around before after inner }
  | attr before after => { node with attributes := around before after inner }
  | piece before after => { node with value := .nodes (around before after inner) }
  | expression => { node with expression := inner }
  | otherwise => { node with otherwise := inner }

theorem filterMap_append_cons (before after : List Value) (v : Value) :
    (before ++ v :: after).filterMap Node.ofValue? = around before after (Node.ofValue? v) := by
  rw [List.filterMap_append, List.filterMap_cons, around]
  cases Node.ofValue? v <;> rfl

theorem put_content (place : Place) (v : Value) (node : Node) :
    place.field.put (place.content v) node = place.fill (Node.ofValue? v) node := by
  cases place with
  | child before after | attr before after | piece before after =>
    rw [fill, ← filterMap_append_cons]
    rfl
  | expression | otherwise => rfl

theorem put_rest (place : Place) (node : Node) :
    place.field.put place.rest node = place.fill none node := by
  cases place with
  | child before after | attr before after | piece before after =>
    rw [fill, around, Option.toList_none, List.nil_append, ← List.filterMap_append]
    rfl
  | expression | otherwise =>
    rw [fill, ← Node.ofValue?_null]
    rfl

end Place

/-- All that is written around a value inside a record. -/
structure Surroundings where
  place : Place
  record : OpenRecord place.field

namespace Surroundings

/-- The record with a value at the place. -/
def wrap (s : Surroundings) (v : Value) : Value :=
  s.record.close (s.place.content v)

/-- The record with nothing at the place. -/
def without (s : Surroundings) : Value :=
  s.record.close s.place.rest

/-- What is read of the surroundings, with a node or nothing at the place. -/
def read (s : Surroundings) (inner : Option Node) : Option Node :=
  (Node.ofValue? (s.record.close .null)).map (s.place.fill inner)

theorem ofValue?_wrap (s : Surroundings) (v : Value) :
    Node.ofValue? (s.wrap v) = s.read (Node.ofValue? v) := by
  rw [wrap, OpenRecord.ofValue?_close, read]
  exact congrArg (Option.map · _) (funext (s.place.put_content v))

theorem ofValue?_without (s : Surroundings) : Node.ofValue? s.without = s.read none := by
  rw [without, OpenRecord.ofValue?_close, read]
  exact congrArg (Option.map · _) (funext s.place.put_rest)

/-- **What surrounds a value is read apart from it, at any depth**, and what is read of the value is
put into its place. -/
theorem ofValue?_foldr_wrap (outer : List Surroundings) (v : Value) :
    Node.ofValue? (outer.foldr wrap v) = outer.foldr read (Node.ofValue? v) := by
  induction outer with
  | nil => rfl
  | cons s outer ih => rw [List.foldr_cons, List.foldr_cons, ofValue?_wrap, ih]

/-- Surroundings do not tell values apart that are read alike. -/
theorem ofValue?_foldr_wrap_congr (outer : List Surroundings) {v w : Value}
    (h : Node.ofValue? v = Node.ofValue? w) :
    Node.ofValue? (outer.foldr wrap v) = Node.ofValue? (outer.foldr wrap w) := by
  rw [ofValue?_foldr_wrap, ofValue?_foldr_wrap, h]

end Surroundings

namespace Node

/-- The lists of a node are what is read of their items, one by one. -/
theorem lists_of_ofValue? {fields : List (String × Value)} {node : Node}
    (h : ofValue? (.object fields) = some node) (items : List Value) :
    (lookup? "children" fields = some (.array items) →
        node.children = items.filterMap ofValue?) ∧
      (lookup? "attributes" fields = some (.array items) →
        node.attributes = items.filterMap ofValue?) ∧
      (lookup? "value" fields = some (.array items) →
        node.value = .nodes (items.filterMap ofValue?)) := by
  rw [ofValue?_eq, if_pos (show (Value.object fields).isRecord fieldNames.length = true from rfl)]
    at h
  split at h
  · cases h
    refine ⟨fun hlist => ?_, fun hlist => ?_, fun hlist => ?_⟩
    · show listOf (lookup? "children" fields) = _
      rw [hlist]
      rfl
    · show listOf (lookup? "attributes" fields) = _
      rw [hlist]
      rfl
    · show attributeValueOf (lookup? "value" fields) = _
      rw [hlist]
      rfl
  · cases h

/-- **Lenient fields never sink a node.**  Two objects that agree on their kind and offsets are
nodes or no nodes together, with the same kind and offsets.  Each of the three lists of a node is
what is read of its items, one by one.  Whatever surrounds a value, at any depth, is read apart from
it; so an item or an optional node that is malformed is as good as not written, and a field that
holds what does not fit is as good as empty. -/
theorem lenient_fields_never_sink :
    (∀ fields others : List (String × Value),
      (∀ name ∈ ["type", "start", "end"], lookup? name fields = lookup? name others) →
        (ofValue? (.object fields)).map head = (ofValue? (.object others)).map head) ∧
    (∀ (fields : List (String × Value)) (node : Node), ofValue? (.object fields) = some node →
      ∀ items : List Value,
        (lookup? "children" fields = some (.array items) →
          node.children = items.filterMap ofValue?) ∧
        (lookup? "attributes" fields = some (.array items) →
          node.attributes = items.filterMap ofValue?) ∧
        (lookup? "value" fields = some (.array items) →
          node.value = .nodes (items.filterMap ofValue?))) ∧
    (∀ (outer : List Surroundings) (v : Value),
      ofValue? (outer.foldr Surroundings.wrap v)
        = outer.foldr Surroundings.read (ofValue? v)) ∧
    (∀ (outer : List Surroundings) (s : Surroundings) (v : Value), ofValue? v = none →
      ofValue? (outer.foldr Surroundings.wrap (s.wrap v))
        = ofValue? (outer.foldr Surroundings.wrap s.without)) ∧
    (∀ (outer : List Surroundings) (field : LenientField) (record : OpenRecord field) (v : Value),
      field.Misfit v →
        ofValue? (outer.foldr Surroundings.wrap (record.close v))
          = ofValue? (outer.foldr Surroundings.wrap (record.close .null))) := by
  refine ⟨fun fields others h => ?_, fun fields node h => lists_of_ofValue? h,
    Surroundings.ofValue?_foldr_wrap, fun outer s v h => ?_, fun outer field record v h => ?_⟩
  · have htype : lookup? "type" fields = lookup? "type" others := h _ (by decide)
    have hstart : lookup? "start" fields = lookup? "start" others := h _ (by decide)
    have hstop : lookup? "end" fields = lookup? "end" others := h _ (by decide)
    rw [map_head_ofValue?, map_head_ofValue?]
    simp only [head?, Value.isRecord, Value.part?, htype, hstart, hstop]
  · apply Surroundings.ofValue?_foldr_wrap_congr
    rw [Surroundings.ofValue?_wrap, Surroundings.ofValue?_without, h]
  · exact Surroundings.ofValue?_foldr_wrap_congr outer (record.ofValue?_close_of_misfit h)

/-- A tag whose children are a flag and whose name is `null` is a node like one without them.  The
expression of an arrow function is a flag, which is as good as nothing there, also inside the tag.
Of two children of which one has no kind, the other is kept. -/
theorem lenient_fields_never_sink_arrow :
    let kind (name : String) : String × Value := ("type", .string name)
    let tag := [kind "MustacheTag", ("children", .bool true), ("name", .null)]
    let inTag : Surroundings := ⟨.expression, .object [kind "MustacheTag"] [] rfl⟩
    let arrow : OpenRecord .expression := .object [kind "ArrowFunction"] [] rfl
    let text : Value := .object [kind "Text"]
    let inElement : Surroundings := ⟨.child [text] [], .object [kind "Element"] [] rfl⟩
    (ofValue? (.object tag)).map head = some (.mustacheTag, 0, 0) ∧
      ofValue? (inTag.wrap (arrow.close (.bool true)))
        = ofValue? (inTag.wrap (arrow.close .null)) ∧
      ofValue? (inElement.wrap (.object [])) = ofValue? inElement.without ∧
      ∀ node, ofValue? inElement.without = some node →
        node.children = [text].filterMap ofValue? := by
  intro kind tag inTag arrow text inElement
  obtain ⟨hhead, hlists, -, hitem, hfield⟩ := lenient_fields_never_sink
  have hflag : ofValue? (.bool true) = none := by rw [ofValue?_eq]; rfl
  have hempty : ofValue? (.object []) = none := by rw [ofValue?_eq]; rfl
  refine ⟨?_, hfield [inTag] .expression arrow (.bool true) hflag, hitem [] inElement _ hempty, ?_⟩
  · have hbare :
        (ofValue? (.object [kind "MustacheTag"])).map head = some (.mustacheTag, 0, 0) := by
      rw [map_head_ofValue?]
      rfl
    rw [hhead tag [kind "MustacheTag"] (by simp [tag, kind, lookup?]), hbare]
  · intro node h
    exact (hlists _ node h [text]).1 rfl

end Node

end PropCheck
