import PropCheck.Json.Written
import PropCheck.Template.Node

/-!
# Template nodes as JSON

A node is a record of nine fields, of which only its kind is required.  The offsets must be whole
numbers if they are there; the other fields are taken if they have the right shape and are as good
as missing otherwise, so that nothing inside a node can spoil it.  In a list of nodes, what is no
node is left out.

* `Node.toValue`: a node as a JSON value.
* `Node.ofValue?`: the node that a JSON value stands for.
* `Node.read?`: the node at the root of a JSON text.
-/

namespace PropCheck

open Json (Value Written)

namespace Node

/-! ### Writing -/

def nameToValue : Option String → Value
  | none => .null
  | some s => .string s

mutual

def toValue : Node → Value
  | ⟨kind, start, stop, name, children, attributes, value, expression, otherwise⟩ =>
    .object
      [("type", .string kind.name),
        ("start", .ofOffset start),
        ("end", .ofOffset stop),
        ("name", nameToValue name),
        ("children", .array (listToValues children)),
        ("attributes", .array (listToValues attributes)),
        ("value", attributeToValue value),
        ("expression", optionToValue expression),
        ("else", optionToValue otherwise)]

def listToValues : List Node → List Value
  | [] => []
  | n :: ns => toValue n :: listToValues ns

def optionToValue : Option Node → Value
  | none => .null
  | some n => toValue n

def attributeToValue : AttributeValue Node → Value
  | .absent => .null
  | .flag b => .bool b
  | .nodes ns => .array (listToValues ns)

end

/-! ### Reading -/

/-- The names of the fields of a node, in their order. -/
def fieldNames : List String :=
  ["type", "start", "end", "name", "children", "attributes", "value", "expression", "else"]

/-- An offset that is zero if it is missing. -/
def offset? : Option Value → Option UInt32
  | none => some 0
  | some v => v.offset?

def ofValue? (v : Value) : Option Node :=
  if v.isRecord fieldNames.length then
    match (v.part? 0 "type").bind Value.choice?, offset? (v.part? 1 "start"),
      offset? (v.part? 2 "end") with
    | some kind, some start, some stop => some
      { kind := NodeKind.ofName kind
        start := start
        stop := stop
        name? := (v.part? 3 "name").bind Value.text?
        children :=
          match h : v.part? 4 "children" with
          | none => []
          | some list => list.items.attach.filterMap fun ⟨item, hitem⟩ =>
            have := Value.sizeOf_lt_of_part? h
            have := Value.sizeOf_lt_of_mem_items hitem
            ofValue? item
        attributes :=
          match h : v.part? 5 "attributes" with
          | none => []
          | some list => list.items.attach.filterMap fun ⟨item, hitem⟩ =>
            have := Value.sizeOf_lt_of_part? h
            have := Value.sizeOf_lt_of_mem_items hitem
            ofValue? item
        value :=
          match h : v.part? 6 "value" with
          | some (.bool b) => .flag b
          | some (.array items) => .nodes <| (Value.array items).items.attach.filterMap
            fun ⟨item, hitem⟩ =>
              have := Value.sizeOf_lt_of_part? h
              have := Value.sizeOf_lt_of_mem_items hitem
              ofValue? item
          | _ => .absent
        expression :=
          match h : v.part? 7 "expression" with
          | none => none
          | some e =>
            have := Value.sizeOf_lt_of_part? h
            ofValue? e
        otherwise :=
          match h : v.part? 8 "else" with
          | none => none
          | some e =>
            have := Value.sizeOf_lt_of_part? h
            ofValue? e }
    | _, _, _ => none
  else none
termination_by sizeOf v

/-- The nodes in a list that may be missing. -/
def listOf (v : Option Value) : List Node :=
  (v.map Value.items).getD [] |>.filterMap ofValue?

/-- The value of an attribute that may be missing. -/
def attributeValueOf : Option Value → AttributeValue Node
  | some (.bool b) => .flag b
  | some (.array items) => .nodes (items.filterMap ofValue?)
  | _ => .absent

/-- A node by its kind, its offsets and the values of its other fields. -/
def ofParts (kind : String) (start stop : UInt32)
    (name children attributes value expression otherwise : Option Value) : Node :=
  { kind := NodeKind.ofName kind
    start := start
    stop := stop
    name? := name.bind Value.text?
    children := listOf children
    attributes := listOf attributes
    value := attributeValueOf value
    expression := expression.bind ofValue?
    otherwise := otherwise.bind ofValue? }

/-- The node that a value stands for, by its parts. -/
theorem ofValue?_eq (v : Value) :
    ofValue? v =
      if v.isRecord fieldNames.length then
        match (v.part? 0 "type").bind Value.choice?, offset? (v.part? 1 "start"),
          offset? (v.part? 2 "end") with
        | some kind, some start, some stop => some
          (ofParts kind start stop (v.part? 3 "name") (v.part? 4 "children")
            (v.part? 5 "attributes") (v.part? 6 "value") (v.part? 7 "expression")
            (v.part? 8 "else"))
        | _, _, _ => none
      else none := by
  rw [ofValue?]
  split
  · split
    · rename_i kind start stop _ _ _
      simp only [ofParts, Option.some.injEq, Node.mk.injEq, true_and]
      refine ⟨?_, ?_, ?_, ?_, ?_⟩
      · split <;> rename_i h <;> simp [h, listOf]
      · split <;> rename_i h <;> simp [h, listOf]
      · split <;> rename_i h <;> simp_all [attributeValueOf, Value.items]
      · split <;> rename_i h <;> simp [h]
      · split <;> rename_i h <;> simp [h]
    · rfl
  · rfl

/-! ### The root of a text -/

/-- An offset at the root that is zero if it is missing. -/
def writtenOffset? : Option Written → Option UInt32
  | none => some 0
  | some w => w.offset?

/-- The node at the root of a text whose fields are nested to at most a depth.  What is read must
have a value, whatever its shape. -/
def read? (depth : Nat) (w : Written) : Option Node := do
  match ← w.parts? fieldNames with
  | [kind, start, stop, name, children, attributes, value, expression, otherwise] =>
    return ofParts (← (← kind).choice?) (← writtenOffset? start) (← writtenOffset? stop)
      (← Written.optional? depth name) (← Written.optional? depth children)
      (← Written.optional? depth attributes) (← Written.optional? depth value)
      (← Written.optional? depth expression) (← Written.optional? depth otherwise)
  | _ => none

end Node

end PropCheck
