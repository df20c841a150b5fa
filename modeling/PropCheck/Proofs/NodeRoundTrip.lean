import PropCheck.Template.Record

/-!
# Template nodes survive being written

The reader of nodes takes what it can use and passes over the rest without a word, so that a field
which is written in one way and read in another would be lost unnoticed.  Nothing is lost: what is
written of a node is read as that node.

* `Node.ofValue?_toValue_eq`: a written node is read field by field, each field under its own name.
* `Node.filterMap_listToValues`, `Node.attributeValueOf_attributeToValue`,
  `Node.ofValue?_optionToValue`: lists, values and optional nodes are read as they were if the nodes
  in them are.
* `Node.node_survives_json`: every node is read as it was.
-/

namespace PropCheck

open Json (Value)

/-- **An offset is read as it was**: every number of 32 bits is written as a whole number. -/
theorem Json.Value.offset?_ofOffset (n : UInt32) : (Value.ofOffset n).offset? = some n := by
  have hlt : n.toNat < UInt32.size := n.toNat_lt_size
  simp only [Value.ofOffset, Value.offset?, Numeral.natural?_ofNat, if_pos hlt,
    UInt32.ofNat_toNat]

namespace Node

theorem text?_nameToValue (name : Option String) : (nameToValue name).text? = name := by
  cases name <;> rfl

/-- A written node is read field by field. -/
theorem ofValue?_toValue_eq (node : Node) :
    ofValue? node.toValue = some
      (ofParts node.kind.name node.start node.stop (some (nameToValue node.name?))
        (some (.array (listToValues node.children))) (some (.array (listToValues node.attributes)))
        (some (attributeToValue node.value)) (some (optionToValue node.expression))
        (some (optionToValue node.otherwise))) := by
  obtain ⟨kind, start, stop, name, children, attributes, value, expression, otherwise⟩ := node
  have hstart : offset? (some (.ofOffset start)) = some start := Value.offset?_ofOffset start
  have hstop : offset? (some (.ofOffset stop)) = some stop := Value.offset?_ofOffset stop
  rw [ofValue?_eq, toValue]
  simp [Value.isRecord, Value.part?, Json.lookup?, Value.choice?, hstart, hstop]

/-! ### The fields that hold nodes -/

theorem filterMap_listToValues {nodes : List Node}
    (h : ∀ node ∈ nodes, ofValue? node.toValue = some node) :
    (listToValues nodes).filterMap ofValue? = nodes := by
  induction nodes with
  | nil => rfl
  | cons node nodes ih =>
    have hnode : ofValue? node.toValue = some node := h node (List.mem_cons_self ..)
    have hnodes : (listToValues nodes).filterMap ofValue? = nodes :=
      ih fun n hn => h n (List.mem_cons_of_mem node hn)
    rw [listToValues, List.filterMap_cons, hnode, hnodes]

theorem attributeValueOf_attributeToValue {value : AttributeValue Node}
    (h : ∀ node ∈ value.toList, ofValue? node.toValue = some node) :
    attributeValueOf (some (attributeToValue value)) = value := by
  cases value with
  | absent => rfl
  | flag set => rfl
  | nodes nodes => exact congrArg AttributeValue.nodes (filterMap_listToValues h)

theorem ofValue?_optionToValue {node? : Option Node}
    (h : ∀ node, node? = some node → ofValue? node.toValue = some node) :
    ofValue? (optionToValue node?) = node? := by
  cases node? with
  | none =>
    -- what is written for no node is no record, so it is read as no node
    rw [optionToValue, ofValue?_eq]
    rfl
  | some node => exact h node rfl

/-! ### Nodes -/

/-- **Template nodes survive being written as JSON.**  Whatever a node is and holds, at whatever
depth, what is written of it is read as that node. -/
theorem node_survives_json (node : Node) : ofValue? node.toValue = some node := by
  -- strong induction on the size of the node, since five of its fields hold smaller ones
  induction hn : sizeOf node using Nat.strongRecOn generalizing node with
  | ind n ih =>
    subst hn
    have hchildren : listOf (some (.array (listToValues node.children))) = node.children :=
      filterMap_listToValues fun c hc => ih _ (sizeOf_lt_of_mem_children hc) c rfl
    have hattributes : listOf (some (.array (listToValues node.attributes))) = node.attributes :=
      filterMap_listToValues fun c hc => ih _ (sizeOf_lt_of_mem_attributes hc) c rfl
    have hvalue : attributeValueOf (some (attributeToValue node.value)) = node.value :=
      attributeValueOf_attributeToValue fun c hc => ih _ (sizeOf_lt_of_mem_value hc) c rfl
    have hexpression : ofValue? (optionToValue node.expression) = node.expression :=
      ofValue?_optionToValue fun c hc => ih _ (sizeOf_lt_of_expression hc) c rfl
    have hotherwise : ofValue? (optionToValue node.otherwise) = node.otherwise :=
      ofValue?_optionToValue fun c hc => ih _ (sizeOf_lt_of_otherwise hc) c rfl
    rw [ofValue?_toValue_eq, ofParts, hchildren, hattributes, hvalue]
    simp only [Option.bind_some, NodeKind.ofName_name, text?_nameToValue, hexpression, hotherwise]
    cases node
    rfl

end Node

end PropCheck
