import PropCheck.Assignability.Explanation
import PropCheck.Component.Basic
import PropCheck.Diagnostic.Basic
import PropCheck.Script.Scope
import PropCheck.Ty.Text

/-!
# Checking the attributes of a component

Each attribute of a component in a template is checked against the members of the component: there
must be a member of its name, and a value that is a declared name must have a type that fits.

* `Check.Usage`: what the checks of one component in a template look at.
* `Check.identifierFinding?`: what is wrong with a name that is used as a value.
* `Check.findings`: what is wrong with an attribute.
-/

namespace PropCheck.Check

/-- What the checks of one component in a template look at. -/
structure Usage where
  options : Options
  scope : Script.Scope
  source : SourceFile
  component : Component
  memberNames : List String

/-- What is wrong with a name that is used as a value.  Its type must fit the properties of the
component if it is spread, and otherwise the member that its attribute, or the name itself, names.
-/
def identifierFinding? (usage : Usage) (parent : Node) (attr : Option Node) (node : Node) :
    Option Diagnostic :=
  match usage.scope.find? node.name with
  | none => some (.nameNotFound usage.source usage.scope.names node)
  | some declaration =>
    if parent.isSpread then
      if Assign.assignable usage.options usage.component.instanceType declaration.type then none
      else some (.spreadNotAssignable usage.source node declaration.type.text usage.component.name)
    else
      let property := attr.getD node
      match usage.component.member? property.name with
      | none =>
        some (.unknownProperty usage.source usage.memberNames usage.component.name property)
      | some m =>
        if Assign.assignable usage.options m.declared declaration.type then none
        else some (.notAssignable usage.source node declaration.type.text m.type.text
          (Assign.explain? usage.options m.type declaration.type) m.name usage.component.name)

/-- What is wrong with a node inside a parent, possibly inside the value of an attribute. -/
def findings (usage : Usage) (parent : Node) (attr : Option Node) (node : Node) :
    List Diagnostic :=
  if node.isIdentifier then (identifierFinding? usage parent attr node).toList
  else if node.isAttribute then
    if usage.memberNames.contains node.name then
      node.value.toList.attach.flatMap fun ⟨piece, hpiece⟩ =>
        have := Node.sizeOf_lt_of_mem_value hpiece
        findings usage node (some node) piece
    else [.unknownProperty usage.source usage.memberNames usage.component.name node]
  else if node.isWrapper then
    match h : node.expression with
    | none => []
    | some expression =>
      have := Node.sizeOf_lt_of_expression h
      findings usage node attr expression
  else []
termination_by sizeOf node

section Kinds

variable (usage : Usage) (parent : Node) (attr : Option Node) {node : Node}

theorem findings_identifier (h : node.isIdentifier = true) :
    findings usage parent attr node = (identifierFinding? usage parent attr node).toList := by
  rw [findings, if_pos h]

theorem findings_attribute (h : node.isAttribute = true) :
    findings usage parent attr node
      = if usage.memberNames.contains node.name then
          node.value.toList.flatMap (findings usage node (some node))
        else [.unknownProperty usage.source usage.memberNames usage.component.name node] := by
  have hidentifier : node.isIdentifier = false := by
    simp only [Node.isAttribute, beq_iff_eq] at h
    simp [Node.isIdentifier, h]
  rw [findings, hidentifier, h]
  simp only [Bool.false_eq_true, ↓reduceIte, List.flatMap_subtype, List.unattach_attach]

theorem findings_wrapper (h : node.isWrapper = true) :
    findings usage parent attr node
      = node.expression.toList.flatMap (findings usage node attr) := by
  have hother : node.isIdentifier = false ∧ node.isAttribute = false := by
    simp only [Node.isWrapper, Bool.or_eq_true, beq_iff_eq] at h
    rcases h with (h | h) | h <;> simp [Node.isIdentifier, Node.isAttribute, h]
  rw [findings, hother.1, hother.2, h]
  simp only [Bool.false_eq_true, ↓reduceIte]
  split
  · rename_i hnone
    rw [hnone]
    rfl
  · rename_i expression hsome
    rw [hsome]
    exact (List.append_nil _).symm

theorem findings_other (hidentifier : ¬ node.isIdentifier = true)
    (hattribute : ¬ node.isAttribute = true) (hwrapper : ¬ node.isWrapper = true) :
    findings usage parent attr node = [] := by
  rw [findings, if_neg hidentifier, if_neg hattribute, if_neg hwrapper]

end Kinds

/-- **Induction along the check of a node**: into the value of an attribute that names a member, and
through a wrapper. -/
theorem findings_induction (usage : Usage) {motive : Node → Option Node → Node → Prop}
    (identifier : ∀ parent attr node, node.isIdentifier = true → motive parent attr node)
    (knownAttribute : ∀ parent attr node, node.isAttribute = true →
      usage.memberNames.contains node.name = true →
      (∀ piece ∈ node.value.toList, motive node (some node) piece) → motive parent attr node)
    (unknownAttribute : ∀ parent attr node, node.isAttribute = true →
      ¬ usage.memberNames.contains node.name = true → motive parent attr node)
    (wrapper : ∀ parent attr node, node.isWrapper = true →
      (∀ expression, node.expression = some expression → motive node attr expression) →
      motive parent attr node)
    (other : ∀ parent attr node, ¬ node.isIdentifier = true → ¬ node.isAttribute = true →
      ¬ node.isWrapper = true → motive parent attr node)
    (parent : Node) (attr : Option Node) (node : Node) : motive parent attr node := by
  by_cases hidentifier : node.isIdentifier = true
  · exact identifier parent attr node hidentifier
  by_cases hattribute : node.isAttribute = true
  · by_cases hmember : usage.memberNames.contains node.name = true
    · refine knownAttribute parent attr node hattribute hmember fun piece hpiece => ?_
      have := Node.sizeOf_lt_of_mem_value hpiece
      exact findings_induction usage identifier knownAttribute unknownAttribute wrapper other
        node (some node) piece
    · exact unknownAttribute parent attr node hattribute hmember
  by_cases hwrapper : node.isWrapper = true
  · refine wrapper parent attr node hwrapper fun expression hexpression => ?_
    have := Node.sizeOf_lt_of_expression hexpression
    exact findings_induction usage identifier knownAttribute unknownAttribute wrapper other
      node attr expression
  · exact other parent attr node hidentifier hattribute hwrapper
termination_by sizeOf node

/-- What is wrong with the attributes of a component in a template. -/
def attributeFindings (usage : Usage) (node : Node) : List Diagnostic :=
  node.attributes.flatMap (findings usage node none)

end PropCheck.Check
