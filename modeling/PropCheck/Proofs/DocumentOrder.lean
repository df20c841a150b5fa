import Mathlib.Data.List.Forall2
import Mathlib.Data.List.NodupEquivFin
import PropCheck.Proofs.Walk

/-!
# Findings in document order

Every finding is an error at one node of the template, no two findings are at the same node, and the
findings stand in the order in which their nodes stand in the document.

* `Node.document`: all nodes of a template in document order.
* `Diagnostic.IsAt`: a finding is an error at a node.
* `Check.Reports`: findings are errors at distinct nodes of a list, in the order of the list.
* `Check.reports_findings`: the findings of an attribute are at nodes inside it.  A name that is the
  value of an attribute is reported at the name and not at the attribute, since the attribute has
  been found among the members before.
* `Check.findings_in_document_order`: the findings of a template.
-/

namespace PropCheck

/-! ### The document -/

namespace Node

mutual

/-- All nodes in document order: a node, then the nodes of its value, its expression, its
attributes, its children and its else branch. -/
def document : Node → List Node
  | ⟨kind, start, stop, name, children, attributes, value, expression, otherwise⟩ =>
    ⟨kind, start, stop, name, children, attributes, value, expression, otherwise⟩
      :: (documentValue value ++ documentOptional expression ++ documentAll attributes
        ++ documentAll children ++ documentOptional otherwise)

def documentAll : List Node → List Node
  | [] => []
  | node :: nodes => document node ++ documentAll nodes

def documentOptional : Option Node → List Node
  | none => []
  | some node => document node

def documentValue : AttributeValue Node → List Node
  | .nodes nodes => documentAll nodes
  | .absent | .flag _ => []

end

theorem documentAll_eq_flatMap (nodes : List Node) :
    documentAll nodes = nodes.flatMap document := by
  induction nodes with
  | nil => rfl
  | cons node nodes ih => rw [documentAll, ih, List.flatMap_cons]

theorem documentValue_eq_flatMap (value : AttributeValue Node) :
    documentValue value = value.toList.flatMap document := by
  cases value with
  | nodes nodes => exact documentAll_eq_flatMap nodes
  | _ => rfl

theorem document_eq (node : Node) :
    node.document = node :: (node.value.toList.flatMap document ++ documentOptional node.expression
      ++ node.attributes.flatMap document ++ documentAll node.children
      ++ documentOptional node.otherwise) := by
  obtain ⟨kind, start, stop, name, children, attributes, value, expression, otherwise⟩ := node
  rw [document, documentValue_eq_flatMap, documentAll_eq_flatMap attributes]

theorem value_sublist_document (node : Node) :
    (node.value.toList.flatMap document).Sublist node.document := by
  simp only [document_eq node, List.append_assoc]
  exact (List.sublist_append_left _ _).cons node

theorem expression_sublist_document {node expression : Node}
    (h : node.expression = some expression) : expression.document.Sublist node.document := by
  simp only [document_eq node, h, documentOptional, List.append_assoc]
  exact ((List.sublist_append_left _ _).trans (List.sublist_append_right _ _)).cons node

/-- What the walk looks at stands in the document in the order in which the walk looks at it. -/
theorem walk_sublist_document (node : Node) :
    (node :: node.attributes.flatMap document ++ documentAll node.children
      ++ documentOptional node.otherwise).Sublist node.document := by
  simp only [document_eq node, List.append_assoc, List.cons_append]
  exact ((List.sublist_append_right _ _).trans (List.sublist_append_right _ _)).cons_cons node

end Node

/-! ### Findings at nodes -/

/-- The finding is an error at the node. -/
def Diagnostic.IsAt (source : SourceFile) (d : Diagnostic) (node : Node) : Prop :=
  ∃ code message, d = .error source node code message

/-- A component has no member of a name just if the name is not among those of its members. -/
theorem Component.member?_eq_none_iff {component : Component} {name : String} :
    component.member? name = none ↔ name ∉ component.memberNames := by
  simp [Component.memberNames, Component.member?]

namespace Check

/-- The findings are errors at distinct nodes of a list, in the order of the list. -/
abbrev Reports (source : SourceFile) : List Diagnostic → List Node → Prop :=
  List.SublistForall₂ (Diagnostic.IsAt source)

namespace Reports

variable {source : SourceFile} {ds es : List Diagnostic} {ns ms : List Node}

theorem of_sublist (h : Reports source ds ns) (hsub : ns.Sublist ms) : Reports source ds ms := by
  obtain ⟨reported, hall, hreported⟩ := List.sublistForall₂_iff.mp h
  exact List.sublistForall₂_iff.mpr ⟨reported, hall, hreported.trans hsub⟩

theorem append (h : Reports source ds ns) (h' : Reports source es ms) :
    Reports source (ds ++ es) (ns ++ ms) := by
  induction h with
  | nil => exact h'.of_sublist (List.sublist_append_right _ _)
  | cons hd _ ih => exact .cons hd ih
  | cons_right _ ih => exact .cons_right ih

theorem flatMap {α : Type} {f : α → List Diagnostic} {g : α → List Node} {xs : List α}
    (h : ∀ x ∈ xs, Reports source (f x) (g x)) :
    Reports source (xs.flatMap f) (xs.flatMap g) := by
  induction xs with
  | nil => exact .nil
  | cons x xs ih =>
    rw [List.flatMap_cons, List.flatMap_cons]
    exact (h x List.mem_cons_self).append (ih fun y hy => h y (List.mem_cons_of_mem x hy))

theorem head {d : Diagnostic} {n : Node} (h : d.IsAt source n) : Reports source [d] (n :: ns) :=
  .cons h .nil

/-- The findings cover what their nodes cover, in the same order. -/
theorem places_sublist (h : Reports source ds ns) :
    (ds.map fun d => (d.start, d.length)).Sublist (ns.map fun n => (n.start, n.length)) := by
  induction h with
  | nil => exact List.nil_sublist _
  | cons hd _ ih =>
    obtain ⟨code, message, rfl⟩ := hd
    exact ih.cons_cons _
  | cons_right _ ih => exact ih.cons _

/-- A node for each finding, each after the node of the finding before. -/
theorem exists_strictMono (h : Reports source ds ns) :
    ∃ place : Fin ds.length → Fin ns.length,
      StrictMono place ∧ ∀ i, (ds.get i).IsAt source (ns.get (place i)) := by
  obtain ⟨reported, hall, hsub⟩ := List.sublistForall₂_iff.mp h
  obtain ⟨place, hplace⟩ := List.sublist_iff_exists_fin_orderEmbedding_get_eq.mp hsub
  refine ⟨fun i => place (i.cast hall.length_eq), ?_, ?_⟩
  · intro i j hij
    exact place.strictMono hij
  · intro i
    rw [← hplace]
    exact hall.get _ _

theorem pairwise_start (h : Reports source ds ns) (hns : (ns.map (·.start)).Pairwise (· ≤ ·)) :
    (ds.map (·.start)).Pairwise (· ≤ ·) := by
  have hstarts := h.places_sublist.map Prod.fst
  rw [List.map_map, List.map_map] at hstarts
  exact hns.sublist hstarts

end Reports

/-! ### The attributes of a component -/

section Attributes

variable {usage : Usage} (hnames : usage.memberNames = usage.component.memberNames)
include hnames

theorem reports_identifierFinding? {parent node : Node} {attr : Option Node} {ns : List Node}
    (hattr : ∀ a ∈ attr, a.name ∈ usage.memberNames) :
    Reports usage.source (identifierFinding? usage parent attr node).toList (node :: ns) := by
  unfold identifierFinding?
  cases usage.scope.find? node.name with
  | none => exact .head ⟨_, _, rfl⟩
  | some declaration =>
    dsimp only
    by_cases hspread : parent.isSpread = true
    · rw [if_pos hspread]
      split
      · exact .nil
      · exact .head ⟨_, _, rfl⟩
    rw [if_neg hspread]
    cases hmember : usage.component.member? (attr.getD node).name with
    | none =>
      -- an attribute around the name is that of a member, so there is none and the name is reported
      have hproperty : attr.getD node = node := by
        cases attr with
        | none => rfl
        | some a =>
          have hmem := hattr a rfl
          rw [hnames] at hmem
          exact absurd hmem (Component.member?_eq_none_iff.mp hmember)
      rw [hproperty]
      exact .head ⟨_, _, rfl⟩
    | some m =>
      dsimp only
      split
      · exact .nil
      · exact .head ⟨_, _, rfl⟩

/-- **The findings of a node are at nodes inside it, in document order.** -/
theorem reports_findings {parent node : Node} {attr : Option Node}
    (hattr : ∀ a ∈ attr, a.name ∈ usage.memberNames) :
    Reports usage.source (findings usage parent attr node) node.document := by
  induction parent, attr, node using findings_induction usage with
  | identifier parent attr node hidentifier =>
    rw [findings_identifier _ _ _ hidentifier, Node.document_eq]
    exact reports_identifierFinding? hnames hattr
  | knownAttribute parent attr node hattribute hmember ih =>
    rw [findings_attribute _ _ _ hattribute, if_pos hmember]
    have hvalue : Reports usage.source
        (node.value.toList.flatMap (findings usage node (some node)))
        (node.value.toList.flatMap Node.document) := by
      apply Reports.flatMap
      intro piece hpiece
      apply ih piece hpiece
      rintro a ⟨⟩
      exact List.contains_iff_mem.mp hmember
    exact hvalue.of_sublist node.value_sublist_document
  | unknownAttribute parent attr node hattribute hmember =>
    rw [findings_attribute _ _ _ hattribute, if_neg hmember, Node.document_eq]
    exact .head ⟨_, _, rfl⟩
  | wrapper parent attr node hwrapper ih =>
    rw [findings_wrapper _ _ _ hwrapper]
    cases hexpression : node.expression with
    | none => exact .nil
    | some expression =>
      rw [Option.toList_some, List.flatMap_singleton]
      exact (ih expression hexpression hattr).of_sublist
        (Node.expression_sublist_document hexpression)
  | other parent attr node hidentifier hattribute hwrapper =>
    rw [findings_other _ _ _ hidentifier hattribute hwrapper]
    exact .nil

theorem reports_attributeFindings (node : Node) :
    Reports usage.source (attributeFindings usage node)
      (node.attributes.flatMap Node.document) := by
  apply Reports.flatMap
  intro attr _
  apply reports_findings hnames
  rintro a ⟨⟩

end Attributes

/-! ### The components of a template -/

section Matching

variable {α β : Type} (importName : β → String) (componentName : α → String)

theorem matchByName_nil (clauses : List β) :
    matchByName importName componentName clauses [] = ([], []) := by
  induction clauses with
  | nil => rfl
  | cons clause clauses ih => exact ih

/-- One component is matched with one import or with none. -/
theorem matchByName_singleton (clauses : List β) (c : α) :
    matchByName importName componentName clauses [c] = ([], [c]) ∨
      ∃ clause, matchByName importName componentName clauses [c] = ([(c, clause)], []) := by
  induction clauses with
  | nil => exact Or.inl rfl
  | cons clause clauses ih =>
    simp only [matchByName, extract?]
    split
    · rename_i hextract
      split at hextract
      · cases hextract
        exact Or.inr ⟨clause, by rw [matchByName_nil]⟩
      · cases hextract
    · exact ih

end Matching

/-- The findings of a component are at the component or at nodes of its attributes. -/
theorem reports_usageFindings (run : Run) (node : Node) :
    Reports run.source (usageFindings run node)
      (node :: node.attributes.flatMap Node.document) := by
  unfold usageFindings
  split
  · exact .nil
  · rcases matchByName_singleton (fun (c : Script.ImportClause) => c.name.text) Node.name
      run.scope.imports node with hmatch | ⟨clause, hmatch⟩
    · simp only [hmatch]
      exact .head ⟨_, _, rfl⟩
    · simp only [hmatch, List.map_nil, List.nil_append, List.flatMap_singleton, matchedFindings]
      cases run.program.resolveImport? clause run.file with
      | none => exact .nil
      | some component =>
        let usage : Usage :=
          ⟨run.options, run.scope, run.source, component, component.memberNames⟩
        have hnames : usage.memberNames = usage.component.memberNames := rfl
        exact .cons_right (reports_attributeFindings hnames node)

mutual

theorem reports_components (run : Run) : ∀ node : Node,
    Reports run.source (node.components.flatMap (usageFindings run)) node.document
  | ⟨kind, start, stop, name, children, attributes, value, expression, otherwise⟩ => by
    have hchildren := reports_componentsAll run children
    have hotherwise := reports_componentsOptional run otherwise
    refine Reports.of_sublist ?_ (Node.walk_sublist_document _)
    simp only [Node.components, Node.walked, List.filter_cons, List.filter_append]
    split
    · simp only [List.flatMap_cons, List.flatMap_append, ← List.append_assoc]
      exact ((reports_usageFindings run _).append hchildren).append hotherwise
    · rw [List.flatMap_append]
      exact (Reports.append .nil hchildren).append hotherwise

theorem reports_componentsAll (run : Run) : ∀ nodes : List Node,
    Reports run.source (((Node.walkedAll nodes).filter Node.isComponent).flatMap
      (usageFindings run)) (Node.documentAll nodes)
  | [] => .nil
  | node :: nodes => by
    rw [Node.walkedAll, List.filter_append, List.flatMap_append, Node.documentAll]
    exact (reports_components run node).append (reports_componentsAll run nodes)

theorem reports_componentsOptional (run : Run) : ∀ node : Option Node,
    Reports run.source (((Node.walkedOptional node).filter Node.isComponent).flatMap
      (usageFindings run)) (Node.documentOptional node)
  | none => .nil
  | some node => reports_components run node

end

/-- **Every finding is at a node of its own, in document order.**  What the findings cover is, in
their order, part of what the nodes of the document cover; the nodes can be chosen such that each
stands after that of the finding before.  Hence the findings start in order if the nodes do. -/
theorem findings_in_document_order {run : Run} (hbuilt : run.program.Built) (root : Node) :
    ((checkTemplate run root).map fun d => (d.start, d.length)).Sublist
      (root.document.map fun n => (n.start, n.length)) ∧
    (∃ place : Fin (checkTemplate run root).length → Fin root.document.length,
      StrictMono place ∧
        ∀ i, ((checkTemplate run root).get i).IsAt run.source (root.document.get (place i))) ∧
    ((root.document.map (·.start)).Pairwise (· ≤ ·) →
      ((checkTemplate run root).map (·.start)).Pairwise (· ≤ ·)) := by
  have hreports := reports_components run root
  rw [← checkTemplate_eq_flatMap hbuilt] at hreports
  exact ⟨hreports.places_sublist, hreports.exists_strictMono, hreports.pairwise_start⟩

/-- A component with an attribute that is not a member, around one that is not imported. -/
theorem findings_in_document_order_nested :
    let run := counterRun "<Counter step><Button /></Counter>"
    let step : Node := ⟨.attr, 9, 13, some "step", [], [], .flag true, none, none⟩
    let button : Node := ⟨.inlineComponent, 14, 24, some "Button", [], [], .absent, none, none⟩
    let root : Node :=
      ⟨.inlineComponent, 0, 34, some "Counter", [button], [step], .absent, none, none⟩
    (checkTemplate run root).map (·.start) = [9, 14] ∧
    ((checkTemplate run root).map fun d => (d.start, d.length)).Sublist
      (root.document.map fun n => (n.start, n.length)) ∧
    ((checkTemplate run root).map (·.start)).Pairwise (· ≤ ·) := by
  intro run step button root
  obtain ⟨hplaces, -, hstarts⟩ := findings_in_document_order (built_counterRun _) root
  have hdocument : root.document.map (·.start) = [0, 9, 14] := rfl
  refine ⟨by decide +kernel, hplaces, hstarts ?_⟩
  rw [hdocument]
  decide

end Check

end PropCheck
