/-!
# Template trees

A template is a tree of nodes, each with its stretch of the source in bytes.  Only what the checker
reads is kept of a node.

* `NodeKind`: what a node is; kinds that the checker does not know are `other`.
* `Node`: a node of a template.
* `Node.length`: how many bytes a node covers.
-/

namespace PropCheck

inductive NodeKind where
  | fragment
  | element
  | inlineComponent
  | attr
  | text
  | mustacheTag
  | spread
  | shorthand
  | identifier
  | other
deriving DecidableEq, Repr, Inhabited

namespace NodeKind

def name : NodeKind → String
  | fragment => "Fragment"
  | element => "Element"
  | inlineComponent => "InlineComponent"
  | attr => "Attribute"
  | text => "Text"
  | mustacheTag => "MustacheTag"
  | spread => "Spread"
  | shorthand => "AttributeShorthand"
  | identifier => "Identifier"
  | other => "Other"

/-- The kind of a name; a name that is not known is of kind `other`. -/
def ofName : String → NodeKind
  | "Fragment" => fragment
  | "Element" => element
  | "InlineComponent" => inlineComponent
  | "Attribute" => attr
  | "Text" => text
  | "MustacheTag" => mustacheTag
  | "Spread" => spread
  | "AttributeShorthand" => shorthand
  | "Identifier" => identifier
  | _ => other

@[simp] theorem ofName_name (kind : NodeKind) : ofName kind.name = kind := by
  cases kind <;> rfl

end NodeKind

/-- The value of an attribute: none, a flag for an attribute without a value, or pieces. -/
inductive AttributeValue (α : Type) where
  | absent
  | flag (set : Bool)
  | nodes (nodes : List α)
deriving Repr, Inhabited

def AttributeValue.toList {α : Type} : AttributeValue α → List α
  | nodes ns => ns
  | _ => []

/-- A node of a template; `otherwise` is its else branch. -/
structure Node where
  kind : NodeKind
  start : UInt32
  stop : UInt32
  name? : Option String
  children : List Node
  attributes : List Node
  value : AttributeValue Node
  expression : Option Node
  otherwise : Option Node
deriving Inhabited

namespace Node

/-- The name of a node; a node without a name has an empty one. -/
def name (node : Node) : String :=
  node.name?.getD ""

def isComponent (node : Node) : Bool :=
  node.kind == .inlineComponent

def isAttribute (node : Node) : Bool :=
  node.kind == .attr

/-- Whether a node is a name that stands for a value. -/
def isIdentifier (node : Node) : Bool :=
  node.kind == .identifier

def isSpread (node : Node) : Bool :=
  node.kind == .spread

/-- Whether a node stands for one expression inside it. -/
def isWrapper (node : Node) : Bool :=
  node.kind == .mustacheTag || node.kind == .spread || node.kind == .shorthand

/-- How many bytes a node covers; none if it ends before it starts. -/
def length (node : Node) : UInt32 :=
  if node.start ≤ node.stop then node.stop - node.start else 0

/-- Whether a node covers nothing. -/
def isEmpty (node : Node) : Bool :=
  node.length == 0

/-! ### Sizes -/

theorem sizeOf_lt_of_mem_children {node child : Node} (h : child ∈ node.children) :
    sizeOf child < sizeOf node := by
  have := List.sizeOf_lt_of_mem h
  cases node
  simp at *
  omega

theorem sizeOf_lt_of_mem_attributes {node child : Node} (h : child ∈ node.attributes) :
    sizeOf child < sizeOf node := by
  have := List.sizeOf_lt_of_mem h
  cases node
  simp at *
  omega

theorem sizeOf_lt_of_mem_value {node child : Node} (h : child ∈ node.value.toList) :
    sizeOf child < sizeOf node := by
  have := List.sizeOf_lt_of_mem h
  obtain ⟨_, _, _, _, _, _, value, _, _⟩ := node
  cases value <;> simp [AttributeValue.toList] at *
  omega

theorem sizeOf_lt_of_expression {node child : Node} (h : node.expression = some child) :
    sizeOf child < sizeOf node := by
  cases node
  simp at *
  subst h
  simp
  omega

theorem sizeOf_lt_of_otherwise {node child : Node} (h : node.otherwise = some child) :
    sizeOf child < sizeOf node := by
  cases node
  simp at *
  subst h
  simp
  omega

end Node

end PropCheck
