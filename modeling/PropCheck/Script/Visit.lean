import PropCheck.Script.Syntax

/-!
# Visiting a syntax tree

* `Part.children`: the pieces directly inside a piece, in reading order.
* `Part.pieces`: a piece and all that is inside it; a piece stands before what is inside it, and
  what is inside it before the next piece.
-/

namespace PropCheck.Script

def TypeExpr.children : TypeExpr → List Part
  | missing | keyword _ | string _ | number _ | boolean _ => []
  | array t | optional t | group t => [.type t]
  | tuple ts | union ts | intersection ts | template ts | reference _ ts => ts.map .type
  | object ms => ms.map .member
  | function f => [.function f]
  | other parts => parts

/-- The expression inside a computed key. -/
def Key.children : Key → List Part
  | named _ | secret => []
  | computed e => [.expr e]

def Member.children : Member → List Part
  | mk _ _ decorators key type value => decorators ++ [.key key, .type type, .expr value]
  | other parts => parts

def Binder.children : Binder → List Part
  | mk decorators pattern type _ value => decorators ++ [.pattern pattern, .type type, .expr value]

def Function.children : Function → List Part
  | mk head params tail result body =>
    head ++ (params.map .binder ++ (tail ++ (.type result :: body.map .stmt)))

def Pattern.children : Pattern → List Part
  | hole | name _ => []
  | property key p => [.key key, .pattern p]
  | object ps rest | array ps rest => ps.map .pattern ++ [.pattern rest]
  | default p value => [.pattern p, .expr value]

/-- The pieces directly inside an item. The default of a shorthand is not among them, as it has a
meaning in an assignment only. -/
def Item.children : Item → List Part
  | property key e => [.key key, .expr e]
  | value e | spread e => [.expr e]
  | shorthand _ _ | hole => []

def Expr.children : Expr → List Part
  | missing | string _ | number _ | boolean _ | bigint _ | null | regex _ | identifier _ => []
  | template _ parts | compound _ parts => parts
  | paren e | unary _ e => [.expr e]
  | cast e t => [.expr e, .type t]
  | assertion t e => [.type t, .expr e]
  | instantiation e ts => .expr e :: ts.map .type
  | object items | array items => items.map .item
  | function f => [.function f]
  | classExpr c => [.classBody c]
  | construct callee arguments => .expr callee :: arguments

def Class.children : Class → List Part
  | mk _ _ head base baseArguments interfaces members =>
    head ++ (.expr base :: (baseArguments.map .type ++ (interfaces ++ members.map .member)))

def Stmt.children : Stmt → List Part
  | variableDecl _ binders => binders.map .binder
  | function _ f => [.function f]
  | classDecl c => [.classBody c]
  | typeAlias _ head type => head ++ [.type type]
  | interface _ head members => head ++ members.map .member
  | exported s | exportDefault s => [.stmt s]
  | expression e => [.expr e]
  | other parts => parts
  | Stmt.import _ | exportNames _ _ | exportAll _ _ => []

namespace Part

/-- The pieces directly inside a piece, in reading order. -/
def children : Part → List Part
  | type t => t.children
  | key k => k.children
  | member m => m.children
  | binder b => b.children
  | function f => f.children
  | pattern p => p.children
  | item i => i.children
  | expr e => e.children
  | classBody c => c.children
  | stmt s => s.children

/-- A piece made from a member of a list is smaller than the list. -/
theorem sizeOf_lt_of_mem_map {α : Type} [SizeOf α] {f : α → Part}
    (hf : ∀ a, sizeOf (f a) = 1 + sizeOf a) {as : List α} {c : Part} (h : c ∈ as.map f) :
    sizeOf c < 1 + sizeOf as := by
  obtain ⟨a, ha, rfl⟩ := List.mem_map.1 h
  have := List.sizeOf_lt_of_mem ha
  have := hf a
  omega

theorem sizeOf_lt_of_mem_children {c p : Part} (h : c ∈ p.children) : sizeOf c < sizeOf p := by
  have hType := fun {ts : List TypeExpr} {c : Part} (h : c ∈ ts.map Part.type) =>
    sizeOf_lt_of_mem_map (fun _ => by simp) h
  have hMember := fun {ms : List Member} {c : Part} (h : c ∈ ms.map Part.member) =>
    sizeOf_lt_of_mem_map (fun _ => by simp) h
  have hBinder := fun {bs : List Binder} {c : Part} (h : c ∈ bs.map Part.binder) =>
    sizeOf_lt_of_mem_map (fun _ => by simp) h
  have hPattern := fun {ps : List Pattern} {c : Part} (h : c ∈ ps.map Part.pattern) =>
    sizeOf_lt_of_mem_map (fun _ => by simp) h
  have hItem := fun {is : List Item} {c : Part} (h : c ∈ is.map Part.item) =>
    sizeOf_lt_of_mem_map (fun _ => by simp) h
  have hStmt := fun {ss : List Stmt} {c : Part} (h : c ∈ ss.map Part.stmt) =>
    sizeOf_lt_of_mem_map (fun _ => by simp) h
  have hPart := fun {ps : List Part} {c : Part} (h : c ∈ ps) => List.sizeOf_lt_of_mem h
  cases p with
  | type t =>
    cases t <;> simp only [children, TypeExpr.children] at h <;> grind
  | key k => cases k <;> simp only [children, Key.children] at h <;> grind
  | member m => cases m <;> simp only [children, Member.children] at h <;> grind
  | binder b => cases b; simp only [children, Binder.children] at h; grind
  | function f => cases f; simp only [children, Function.children] at h; grind
  | pattern q => cases q <;> simp only [children, Pattern.children] at h <;> grind
  | item i => cases i <;> simp only [children, Item.children] at h <;> grind
  | expr e => cases e <;> simp only [children, Expr.children] at h <;> grind
  | classBody c => cases c; simp only [children, Class.children] at h; grind
  | stmt s => cases s <;> simp only [children, Stmt.children] at h <;> grind

/-- A piece and all that is inside it, in reading order. -/
def pieces (p : Part) : List Part :=
  p :: p.children.attach.flatMap fun ⟨c, _⟩ => pieces c
termination_by p
decreasing_by exact sizeOf_lt_of_mem_children (by assumption)

end Part

end PropCheck.Script
