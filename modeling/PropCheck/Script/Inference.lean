import PropCheck.Script.TypeTable

/-!
# The type of a value

The type of an expression as far as it can be told without computing anything: literals, objects,
arrays, functions, casts and names of earlier declarations.  Everything else is `any`.  Literal
types are kept; whoever declares something that may change widens them.

* `TypeTable.infer`: the type of an expression, given the types of names.
-/

namespace PropCheck.Script.TypeTable

def unaryType : UnaryOp → Ty
  | .not => .keyword .boolean
  | .typeOf => .keyword .string
  | .void => .undefined
  | .sign => .keyword .number
  | .other => .any

def nameType (lookup : String → Option Ty) (name : String) : Ty :=
  if name == "undefined" then .undefined else (lookup name).getD .any

def arrayOf : List Ty → Ty
  | [] => .array .any
  | ts => .array (Ty.unionOf ts)

mutual

def infer (table : TypeTable) (lookup : String → Option Ty) (e : Expr) : Ty :=
  match e with
  | .string s => .string s
  | .number x => .number x
  | .boolean b => .boolean b
  | .bigint _ => .keyword .bigint
  | .null => .null
  | .template .. => .keyword .string
  | .identifier name => nameType lookup name
  | .paren e => infer table lookup e
  | .cast _ type => table.lower type
  | .unary operator _ => unaryType operator
  | .object items => .object none (inferProperties table lookup items)
  | .array items => arrayOf (inferElements table lookup items)
  | .function f => table.functionType false f
  | .construct (.identifier name) _ => .reference name []
  | .missing | .regex _ | .classExpr _ | .construct .. | .assertion .. | .instantiation ..
  | .compound .. => .any
termination_by sizeOf e

def inferProperties (table : TypeTable) (lookup : String → Option Ty) (items : List Item) :
    List (Slot Ty) :=
  match items with
  | [] => []
  | .property key e :: is =>
    slot? key (infer table lookup e).widened false ++ inferProperties table lookup is
  | .shorthand name _ :: is =>
    ⟨name, (nameType lookup name).widened, false⟩ :: inferProperties table lookup is
  | _ :: is => inferProperties table lookup is
termination_by sizeOf items

def inferElements (table : TypeTable) (lookup : String → Option Ty) (items : List Item) : List Ty :=
  match items with
  | [] => []
  | .value e :: is => (infer table lookup e).widened :: inferElements table lookup is
  | _ :: is => inferElements table lookup is
termination_by sizeOf items

end

end PropCheck.Script.TypeTable
