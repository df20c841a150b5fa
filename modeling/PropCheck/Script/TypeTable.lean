import PropCheck.Script.Syntax
import PropCheck.Ty.Union
import PropCheck.Double.Text

/-!
# The meaning of written types

A written type is read against the type aliases and interfaces of its script.  The name of one of
them stands for its meaning, except inside its own meaning: there it stays a reference.

* `TypeTable`: the named types of a script; the first of a name counts.
* `TypeTable.lower`: the type that a written type means.
* `Key.name?`: the name of a key, if it can be told.
-/

namespace PropCheck.Script

/-- What a name of a type stands for. -/
inductive NamedType where
  | alias (type : TypeExpr)
  | interface (members : List Member)

/-- The named types of a script, in their order. -/
abbrev TypeTable := List (String × NamedType)

def Stmt.namedType? : Stmt → Option (String × NamedType)
  | .typeAlias name _ type => some (name, .alias type)
  | .interface name _ members => some (name, .interface members)
  | .exported (.typeAlias name _ type) => some (name, .alias type)
  | .exported (.interface name _ members) => some (name, .interface members)
  | _ => none

def TypeTable.ofStatements (statements : List Stmt) : TypeTable :=
  statements.filterMap Stmt.namedType?

/-- What a name stands for: the first entry counts. -/
def TypeTable.find? (table : TypeTable) (name : String) : Option NamedType :=
  (List.find? (fun entry => entry.1 == name) table).map (·.2)

/-! ### Keys -/

/-- The name that an expression in brackets is known to give. -/
def Expr.keyName? : Expr → Option String
  | .string s => some s
  | .number x => some x.text
  | .bigint digits => some digits
  | .null => some "null"
  | .regex source => some source
  | .template head [] => head
  | _ => none

/-- The name of a key, if it can be told. -/
def Key.name? : Key → Option String
  | .named name => some name
  | .secret => none
  | .computed e => e.keyName?

/-! ### Lowering -/

/-- How many entries of a table are not being resolved. -/
def TypeTable.unresolved (table : TypeTable) (resolving : List String) : Nat :=
  (table.filter fun entry => !resolving.contains entry.1).length

theorem TypeTable.unresolved_cons_lt {table : TypeTable} {name : String} {resolving : List String}
    {named : NamedType} (hfind : table.find? name = some named) (hnew : name ∉ resolving) :
    table.unresolved (name :: resolving) < table.unresolved resolving := by
  simp only [TypeTable.find?, Option.map_eq_some_iff] at hfind
  obtain ⟨entry, hentry, -⟩ := hfind
  have hmem := List.mem_of_find?_eq_some hentry
  have hname : entry.1 = name := by simpa using List.find?_some hentry
  unfold TypeTable.unresolved
  have hsub : (table.filter fun e => !(name :: resolving).contains e.1)
      = (table.filter fun e => !resolving.contains e.1).filter fun e => !(e.1 == name) := by
    rw [List.filter_filter]
    apply List.filter_congr
    intro e _
    by_cases h : e.1 = name <;> simp [h]
  rw [hsub]
  apply List.length_filter_lt_length_iff_exists.2
  exact ⟨entry, by simp [List.mem_filter, hmem, hname, hnew], by simp [hname]⟩

/-- The names that stand for types of their own. -/
def builtIn? : String → List Ty → Option Ty
  | "Array", [t] | "ReadonlyArray", [t] => some (.array t)
  | "Function", [] => some (.keyword .object)
  | "Object", [] => some (.object none [])
  | _, _ => none

/-- The name of a parameter; one that is taken apart is named by its place. -/
def paramName (index : Nat) : Pattern → String
  | .name n => n.text
  | _ => "arg" ++ toString index

/-- A property, if its key has a name. -/
def slot? (key : Key) (type : Ty) (isOptional : Bool) : List (Slot Ty) :=
  match key.name? with
  | some name => [⟨name, type, isOptional⟩]
  | none => []

namespace TypeTable

mutual

/-- The type that a written type means, while some names are being resolved. -/
def lowerType (table : TypeTable) (resolving : List String) (type : TypeExpr) : Ty :=
  match type with
  | .missing | .other _ | .optional _ => .any
  | .keyword k => .keyword k
  | .string s => .string s
  | .number x => .number x
  | .boolean b => .boolean b
  | .template _ => .keyword .string
  | .array t => .array (lowerType table resolving t)
  | .tuple ts => .tuple (lowerElements table resolving ts)
  | .union ts => Ty.unionOf (lowerTypes table resolving ts)
  | .intersection ts => .intersection (lowerTypes table resolving ts)
  | .group t => lowerType table resolving t
  | .object ms => .object none (lowerMembers table resolving ms)
  | .function (.mk _ params _ result _) =>
    .function (lowerParams table resolving 0 params) (lowerType table resolving result) false
  | .reference name args =>
    let arguments := lowerTypes table resolving args
    match builtIn? name arguments with
    | some t => t
    | none =>
      match hfind : table.find? name with
      | none => .reference name arguments
      | some named =>
        if hnew : name ∈ resolving then .reference name arguments
        else
          have := unresolved_cons_lt hfind hnew
          match named with
          | .alias t => lowerType table (name :: resolving) t
          | .interface ms => .object (some name) (lowerMembers table (name :: resolving) ms)
termination_by (table.unresolved resolving, sizeOf type)

def lowerTypes (table : TypeTable) (resolving : List String) (types : List TypeExpr) : List Ty :=
  match types with
  | [] => []
  | t :: ts => lowerType table resolving t :: lowerTypes table resolving ts
termination_by (table.unresolved resolving, sizeOf types)

/-- The meanings of the elements of a tuple; an optional one may be `undefined`. -/
def lowerElements (table : TypeTable) (resolving : List String) (types : List TypeExpr) : List Ty :=
  match types with
  | [] => []
  | .optional t :: ts =>
    Ty.unionOf [lowerType table resolving t, .undefined] :: lowerElements table resolving ts
  | t :: ts => lowerType table resolving t :: lowerElements table resolving ts
termination_by (table.unresolved resolving, sizeOf types)

/-- The properties that the members of an object type or interface give. -/
def lowerMembers (table : TypeTable) (resolving : List String) (members : List Member) :
    List (Slot Ty) :=
  match members with
  | [] => []
  | .mk .field marks _ key type _ :: ms =>
    slot? key (lowerType table resolving type) marks.optional ++ lowerMembers table resolving ms
  | .mk _ marks _ key _ (.function (.mk _ params _ result _)) :: ms =>
    slot? key
        (.function (lowerParams table resolving 0 params) (lowerType table resolving result) true)
        marks.optional
      ++ lowerMembers table resolving ms
  | _ :: ms => lowerMembers table resolving ms
termination_by (table.unresolved resolving, sizeOf members)

/-- The parameters that some binders give, counted from a place on. -/
def lowerParams (table : TypeTable) (resolving : List String) (index : Nat) (params : List Binder) :
    List (Slot Ty) :=
  match params with
  | [] => []
  | .mk _ pattern type isOptional _ :: ps =>
    ⟨paramName index pattern, lowerType table resolving type, isOptional⟩
      :: lowerParams table resolving (index + 1) ps
termination_by (table.unresolved resolving, sizeOf params)

end

def lower (table : TypeTable) (type : TypeExpr) : Ty :=
  table.lowerType [] type

def params (table : TypeTable) : Function → List (Slot Ty)
  | .mk _ params _ _ _ => table.lowerParams [] 0 params

/-- The type of a function's result; one that is not written is any. -/
def result (table : TypeTable) : Function → Ty
  | .mk _ _ _ result _ => table.lower result

def functionType (table : TypeTable) (method : Bool) (f : Function) : Ty :=
  .function (table.params f) (table.result f) method

end TypeTable

end PropCheck.Script
