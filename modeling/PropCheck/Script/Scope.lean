import PropCheck.Script.Grammar.Module
import PropCheck.Script.Inference
import PropCheck.Script.Visit

/-!
# What a script declares

Every variable and function that a script declares at any depth is indexed in the order in which the
script is visited, together with the names that it imports.  Looking up a name is flat: the first
declaration of the name counts, whatever block it stands in.

* `Declaration`, `ImportClause`: a declared name and an imported name.
* `Scope`: the index of a script.
* `declarationsOf`: the declarations of a script, each piece of it adding its own at the end.
* `Scope.parse`: the index of a text; a text that is not well formed declares nothing.
-/

namespace PropCheck.Script

/-- How a name is declared; `lex` is `let` and its relatives. -/
inductive DeclarationKind where
  | var
  | lex
  | const
  | function
deriving DecidableEq, Repr, Inhabited

def VariableKind.declarationKind : VariableKind → DeclarationKind
  | .var => .var
  | .lex => .lex
  | .const => .const

structure Declaration where
  name : Name
  kind : DeclarationKind
  type : Ty
deriving Inhabited

/-- A name that an import introduces. -/
structure ImportClause where
  name : Name
  imported : Binding
  source : String
deriving DecidableEq, Repr, Inhabited

/-! ### Declarations -/

def lookup (declarations : List Declaration) (name : String) : Option Ty :=
  (declarations.find? (·.name.text == name)).map (·.type)

/-- The type of what is left of an array; of anything else it is not known. -/
def restType : Ty → Ty
  | .array t => .array t
  | _ => .any

/-- What a key finds in a type that is taken apart. -/
def keyType (key : Key) (type : Ty) : Ty :=
  (key.name?.bind fun name => type.property? name).getD .any

mutual

/-- Adds the names that a pattern binds, given the type of what it takes apart. -/
def bindPattern (table : TypeTable) (kind : DeclarationKind) (pattern : Pattern) (type : Ty)
    (declared : List Declaration) : List Declaration :=
  match pattern with
  | .hole => declared
  | .name name => declared ++ [⟨name, kind, type⟩]
  | .property key p => bindPattern table kind p (keyType key type) declared
  | .object ps rest =>
    bindPattern table kind rest .any (bindProperties table kind ps type declared)
  | .array ps rest =>
    bindPattern table kind rest (restType type) (bindElements table kind ps 0 type declared)
  | .default p value =>
    -- a default tells the type only where nothing else does
    let own := if type matches .any then (table.infer (lookup declared) value).widened else type
    bindPattern table kind p own declared
termination_by sizeOf pattern

/-- Adds the names that the properties of an object pattern bind. -/
def bindProperties (table : TypeTable) (kind : DeclarationKind) (patterns : List Pattern)
    (type : Ty) (declared : List Declaration) : List Declaration :=
  match patterns with
  | [] => declared
  | p :: ps => bindProperties table kind ps type (bindPattern table kind p type declared)
termination_by sizeOf patterns

/-- Adds the names that the elements of an array pattern bind, counted from a place on. -/
def bindElements (table : TypeTable) (kind : DeclarationKind) (patterns : List Pattern)
    (index : Nat) (type : Ty) (declared : List Declaration) : List Declaration :=
  match patterns with
  | [] => declared
  | p :: ps =>
    bindElements table kind ps (index + 1) type
      (bindPattern table kind p ((type.element? index).getD .any) declared)
termination_by sizeOf patterns

end

/-- The type of a declared variable: the one that is written, or that of its value. -/
def binderType (table : TypeTable) (kind : VariableKind) (declared : List Declaration)
    (type : TypeExpr) (value : Expr) : Ty :=
  match type with
  | .missing =>
    let inferred := table.infer (lookup declared) value
    if kind == .const then inferred else inferred.widened
  | type => table.lower type

def bind (table : TypeTable) (kind : VariableKind) (declared : List Declaration) :
    Binder → List Declaration
  | .mk _ pattern type _ value =>
    bindPattern table kind.declarationKind pattern (binderType table kind declared type value)
      declared

/-- Adds the names that a piece of a script declares by itself. -/
def declare (table : TypeTable) (declared : List Declaration) : Part → List Declaration
  | .stmt (.variableDecl kind binders) => binders.foldl (bind table kind) declared
  | .stmt (.function (some name) f) =>
    declared ++ [⟨name, .function, table.functionType false f⟩]
  | _ => declared

def piecesOf (statements : List Stmt) : List Part :=
  statements.flatMap fun s => (Part.stmt s).pieces

def declarationsOf (statements : List Stmt) : List Declaration :=
  (piecesOf statements).foldl (declare (TypeTable.ofStatements statements)) []

/-! ### Imports -/

/-- The names of values that a statement imports. -/
def Stmt.importClauses : Stmt → List ImportClause
  | .import ⟨specifiers, source, false⟩ =>
    (specifiers.filter (!·.typeOnly)).map fun s => ⟨s.name, s.imported, source⟩
  | _ => []

def importsOf (statements : List Stmt) : List ImportClause :=
  statements.flatMap Stmt.importClauses

/-! ### Scopes -/

/-- The statements of a text, where things may be only declared; none if it is not well formed. -/
def statementsOf (ambient : Bool) (text : String) : List Stmt :=
  (Grammar.readScript? ambient text).getD []

/-- What a script declares and imports. -/
structure Scope where
  file : String
  declarations : List Declaration
  imports : List ImportClause

namespace Scope

def ofStatements (file : String) (statements : List Stmt) : Scope :=
  ⟨file, declarationsOf statements, importsOf statements⟩

def parse (file text : String) : Scope :=
  ofStatements file (statementsOf false text)

def names (scope : Scope) : List String :=
  scope.declarations.map (·.name.text)

def find? (scope : Scope) (name : String) : Option Declaration :=
  scope.declarations.find? (·.name.text == name)

end Scope

end PropCheck.Script
