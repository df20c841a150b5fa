import PropCheck.Ty.Basic

/-!
# Syntax trees of scripts

The tree of a script keeps what the checker reads: which names a script binds, imports and exports,
the types that are written down, and the expressions whose types can be told.  Everything else is
kept as a list of parts in reading order, so that what is nested inside can still be visited.

* `TypeExpr`: a type as it is written.
* `Pattern`: what a declaration binds.
* `Expr`, `Stmt`: expressions and statements.
* `Function`, `Class`: what functions and classes of all forms have in common.
* `Part`: any piece of a tree.
* `Part.children`: the pieces directly inside a piece, in reading order.
-/

namespace PropCheck.Script

/-- A stretch of the text, in bytes. -/
structure Span where
  start : Nat
  stop : Nat
deriving DecidableEq, Repr, Inhabited

/-- A name at its place in the text. -/
structure Name where
  text : String
  span : Span
deriving DecidableEq, Repr, Inhabited

/-- The word that starts a variable declaration; `lex` is `let` and its relatives. -/
inductive VariableKind where
  | var
  | lex
  | const
deriving DecidableEq, Repr, Inhabited

/-- Operators in front of one operand; `sign` is `+` or `-`. -/
inductive UnaryOp where
  | not
  | typeOf
  | void
  | sign
  | other
deriving DecidableEq, Repr, Inhabited

/-- What kind of expression a compound is, as far as that decides where it may stand: a logical one
joins its parts by `&&` or `||`, and a load asks for a module. -/
inductive Form where
  | member
  | assignment
  | logical
  | await
  | load
  | other
deriving DecidableEq, Repr, Inhabited

inductive MemberForm where
  | field
  | autoAccessor
  | getter
  | setter
  | method
  | constructor
deriving DecidableEq, Repr, Inhabited

/-- The marks a member may carry; `hidden` is private or protected. -/
structure Marks where
  isStatic : Bool
  hidden : Bool
  optional : Bool
deriving DecidableEq, Repr, Inhabited

/-- What an import takes from a module. -/
inductive Binding where
  | default
  | namespace
  | named (name : String)
deriving DecidableEq, Repr, Inhabited

/-- One name that an import declaration introduces. -/
structure ImportSpecifier where
  name : Name
  imported : Binding
  typeOnly : Bool
deriving DecidableEq, Repr, Inhabited

structure ImportDeclaration where
  specifiers : List ImportSpecifier
  source : String
  typeOnly : Bool
deriving DecidableEq, Repr, Inhabited

/-- One name of an export list: the name inside the module and the name outside. -/
structure ExportSpecifier where
  name : String
  exported : String
deriving DecidableEq, Repr, Inhabited

mutual

/-- A type as it is written; `missing` stands where none is written. -/
inductive TypeExpr where
  | missing
  | keyword (word : Keyword)
  | string (value : String)
  | number (value : Double)
  | boolean (value : Bool)
  | array (element : TypeExpr)
  | tuple (elements : List TypeExpr)
  | optional (inner : TypeExpr)
  | union (members : List TypeExpr)
  | intersection (members : List TypeExpr)
  | group (inner : TypeExpr)
  | template (holes : List TypeExpr)
  | object (members : List Member)
  | function (function : Function)
  | reference (name : String) (arguments : List TypeExpr)
  | other (parts : List Part)

/-- The key of a property or member. -/
inductive Key where
  | named (name : String)
  | secret
  | computed (value : Expr)

/-- A member of a class, an interface or an object type, or a part of its body that is no member.
The value of a method, getter, setter or constructor is a function. -/
inductive Member where
  | mk (form : MemberForm) (marks : Marks) (decorators : List Part) (key : Key) (type : TypeExpr)
    (value : Expr)
  | other (parts : List Part)

/-- A pattern with its type and value: a parameter, or one binding of a variable declaration. -/
inductive Binder where
  | mk (decorators : List Part) (pattern : Pattern) (type : TypeExpr) (optional : Bool)
    (value : Expr)

/-- What every kind of function has.  The head holds the types of type parameters and of `this`, and
the tail what there is of a rest parameter. -/
inductive Function where
  | mk (head : List Part) (params : List Binder) (tail : List Part) (result : TypeExpr)
    (body : List Stmt)

/-- What a declaration binds; `hole` binds nothing. -/
inductive Pattern where
  | hole
  | name (name : Name)
  | property (key : Key) (value : Pattern)
  | object (properties : List Pattern) (rest : Pattern)
  | array (elements : List Pattern) (rest : Pattern)
  | default (pattern : Pattern) (value : Expr)

/-- An item of an object or array literal. -/
inductive Item where
  | property (key : Key) (value : Expr)
  | shorthand (name : String) (default : Expr)
  | value (value : Expr)
  | spread (value : Expr)
  | hole

/-- An expression; `missing` stands where none is written. A cast gives its value a type, and an
assertion only promises one; the type is missing if all it promises is that there is a value. -/
inductive Expr where
  | missing
  | string (value : String)
  | number (value : Double)
  | boolean (value : Bool)
  | bigint (digits : String)
  | null
  | regex (source : String)
  | template (head : Option String) (holes : List Part)
  | identifier (name : String)
  | paren (inner : Expr)
  | cast (value : Expr) (type : TypeExpr)
  | assertion (type : TypeExpr) (value : Expr)
  | instantiation (value : Expr) (arguments : List TypeExpr)
  | unary (operator : UnaryOp) (operand : Expr)
  | object (items : List Item)
  | array (items : List Item)
  | function (function : Function)
  | classExpr (definition : Class)
  | construct (callee : Expr) (arguments : List Part)
  | compound (form : Form) (parts : List Part)

inductive Class where
  | mk (span : Span) (name : Option Name) (head : List Part) (base : Expr)
    (baseArguments : List TypeExpr) (interfaces : List Part) (members : List Member)

inductive Stmt where
  | variableDecl (kind : VariableKind) (binders : List Binder)
  | function (name : Option Name) (function : Function)
  | classDecl (definition : Class)
  | typeAlias (name : String) (head : List Part) (type : TypeExpr)
  | interface (name : String) (head : List Part) (members : List Member)
  | import (declaration : ImportDeclaration)
  | exported (declaration : Stmt)
  | exportNames (specifiers : List ExportSpecifier) (source : Option String)
  | exportAll (source : String) (renamed : Bool)
  | exportDefault (declaration : Stmt)
  | expression (value : Expr)
  | other (parts : List Part)

/-- Any piece of a tree. -/
inductive Part where
  | type (type : TypeExpr)
  | key (key : Key)
  | member (member : Member)
  | binder (binder : Binder)
  | function (function : Function)
  | pattern (pattern : Pattern)
  | item (item : Item)
  | expr (expr : Expr)
  | classBody (definition : Class)
  | stmt (stmt : Stmt)

end

end PropCheck.Script
