import PropCheck.Script.Grammar.Expression

/-!
# Reading statements

* `variableStatement`: the bindings after `var`, `let`, `const` or `using`.
* `declarationAfter`: a declaration after its modifiers, which may follow `export`.
* `plainStatement`: every statement that is neither an import nor an export.
-/

namespace PropCheck.Script.Grammar

variable (self : Rules)

/-! ### Variables -/

/-- One binding of a variable declaration. One that is marked as definite has a type and no value.
-/
def declarator : Parse Binder := do
  let p ← self .pattern
  let isDefinite ← if (← sameLine) && (p matches .name _) then eat "!" else pure false
  if ← eat "?" then fault
  let type ← typeAnnotation self
  let hasValue ← eat "="
  faultUnless !(isDefinite && (hasValue || type matches .missing))
  let value ← if hasValue then self (.assignment true) else pure .missing
  return .mk [] p type false value

def declarators : Parse (List Binder) :=
  joined (declarator self)

def variableKind? (word : String) : Option VariableKind :=
  match word with
  | "var" => some .var
  | "let" => some .lex
  | "const" => some .const
  | _ => none

/-- Whether a binding may be declared without a value. -/
def mayLackValue (kind : VariableKind) (ambient : Bool) : Pattern → Bool
  | .name _ => kind != .const || ambient
  | _ => false

/-- Counts a fault if a binding lacks a value that it must have. -/
def checkValue (kind : VariableKind) : Binder → Parse Unit
  | .mk _ p _ _ .missing => do faultUnless (mayLackValue kind (← context).ambient p)
  | _ => return ()

def variableStatement (kind : VariableKind) : Parse Stmt := do
  let binders ← declarators self
  binders.forM (checkValue kind)
  semicolon
  return .variableDecl kind binders

/-- Whether a token is an operator between two operands, other than a logical one or a cast. -/
def isBinaryOperator (t : Token) : Bool :=
  (bindingLevel? t).isSome && !t.isOneOf ["&&", "||", "??"] && !t.isWord "as"
    && !t.isWord "satisfies"

/-- A statement that starts with `let`: a declaration, unless what follows shows that it is a name.
-/
def letStatement (alone : Bool) : Parse Stmt := do
  let next ← peek (← token) (do advance; token)
  if next.isOneOf assigning || isBinaryOperator next then
    let e ← self (.assignment true)
    semicolon
    return .expression e
  else if next.isOneOf [".", "(", "?."] then
    let e ← self .expression
    semicolon
    return .expression e
  else if next.isPunct ";" || (alone && !next.isPunct "[") then
    let name ← word
    semicolon
    return .expression (.identifier name)
  else
    advance
    variableStatement self .lex

/-- A declaration after the word `using`: each binding is a name with a value. -/
def usingStatement : Parse Stmt := do
  let binders ← declarators self
  binders.forM fun
    | .mk _ p _ _ value => faultUnless (p matches .name _ && !(value matches .missing))
  semicolon
  return .variableDecl .lex binders

/-- Whether the word `using` stands here, with a token after it on the same line that satisfies a
condition. -/
def seesUsing (condition : Token → Bool) : Parse Bool := do
  if ← seesWord "using" then followedBy fun t => !t.newline && condition t else return false

def startsUsing : Parse Bool :=
  seesUsing fun t => t.isBindable || t.isPunct openBrace

/-- Whether the words `await using` stand here on one line, and something else holds at the second.
-/
def seesAwaitUsing (condition : Parse Bool) : Parse Bool := do
  if ← seesWord "await" then
    ahead do
      advance
      if (← sameLine) && (← seesWord "using") then condition else return false
  else return false

def startsAwaitUsing : Parse Bool :=
  seesAwaitUsing (seesUsing Token.isBindable)

/-! ### Control flow -/

def condition : Parse Expr := do
  expect "("
  let e ← self .expression
  expect ")"
  return e

def body : Parse Part :=
  return .stmt (← self (.statement true))

def ifStatement : Parse Stmt := do
  advance
  let test ← condition self
  let yes ← body self
  if ← eatWord "else" then return .other [.expr test, yes, ← body self]
  else return .other [.expr test, yes]

def doStatement : Parse Stmt := do
  advance
  let repeated ← body self
  expectWord "while"
  let test ← condition self
  let _ ← eat ";"
  return .other [repeated, .expr test]

/-- A loop that tests at its start, or a statement with the names of an object. -/
def whileStatement : Parse Stmt := do
  advance
  let test ← condition self
  return .other [.expr test, ← body self]

/-- An expression, if none of the closing marks stands there. -/
def optionalExpression (closing : List String) : Parse Part := do
  if ← seesOneOf closing then return .expr .missing
  else return .expr (← within Context.withIn (self .expression))

/-- The rest of a counting loop after its start. -/
def forTail (first : Part) : Parse Stmt := do
  expect ";"
  let test ← optionalExpression self [";", ")"]
  expect ";"
  let update ← optionalExpression self [")"]
  expect ")"
  return .other [first, test, update, ← body self]

/-- The rest of a loop after its start, where it may go over the elements of something. -/
def forElements (first : Part) : Parse (Option Stmt) := do
  if ← eatWord "of" then
    let range ← self (.assignment true)
    expect ")"
    return some (.other [first, .expr range, ← body self])
  else if ← eatWord "in" then
    let range ← self .expression
    expect ")"
    return some (.other [first, .expr range, ← body self])
  else return none

/-- Whether the word `using` starts a declaration at the start of a loop. The name `of` must go on
as a declaration does, since `using` may also be the name of the element. -/
def startsForUsing : Parse Bool := do
  if ← seesUsing Token.isBindable then
    ahead do
      advance
      if ← eatWord "of" then seesOneOf ["=", ";", ":"] else return true
  else return false

/-- The kind of declaration that starts a loop, if one does, and whether the operator `in` is
allowed in it. -/
def forKind : Parse (Option (VariableKind × Bool)) := do
  let t ← token
  if t.isWord "var" || t.isWord "const" then
    advance
    return (variableKind? (t.word?.getD "")).map (·, false)
  else if t.isWord "let" && (← followedBy fun n =>
      n.isOneOf ["[", openBrace]
        || (n.word?.isSome && !n.isWord "in" && !n.isWord "instanceof")) then
    advance
    return some (.lex, false)
  else if ← startsForUsing then
    advance
    return some (.lex, true)
  else if ← seesAwaitUsing (seesUsing fun _ => true) then
    advance
    advance
    return some (.lex, true)
  else return none

/-- A loop over the elements of something that is assigned to, or a counting loop. -/
def forFromExpression : Parse Stmt := do
  let e ← within ({ · with allowIn := false }) (self .expression)
  if (← seesWord "of") || (← seesWord "in") then
    match asPattern? e with
    | some target =>
      match ← forElements self (.expr target) with
      | some s => return s
      | none => failure
    | none => failure
  else forTail self (.expr e)

def forStatement : Parse Stmt := do
  advance
  if ← eatWord "await" then faultUnless (← context).awaits
  expect "("
  if ← sees ";" then forTail self (.expr .missing)
  else
    match ← forKind with
    | some (kind, allowsIn) =>
      let binders ← within (fun c => { c with allowIn := c.allowIn && allowsIn }) (declarators self)
      let first := Part.stmt (.variableDecl kind binders)
      match ← forElements self first with
      | some s => return s
      | none => forTail self first
    | none => forFromExpression self

/-- A jump to a label, which may be left out. -/
def jumpStatement : Parse Stmt := do
  advance
  if !(← canEnd) then
    if !isNameIn (← context) (← word) then failure
  semicolon
  return .other []

def returnStatement : Parse Stmt := do
  advance
  if ← canEnd then
    semicolon
    return .other []
  else
    let e ← within Context.withIn (self .expression)
    semicolon
    return .other [.expr e]

/-- A statement that throws something; that a line ends before it is a fault. -/
def throwStatement : Parse Stmt := do
  advance
  faultUnless (← sameLine)
  let e ← self .expression
  semicolon
  return .other [.expr e]

def switchCase : Parse (List Part) := do
  let test ← if ← eatWord "default" then pure Expr.missing
    else
      expectWord "case"
      self .expression
  expect ":"
  let statements ← many do
    let t ← token
    if t.isWord "case" || t.isWord "default" || t.isPunct closeBrace then return none
    else return some (← self (.statement false))
  return .expr test :: statements.map .stmt

def switchStatement : Parse Stmt := do
  advance
  let subject ← condition self
  expect openBrace
  let cases ← many do
    if ← sees closeBrace then return none else return some (← switchCase self)
  expect closeBrace
  return .other (.expr subject :: cases.flatten)

def catchClause : Parse (List Part) := do
  if ← eatWord "catch" then
    let caught ← if ← eat "(" then
        let p ← self .pattern
        let type ← typeAnnotation self
        expect ")"
        pure [Part.pattern p, .type type]
      else pure []
    return caught ++ (← block self).map .stmt
  else return []

/-- A statement that catches what is thrown; that nothing follows its first block is a fault. -/
def tryStatement : Parse Stmt := do
  advance
  let tried ← block self
  faultUnless ((← seesWord "catch") || (← seesWord "finally"))
  let caught ← catchClause self
  let last ← if ← eatWord "finally" then block self else pure []
  return .other (tried.map .stmt ++ caught ++ last.map .stmt)

/-- An expression as a statement, or a statement with a label. -/
def expressionStatement : Parse Stmt := do
  let e ← self .expression
  match e with
  | .identifier _ =>
    if ← eat ":" then return .other [← body self]
    else
      semicolon
      return .expression e
  | _ =>
    semicolon
    return .expression e

/-! ### Declarations -/

/-- A function declaration; that it lacks a name it must have is a fault. -/
def functionDeclaration (mustBeNamed isAsync : Bool) : Parse Stmt := do
  let (name, function, hasBody) ← readFunction self isAsync
  faultUnless (name.isSome || !mustBeNamed)
  if !hasBody then semicolon
  return .function name function

/-- A function that is only declared; it is no generator, and ends as a statement does. A body is a
fault. -/
def declaredFunction (isAsync : Bool) : Parse Stmt := do
  expectWord "function"
  let (name, function, hasBody) ← functionAfterWord self isAsync false
  faultUnless !hasBody
  semicolon
  return .function name function

/-- The type `intrinsic`; a dot makes it the name of something else. -/
def intrinsicType : Parse TypeExpr := do
  let first ← word
  if ← sees "." then
    let name ← dottedRest first
    return .reference name (← typeArgumentsHere self)
  else return .other []

def typeAlias : Parse Stmt := do
  let name ← bindingName
  let params ← typeParameters self
  expect "="
  let type ← if ← seesWord "intrinsic" then intrinsicType self else self .type
  semicolon
  return .typeAlias name.text params type

def interfaceDeclaration : Parse Stmt := do
  let name ← bindingName
  let params ← typeParameters self
  let ⟨bases, _⟩ ← heritage self
  let members ← typeMembers self
  let head := bases.flatMap fun b => .expr b.value :: b.arguments.map .type
  return .interface name.text (params ++ head) members

def namesEnumMember : Key → Bool
  | .named _ => true
  | .computed (.string _) | .computed (.template _ []) => true
  | _ => false

def enumMember : Parse (List Part) := do
  if (← token).isNumeral then failure
  let key ← propertyKey self
  if !namesEnumMember key then failure
  let value ← if ← eat "=" then self (.assignment true) else pure .missing
  return [.key key, .expr value]

def enumDeclaration : Parse Stmt := do
  let _ ← bindingName
  expect openBrace
  let members ← separated closeBrace (enumMember self)
  expect closeBrace
  return .other members.flatten

def namespaceDeclaration : Parse Stmt := do
  let _ ← bindingName
  let _ ← many do
    if ← eat "." then return some (← bindingName) else return none
  return .other ((← block self).map .stmt)

/-- A module after its word; one with a string as its name may lack a body. -/
def moduleDeclaration : Parse Stmt := do
  if (← token).isString then
    advance
    if ← sees openBrace then return .other ((← block self).map .stmt)
    else
      semicolon
      return .other []
  else namespaceDeclaration self

/-- The rest of `import A =`, after the equals sign. -/
def importAlias : Parse Stmt := do
  if ← eatWord "require" then
    expect "("
    let _ ← stringText
    expect ")"
  else
    let _ ← dottedName
  semicolon
  return .other []

/-- An import of the form `A =`, after the word `import`. -/
def importEquals : Parse Stmt := do
  let first ← bindingName
  if first.text == "type" && (← token).isBindable then
    let _ ← bindingName
  expect "="
  importAlias

/-! ### Modifiers of declarations -/

def isDeclarationMark : Parse Bool := do
  match (← token).word? with
  | some "const" => followedBy (Token.isWord · "enum")
  | some "accessor" => followedBy Token.followsModifier
  | some "static" => followedBy Token.followsModifier
  | some w =>
    if modifierWords.contains w then followedBy fun n => !n.newline && n.followsModifier
    else return false
  | none => return false

def declarationMarks : Parse (List String) :=
  many do
    if ← isDeclarationMark then return some (← word) else return none

/-- Whether a word that marks an export can only be part of a declaration, by the token after it. -/
def exportsDeclaration (t : Token) : Bool :=
  t.isOneOf ["=", "*", openBrace, "@"] || t.isWord "default" || t.isWord "as"

def startsDeclaration : Parse Bool :=
  ahead do
    repeating (fun (_ : Bool) => do
      let t ← token
      match t.word? with
      | none => return .done false
      | some w =>
        if ["var", "let", "const", "function", "class", "enum"].contains w then return .done true
        else if w == "interface" || w == "type" then
          return .done (← followedBy fun n => n.isBindable && !n.newline)
        else if w == "module" || w == "namespace" then
          return .done (← followedBy fun n => !n.newline && (n.isBindable || n.isString))
        else if w == "global" then
          return .done (← followedBy fun n =>
            n.isPunct openBrace || n.isOrdinary || n.isWord "export")
        else if w == "import" then
          return .done (← followedBy fun n =>
            n.isString || n.isOneOf ["*", openBrace] || n.word?.isSome)
        else if w == "export" then
          advance
          let _ ← eatWord "type"
          if exportsDeclaration (← token) then return .done true else return .again false
        else if w == "static" then
          advance
          return .again false
        else if ["abstract", "accessor", "async", "declare", "private", "protected", "public",
            "readonly"].contains w then
          advance
          if ← sameLine then return .again false else return .done false
        else return .done false) false

/-! ### Declarations with modifiers -/

/-- A declaration that starts with a word of its own, after its modifiers. -/
def wordDeclaration (start : Nat) (decorations : List Part) (w : String) : Parse Stmt := do
  advance
  match w with
  | "class" => return .classDecl (← classAfterWord self start decorations)
  | "interface" => interfaceDeclaration self
  | "type" => typeAlias self
  | "enum" => enumDeclaration self
  | "namespace" => namespaceDeclaration self
  | "module" => moduleDeclaration self
  | "global" => return .other ((← block self).map .stmt)
  | "import" => importEquals
  | _ =>
    match variableKind? w with
    | some kind => variableStatement self kind
    | none => failure

/-- A declaration after its modifiers; the place where it starts and its decorators are given. -/
def declarationAfter (start : Nat) (words : List String) (decorations : List Part) :
    Parse Stmt := do
  let startsAsync := (← seesWord "async")
    && (← followedBy fun n => n.isWord "function" && !n.newline)
  if startsAsync then advance
  let isAsync := startsAsync || words.contains "async"
  if ← seesWord "function" then
    if words.contains "declare" then declaredFunction self isAsync
    else functionDeclaration self true isAsync
  else
    match (← token).word? with
    | some w => wordDeclaration self start decorations w
    | none => failure

def Context.marked (words : List String) (c : Context) : Context :=
  { c with ambient := c.ambient || words.contains "declare" }

def markedDeclaration : Parse Stmt := do
  let start := (← token).start
  let words ← declarationMarks
  within (fun c => { c.marked words with awaits := words.contains "async" })
    (declarationAfter self start words [])

/-! ### Statements -/

/-- A statement that starts with a word which is no name everywhere, or may start a declaration. -/
def wordStatement (alone : Bool) (t : Token) (w : String) : Parse Stmt := do
  match w with
  | "if" => ifStatement self
  | "do" => doStatement self
  | "while" => whileStatement self
  | "with" => whileStatement self
  | "for" => forStatement self
  | "break" => jumpStatement
  | "continue" => jumpStatement
  | "return" => returnStatement self
  | "throw" => throwStatement self
  | "switch" => switchStatement self
  | "try" => tryStatement self
  | "debugger" =>
    advance
    semicolon
    return .other []
  | "function" => functionDeclaration self true false
  | "class" => return .classDecl (← readClass self t.start [])
  | "var" =>
    advance
    variableStatement self .var
  | "const" =>
    advance
    if ← eatWord "enum" then enumDeclaration self else variableStatement self .const
  | _ =>
    if w == "let" && !t.escaped then letStatement self alone
    else if ← startsUsing then
      advance
      usingStatement self
    else if ← startsAwaitUsing then
      advance
      advance
      usingStatement self
    else if w == "async" && (← followedBy fun n => n.isWord "function" && !n.newline) then
      advance
      functionDeclaration self true true
    else if w != "let" && (← startsDeclaration) then markedDeclaration self
    else expressionStatement self

/-- A statement that is neither an import nor an export. -/
def plainStatement (alone : Bool) : Parse Stmt := do
  let t ← token
  match t.lexeme with
  | .punct ";" =>
    advance
    return .other []
  | .punct openBrace => return .other ((← block self).map .stmt)
  | .word w => wordStatement self alone t w
  | _ => expressionStatement self

end PropCheck.Script.Grammar
