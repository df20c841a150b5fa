import PropCheck.Script.Grammar.Function

/-!
# Reading expressions

* `assignment`: one expression, with arrow functions, conditions and assignments.
* `operand`: operands joined by operators, by how strongly these bind.
* `leftHand`: a primary expression with member accesses and calls.
* `isTarget`, `asPattern?`: whether an expression may be assigned to.
-/

namespace PropCheck.Script.Grammar

variable (self : Rules)

/-! ### What may be assigned to -/

/-- An expression without the parentheses, casts, assertions and type arguments around it. -/
def innermost : Expr → Expr
  | .paren e | .cast e _ | .assertion _ e | .instantiation e _ => innermost e
  | e => e

def isPlace : Expr → Bool
  | .identifier _ | .compound .member _ => true
  | _ => false

/-- Whether an expression names one place that can be assigned to. -/
def isTarget : Expr → Bool
  | .cast e _ | .assertion _ e => isPlace (innermost e)
  | .paren (.object _) | .paren (.array _) => false
  | .paren e => isTarget e
  | e => isPlace e

mutual

/-- An expression read as the target of an assignment: the defaults that shorthands of an object
carry belong to it. -/
def asPattern? : Expr → Option Expr
  | .object items => (itemsAsPattern? items).map .object
  | .array items => (itemsAsPattern? items).map .array
  | e => if isTarget e then some e else none

/-- The items of an object or array read as targets; only the last may be a spread. -/
def itemsAsPattern? : List Item → Option (List Item)
  | [] => some []
  | [.spread e] => (asPattern? e).map fun e => [.spread e]
  | item :: items =>
    match itemAsPattern? item, itemsAsPattern? items with
    | some i, some is => some (i :: is)
    | _, _ => none

def itemAsPattern? : Item → Option Item
  | .property key e => (withDefaultAsPattern? e).map (.property key)
  | .shorthand name value =>
    some (.property (.named name) (.compound .assignment [.expr (.identifier name), .expr value]))
  | .value e => (withDefaultAsPattern? e).map .value
  | .spread _ => none
  | .hole => some .hole

/-- A target with the default that stands after it. -/
def withDefaultAsPattern? : Expr → Option Expr
  | .compound .assignment parts => some (.compound .assignment parts)
  | .object items => (itemsAsPattern? items).map .object
  | .array items => (itemsAsPattern? items).map .array
  | e => if isTarget e then some e else none

end

/-! ### Literals -/

def argumentList : Parse (List Part) := do
  expect "("
  let arguments ← separated ")" do
    let _ ← eat "..."
    return Part.expr (← self (.assignment true))
  expect ")"
  return arguments

def callArguments : Parse (List Part) :=
  within Context.nested (argumentList self)

def arrayLiteral : Parse Expr := do
  expect "["
  let items ← within Context.withIn <| many do
    if ← sees "]" then return none
    else if ← eat "," then return some Item.hole
    else
      let isSpread ← eat "..."
      let e ← self (.assignment true)
      if !(← sees "]") then expect ","
      return some (if isSpread then .spread e else .value e)
  expect "]"
  return .array items

/-- A property of an object literal that is only a name; in an assignment it may have a default. -/
def shorthand (t : Token) : Parse Item := do
  match t.word? with
  | some name =>
    if isNameIn (← context) name then
      if ← eat "=" then return .shorthand name (← self (.assignment true))
      else return .shorthand name .missing
    else failure
  | none => failure

/-- An item of an object literal that is no spread. Of the modifiers only `async` counts, and only
on a method; others are faults. -/
def objectMember : Parse Item := do
  let words ← modifiers
  if (← isMarking "get") || (← isMarking "set") then
    faultUnless words.isEmpty
    let isGetter := (← word) == "get"
    let key ← propertyKey self
    let function ← fullFunction self false false
    faultUnless (isAccessorHead isGetter function)
    return .property key (.function function)
  else
    let isGenerator ← eat "*"
    let t ← token
    let key ← propertyKey self
    if isGenerator || (← seesOneOf ["(", "<"]) then
      faultUnless (words.all (· == "async"))
      return .property key (.function (← fullFunction self (words.contains "async") isGenerator))
    else
      faultUnless words.isEmpty
      if ← eat ":" then return .property key (← self (.assignment true)) else shorthand self t

def objectLiteral : Parse Expr := do
  expect openBrace
  let items ← within Context.withIn <| separated closeBrace do
    if ← eat "..." then return Item.spread (← self (.assignment true)) else objectMember self
  expect closeBrace
  return .object items

/-- A regular expression after the mark at the cursor, which starts with its opening slash. -/
def regexAt (c : Cursor) : Scanned :=
  if c.token.isPunct "/" then scanRegex c.after.rest
  else
    let s := scanRegex ('=' :: c.after.rest)
    { s with length := s.length - 1 }

/-- A regular expression, from its opening slash on; no token before it may have a fault. -/
def regexLiteral : Parse Expr := do
  let c ← get
  let s := regexAt c
  match s.lexeme with
  | .regex source =>
    if c.flaws == 0 then
      retoken s
      advance
      return .regex source
    else failure
  | _ => failure

def parenthesized : Parse Expr := do
  expect "("
  let values ← within Context.nested (joined (self (.assignment true)))
  expect ")"
  match values with
  | [e] => return .paren e
  | es => return .paren (.compound .other (es.map .expr))

/-! ### Primary expressions -/

def templateLiteral (tagged : Bool) : Parse Expr := do
  let (text, holes) ← template tagged (within Context.withIn (self .expression))
  return .template text (holes.map .expr)

/-- The module of an import expression between parentheses, and how it is to be read. -/
def importArguments : Parse (List Part) := do
  expect "("
  let source ← assignmentWithIn self
  let options ← if (← eat ",") && !(← sees ")") then assignmentWithIn self else pure .missing
  let _ ← eat ","
  expect ")"
  return [.expr source, .expr options]

def importExpression : Parse Expr := do
  advance
  if ← eat "." then
    if ← eatWord "meta" then return .compound .other []
    else if (← seesWord "source") || (← seesWord "defer") then
      advance
      return .compound .load (← importArguments self)
    else failure
  else return .compound .load (← importArguments self)

/-- An expression without the type arguments at its end, and these. -/
def detached : Expr → Expr × List TypeExpr
  | .instantiation e types => (e, types)
  | e => (e, [])

/-- An expression that starts with `new`; that it constructs a load is a fault. -/
def newExpression : Parse Expr := do
  advance
  if ← eat "." then
    expectWord "target"
    return .compound .other []
  else
    let (callee, types) := detached (← self (.leftHand false))
    if ← sees "?." then failure
    faultUnless !(callee matches .compound .load _)
    let arguments ← if ← sees "(" then within Context.withIn (argumentList self) else pure []
    return .construct callee (types.map .type ++ arguments)

def functionExpression (isAsync : Bool) : Parse Expr := do
  let (_, function, hasBody) ← readFunction self isAsync
  if hasBody then return .function function else failure

def wordExpression (w : String) : Parse Expr := do
  match w with
  | "null" =>
    advance
    return .null
  | "true" =>
    advance
    return .boolean true
  | "false" =>
    advance
    return .boolean false
  | "this" =>
    advance
    return .compound .other []
  | "super" =>
    advance
    faultUnless (← seesOneOf [".", "[", "("])
    return .compound .other []
  | "import" => importExpression self
  | "new" => newExpression self
  | "function" => functionExpression self false
  | "class" => return .classExpr (← readClass self (← token).start [])
  | _ =>
    if w == "async" && (← followedBy fun t => t.isWord "function" && !t.newline) then
      advance
      functionExpression self true
    else
      let name ← bindingName
      return .identifier name.text

/-- An expression without operators, accesses and calls. -/
def primary : Parse Expr := do
  let t ← token
  match t.lexeme with
  | .word w => wordExpression self w
  | .string s =>
    advance
    return .string s
  | .number x =>
    advance
    return .number x
  | .bigint digits =>
    advance
    return .bigint digits
  | .template .. => templateLiteral self false
  | .punct "(" => parenthesized self
  | .punct "[" => arrayLiteral self
  | .punct openBrace => self .objectLiteral
  | .punct "/" => regexLiteral
  | .punct "/=" => regexLiteral
  | .punct "@" =>
    let decorations ← decorators self
    let _ ← modifiers
    return .classExpr (← readClass self t.start decorations)
  | _ => failure

/-! ### Accesses and calls -/

/-- How strongly an operator between two operands binds. -/
def bindingLevel? (t : Token) : Option Nat :=
  match t.lexeme with
  | .punct p =>
    match p with
    | "??" => some 1
    | "||" => some 2
    | "&&" => some 3
    | "|" => some 4
    | "^" => some 5
    | "&" => some 6
    | "==" | "!=" | "===" | "!==" => some 7
    | "<" | ">" | "<=" | ">=" => some 8
    | "<<" | ">>" | ">>>" => some 9
    | "+" | "-" => some 10
    | "*" | "/" | "%" => some 11
    | "**" => some 12
    | _ => none
  | .word w => if ["instanceof", "in", "as", "satisfies"].contains w then some 8 else none
  | _ => none

def compareLevel : Nat :=
  8

/-- The words that start an expression and are no plain names. -/
def expressionWords : List String :=
  ["await", "class", "delete", "false", "function", "new", "null", "private", "super", "this",
    "true", "typeof", "void", "yield"]

/-- Whether an expression may start here. Of the names only those count that have no meaning of
their own anywhere. -/
def startsExpression : Parse Bool := do
  let t ← token
  if t.isWord "import" then followedBy (Token.isOneOf · ["(", "<", "."])
  else
    return t.isOrdinary || t.word?.any expressionWords.contains || t.isLiteral || t.isTemplate
      || (bindingLevel? t).isSome
      || t.isOneOf ["(", "[", openBrace, "/", "/=", "+", "-", "~", "!", "++", "--", "<", "@"]

/-- Joins a closing angle bracket with the operator characters after it. -/
def joinAngle : Parse Unit := do
  let c ← get
  if c.token.isPunct ">" then retoken (scanAngle c.after.rest)

/-- Whether what was read can only have been type arguments, by the token after them. -/
def endsTypeArguments : Parse Bool := do
  let t ← token
  if t.isPunct "(" || t.isTemplate then return true
  else if t.isOneOf ["<", ">", "+", "-"] then return false
  else if t.newline then return true
  else if t.isWord "in" then return !(← context).allowIn
  else return (bindingLevel? t).isSome || !(← startsExpression)

/-- Type arguments inside an expression; that there is none is a fault. -/
def typeArgumentsInExpression : Parse (List TypeExpr) := do
  splitAngle
  expect "<"
  let types ← separated ">" (self .type)
  joinAngle
  expect ">"
  faultUnless !types.isEmpty
  if ← endsTypeArguments then return types else failure

/-- An expression on the way: what was read, and whether it is a chain with `?.` in it. -/
structure Access where
  value : Expr
  chained : Bool

def memberName : Parse Unit := do
  let t ← token
  if t.word?.isSome || t.isPrivateName then advance else failure

def index : Parse Expr := do
  expect "["
  let i ← within Context.withIn (self .expression)
  expect "]"
  return i

def callOf (callee : Expr) (types : List TypeExpr) : Parse Expr := do
  return .compound .other (.expr callee :: types.map .type ++ (← callArguments self))

/-- A template with what was read as its tag. -/
def taggedTemplate (tag : Expr) (types : List TypeExpr) : Parse Expr := do
  return .compound .other (.expr tag :: types.map .type ++ [.expr (← templateLiteral self true)])

/-- A template with a chain as its tag, which is a fault. -/
def chainedTemplate (tag : Expr) (types : List TypeExpr) : Parse Expr := do
  fault
  taggedTemplate self tag types

def optionalAccess (value : Expr) : Parse Expr := do
  let (inner, types) := detached value
  if ← seesOneOf ["<", "<<"] then
    splitAngle
    let types ← typeArguments self
    if (← token).isTemplate then chainedTemplate self value types else callOf self inner types
  else if ← sees "(" then callOf self inner types
  else if (← token).isTemplate then chainedTemplate self value []
  else if ← sees "[" then return .compound .member [.expr value, .expr (← index self)]
  else
    memberName
    return .compound .member [.expr value]

def accessStep (calls : Bool) (a : Access) : Parse (Next Access) := do
  let t ← token
  let (inner, types) := detached a.value
  match t.lexeme with
  | .punct "." =>
    advance
    memberName
    return .again ⟨.compound .member [.expr a.value], a.chained⟩
  | .punct "?." =>
    if calls then
      advance
      return .again ⟨← optionalAccess self a.value, true⟩
    else return .done a
  | .punct "[" =>
    if (← context).decorating then return .done a
    else return .again ⟨.compound .member [.expr a.value, .expr (← index self)], a.chained⟩
  | .punct "!" =>
    if t.newline then return .done a
    else
      advance
      return .again ⟨.assertion .missing a.value, a.chained⟩
  | .punct "(" =>
    if calls then return .again ⟨← callOf self inner types, a.chained⟩ else return .done a
  | .template .. =>
    if a.chained then return .again ⟨← chainedTemplate self inner types, true⟩
    else return .again ⟨← taggedTemplate self inner types, false⟩
  | _ =>
    if t.isOneOf ["<", "<<"] then
      match ← attempt (typeArgumentsInExpression self) with
      | some types => return .again ⟨.instantiation a.value types, a.chained⟩
      | none => return .done a
    else return .done a

/-- The expression that has been read; a chain is no place to assign to. -/
def Access.expr (a : Access) : Expr :=
  match a with
  | ⟨.instantiation e types, _⟩ => .instantiation e types
  | ⟨e, true⟩ => .compound .other [.expr e]
  | ⟨e, false⟩ => e

/-- A primary expression with its accesses and calls. -/
def leftHand (calls : Bool) : Parse Expr := do
  let first ← primary self
  let a ← repeating (accessStep self calls) ⟨first, false⟩
  return a.expr

/-! ### Operators in front -/

/-- Whether a token after `await` or `yield` makes it an operator where it could also be a name. -/
def followsOperatorWord (t : Token) : Bool :=
  t.isLiteral || t.word?.any fun w => w != "in" && w != "instanceof"

/-- Whether `await` is an operator here. A slash after it starts a regular expression. -/
def startsAwait : Parse Bool := do
  if ← seesWord "await" then
    if (← context).awaits then return true
    else followedBy fun t => !t.newline && (t.isPunct "/" || followsOperatorWord t)
  else return false

/-- An operand with the operators behind it. -/
def postfixOperand : Parse Expr := do
  let e ← self (.leftHand true)
  if (← sameLine) && (← seesOneOf ["++", "--"]) then
    if isTarget e then
      advance
      return .compound .other [.expr e]
    else failure
  else return e

/-- The operator that a token in front of an operand is. -/
def unaryOp? (t : Token) : Option UnaryOp :=
  match t.lexeme with
  | .punct "+" => some .sign
  | .punct "-" => some .sign
  | .punct "!" => some .not
  | .punct "~" => some .other
  | .word "typeof" => some .typeOf
  | .word "void" => some .void
  | .word "delete" => some .other
  | _ => none

/-- An operand with the operators in front of it. -/
def unary : Parse Expr := do
  let t ← token
  match unaryOp? t with
  | some operator =>
    advance
    return .unary operator (← self .unary)
  | none =>
    if t.isOneOf ["++", "--"] then
      advance
      let e ← self .unary
      if isTarget e then return .compound .other [.expr e] else failure
    else if t.isPunct "<" then
      advance
      let type ← self .type
      expect ">"
      return .assertion type (← self .unary)
    else if ← startsAwait then
      faultUnless (← context).awaits
      advance
      return .compound .await [.expr (← within ({ · with awaits := true }) (self .unary))]
    else postfixOperand self

/-! ### Operators between operands -/

/-- The first of some operands that are joined by operators above a level: a private name may stand
before `in`, unless it would be compared itself. -/
def firstOperand (level : Nat) : Parse Expr := do
  if (← token).isPrivateName then
    advance
    if (← seesWord "in") && (← context).allowIn && level < compareLevel then
      return .compound .other []
    else failure
  else self .unary

/-- Whether an expression has an operator in front that binds weaker than a power. -/
def isPrefixed : Expr → Bool
  | .unary .. | .compound .await _ => true
  | _ => false

/-- Whether an expression is a logical one without parentheses. -/
def isLogical : Expr → Bool
  | .compound .logical _ => true
  | _ => false

/-- Joins two operands. That the first of a power has an operator in front is a fault, and so is a
logical operand of `??`. -/
def join (operator : Token) (left right : Expr) : Parse Expr := do
  if operator.isPunct "**" then faultUnless !isPrefixed left
  if operator.isPunct "??" then faultUnless !(isLogical left || isLogical right)
  let form := if operator.isOneOf ["&&", "||"] then Form.logical else .other
  return .compound form [.expr left, .expr right]

/-- Operands joined by operators that bind stronger than a level. -/
def operand (level : Nat) : Parse Expr := do
  let first ← firstOperand self level
  repeating (fun (left : Expr) => do
    joinAngle
    let t ← token
    match bindingLevel? t with
    | none => return .done left
    | some own =>
      if own < level || (own == level && own != 12) then return .done left
      else if t.isWord "in" && !(← context).allowIn then return .done left
      else if t.isWord "as" || t.isWord "satisfies" then
        if t.newline then return .done left
        else
          advance
          return .again (.cast left (← self .type))
      else
        advance
        return .again (← join t left (← self (.operand own)))) first

/-! ### Arrow functions -/

/-- How far the tokens tell whether an arrow function starts here. -/
inductive Likelihood where
  | yes
  | no
  | maybe
deriving DecidableEq, Repr

/-- Whether a parenthesis that has been passed starts the parameters of an arrow function. -/
def guessParameters : Parse Likelihood := do
  let t ← token
  advance
  let next ← token
  if t.isPunct ")" then
    if next.isPunct ":" then return .maybe
    else if next.isOneOf ["=>", openBrace] then return .yes
    else return .no
  else if t.isOneOf ["[", openBrace] then return .maybe
  else if t.isPunct "..." then
    if next.isOrdinary then return .yes else if next.isLiteral then return .no else return .maybe
  else if t.isModifier && !t.isWord "async" && next.isBindable then
    if next.isWord "as" then return .no else return .yes
  else if !t.isBindable && !t.isWord "this" then return .no
  else if next.isPunct ":" then return .yes
  else if ← eat "?" then
    if ← seesOneOf [":", ",", "=", ")"] then return .yes else return .no
  else if next.isOneOf [",", "=", ")"] then return .maybe
  else return .no

/-- Whether an arrow function with parentheses starts here. -/
def guessArrow : Parse Likelihood := do
  let t ← token
  if t.isOneOf ["(", "<"] || t.isWord "async" then
    peek .no do
      if ← eatWord "async" then
        if !(← sameLine) then failure
      if ← eat "(" then guessParameters
      else if ← eat "<" then
        let t ← token
        if t.isBindable || t.isWord "const" then return .maybe else return .no
      else return .no
  else return .no

/-- What stands before the arrow of a function, and whether the result has a type there. -/
structure ArrowHead where
  isAsync : Bool
  head : List Part
  params : List Binder
  tail : List Part
  hasResult : Bool
  result : TypeExpr

/-- The arrow of a function; that a line ends before it is a fault. -/
def arrowMark : Parse Unit := do
  faultUnless (← sameLine)
  expect "=>"

/-- What stands before the arrow of a function with parentheses, and the arrow. A parameter for
`this` is a fault. -/
def arrowHead : Parse ArrowHead := do
  let isAsync ← eatWord "async"
  let head ← within (fun c => { c with awaits := c.awaits || isAsync }) do
    let typeParams ← typeParameters self
    let (receiver, params, rest) ← parameters self []
    faultUnless receiver.isEmpty
    let hasResult ← sees ":"
    return ⟨isAsync, typeParams ++ receiver, params, rest, hasResult, ← resultType self⟩
  arrowMark
  return head

/-- The body of an arrow function: a block, or one expression. -/
def arrowBody (isAsync arrowTypes : Bool) : Parse (List Stmt) :=
  within ({ · with awaits := isAsync, yields := false }) do
    if ← sees openBrace then block self
    else return [.expression (← self (.assignment arrowTypes))]

/-- An arrow function after its arrow. -/
def arrowFrom (arrowTypes : Bool) (h : ArrowHead) : Parse Expr := do
  return .function (.mk h.head h.params h.tail h.result (← arrowBody self h.isAsync arrowTypes))

/-- An arrow function with parentheses, if one starts here; that none does is noted. -/
def possibleArrow (arrowTypes : Bool) : Parse (Option Expr) := do
  let start ← get
  let place := start.token.start
  if ← isNoArrow place then return none
  match ← attempt (arrowHead self) with
  | none =>
    noteNoArrow place
    return none
  | some head =>
    if arrowTypes || !head.hasResult then return some (← arrowFrom self arrowTypes head)
    else
      -- where result types are not allowed, a colon must follow a function that has one
      let function ← attempt do
        let e ← arrowFrom self arrowTypes head
        if ← sees ":" then return e else failure
      if function.isNone then
        noteNoArrow place
        set start
      return function

/-- The one parameter of an arrow function without parentheses. -/
def simpleParameter (name : Name) : Binder :=
  .mk [] (.name name) .missing false .missing

def simpleArrow (isAsync arrowTypes : Bool) (name : Name) : Parse Expr := do
  arrowMark
  return .function (.mk [] [simpleParameter name] [] .missing (← arrowBody self isAsync arrowTypes))

def asyncSimpleArrow (arrowTypes : Bool) : Parse (Option Expr) := do
  let starts ← ahead do
    expectWord "async"
    if !(← sameLine) then return false
    let _ ← bindingName
    sees "=>"
  if starts then
    advance
    if (← seesWord "await") && (← context).awaits then failure
    return some (← simpleArrow self true arrowTypes (← bindingName))
  else return none

def arrow (arrowTypes : Bool) : Parse (Option Expr) := do
  let guessed ← guessArrow
  if guessed == .yes then
    let head ← arrowHead self
    return some (← arrowFrom self true head)
  else
    let function ← if guessed == .maybe then possibleArrow self arrowTypes else pure none
    if function.isSome then return function else asyncSimpleArrow self arrowTypes

/-! ### Whole expressions -/

def startsYield : Parse Bool := do
  if ← seesWord "yield" then
    if (← context).yields then return true
    else followedBy fun t => !t.newline && followsOperatorWord t
  else return false

/-- Whether a yield gives nothing, by the token after it. -/
def endsYield (t : Token) : Bool :=
  t.lexeme == .eof || t.isOneOf [";", closeBrace, ")", "]", ":", ","]

def yieldExpression : Parse Expr := do
  faultUnless (← context).yields
  advance
  if !(← sameLine) then return .compound .other []
  else
    let isDelegating ← eat "*"
    if !isDelegating && endsYield (← token) then return .compound .other []
    else
      return .compound .other
        [.expr (← within ({ · with yields := true }) (self (.assignment true)))]

def assigning : List String :=
  ["=", "+=", "-=", "*=", "/=", "%=", "**=", "<<=", ">>=", ">>>=", "&=", "|=", "^=", "&&=", "||=",
    "??="]

/-- An assignment, a condition, or the expression itself. -/
def assignmentTail (arrowTypes : Bool) (left : Expr) : Parse Expr := do
  if ← seesOneOf assigning then
    advance
    match asPattern? left with
    | some target =>
      return .compound .assignment [.expr target, .expr (← self (.assignment arrowTypes))]
    | none => failure
  else if ← eat "?" then
    let yes ← within Context.withIn (self (.assignment false))
    expect ":"
    let no ← self (.assignment arrowTypes)
    return .compound .other [.expr left, .expr yes, .expr no]
  else return left

def assignment (arrowTypes : Bool) : Parse Expr := do
  if ← startsYield then yieldExpression self
  else
    match ← arrow self arrowTypes with
    | some e => return e
    | none =>
      let t ← token
      let left ← self (.operand 0)
      match left with
      | .identifier name =>
        if ← sees "=>" then simpleArrow self false arrowTypes ⟨name, t.span⟩
        else assignmentTail self arrowTypes left
      | _ => assignmentTail self arrowTypes left

/-- Tells from here on whether a decorator is read. -/
def setDecorating (decorating : Bool) : Parse Unit :=
  modify fun c => { c with context := { c.context with decorating := decorating } }

/-- Expressions between commas. -/
def expression : Parse Expr := do
  let outer ← context
  setDecorating false
  match ← joined (self (.assignment true)) with
  -- a single one ends a decorator: what follows in the same function may have brackets again
  | [e] => return e
  | es =>
    setDecorating outer.decorating
    return .compound .other (es.map .expr)

end PropCheck.Script.Grammar
