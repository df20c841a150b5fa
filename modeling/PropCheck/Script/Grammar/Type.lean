import PropCheck.Script.Grammar.Pattern

/-!
# Reading types

* `readType`: a type.
* `typeArguments`, `typeParameters`: the lists in angle brackets.
* `resultType`: the type of a function's result, which may be a statement about a parameter.
* `typeMembers`: the members of an object type or interface.
-/

namespace PropCheck.Script.Grammar

variable (self : Rules)

/-! ### Angle brackets -/

/-- Takes an opening angle bracket off the operator that it starts. -/
def splitAngle : Parse Unit := do
  if ← seesOneOf ["<<", "<=", "<<="] then
    modify fun c =>
      let tail := match c.token.lexeme with
        | .punct p => p.toList.drop 1
        | _ => []
      { c with
        token := { c.token with lexeme := .punct "<", stop := c.token.stop - tail.length }
        after := ⟨tail ++ c.after.rest, c.after.offset - tail.length⟩ }

/-- The types between angle brackets; that there is none is a fault. -/
def typeArguments : Parse (List TypeExpr) := do
  expect "<"
  let types ← separated ">" (self .type)
  expect ">"
  faultUnless !types.isEmpty
  return types

/-- Type arguments, if an angle bracket stands here alone. -/
def plainTypeArguments : Parse (List TypeExpr) := do
  if ← sees "<" then typeArguments self else return []

/-- Type arguments on the same line, if there are any. -/
def typeArgumentsHere : Parse (List TypeExpr) := do
  if ← sameLine then
    splitAngle
    plainTypeArguments self
  else return []

/-- A type parameter: the types that bound it and stand for it when left out. A modifier that
belongs to something else is a fault. -/
def typeParameter : Parse (List Part) := do
  allowOnly ["const", "in", "out"] (← modifiersOf true false)
  let _ ← bindingName
  let bound ← if ← eatWord "extends" then self .type else pure .missing
  let fallback ← if ← eat "=" then self .type else pure .missing
  return [.type bound, .type fallback]

/-- The type parameters between angle brackets, if there are any. Empty brackets are a fault. -/
def typeParameters : Parse (List Part) := do
  if ← eat "<" then
    let params ← separated ">" (typeParameter self)
    expect ">"
    faultUnless !params.isEmpty
    return params.flatten
  else return []

/-! ### Functions in types -/

/-- Whether a statement about a name starts here, such as `x is T`; every word may be the name. -/
def startsPredicate : Parse Bool := do
  if (← token).word?.isSome then followedBy fun t => t.isWord "is" && !t.newline else return false

/-- The type of a result, or a statement about a parameter; it may be conditional. -/
def typeOrPredicate : Parse TypeExpr :=
  within ({ · with plainTypes := false }) do
    if ← startsPredicate then
      advance
      advance
      return .other [.type (← self .type)]
    else self .type

def resultType : Parse TypeExpr := do
  if ← eat ":" then typeOrPredicate self else return .missing

/-- The head of a function without a name: type parameters, parameters and the type of the result,
if it is written. The modifiers that a parameter may have are given. -/
def signature (allowed : List String) : Parse Function := do
  let typeParams ← typeParameters self
  let (receiver, params, rest) ← parameters self allowed
  let result ← resultType self
  return .mk (typeParams ++ receiver) params rest result []

/-- A function type, or the type of a constructor. -/
def functionType : Parse TypeExpr := do
  let _ ← eatWord "abstract"
  let isConstructor ← eatWord "new"
  let typeParams ← typeParameters self
  let (receiver, params, rest) ← parameters self []
  -- one token stands before the result, whatever it is
  advance
  let result ← typeOrPredicate self
  let function := Function.mk (typeParams ++ receiver) params rest result []
  if isConstructor then return .other [.function function] else return .function function

/-- Whether what starts here can only be a parameter; it is skipped. -/
def skipParameterStart : Parse Bool := do
  let _ ← modifiers
  let t ← token
  if t.isName || t.isWord "this" then
    advance
    return true
  else if t.isOneOf ["[", openBrace] then readsWell (self .pattern)
  else return false

/-- Whether a parenthesis here starts the parameters of a function type. -/
def startsParameters : Parse Bool :=
  ahead do
    advance
    if ← seesOneOf [")", "..."] then return true
    else if ← skipParameterStart self then
      if ← seesOneOf [":", ",", "?", "="] then return true
      else if ← eat ")" then sees "=>"
      else return false
    else return false

def startsFunctionType : Parse Bool := do
  let t ← token
  if t.isPunct "<" || t.isWord "new" then return true
  else if t.isPunct "(" then startsParameters self
  else if t.isWord "abstract" then followedBy (Token.isWord · "new")
  else return false

/-! ### Members of object types -/

def startsIndex : Parse Bool := do
  if ← sees "[" then
    ahead do
      advance
      let t ← token
      if t.isOneOf ["...", "["] then return true
      else if t.isModifier then
        advance
        if (← token).isName then return true
      else if t.isName then advance
      else return false
      if ← seesOneOf [":", ","] then return true
      else if ← eat "?" then seesOneOf [":", ",", "]"]
      else return false
  else return false

/-- A parameter of an index signature: a name with its type. A mark that makes it optional is a
fault. -/
def indexParameter : Parse Part := do
  let _ ← word
  if ← eat "?" then fault
  expect ":"
  return .type (← self .type)

/-- An index signature. A comma after its parameter is a fault, since there is only one. -/
def indexSignature : Parse (List Part) := do
  expect "["
  let params ← separated "]" do
    let param ← indexParameter self
    if ← sees "," then fault
    return param
  expect "]"
  expect ":"
  return params ++ [.type (← self .type)]

/-- The end of a member of an object type: one mark, if it is there. -/
def memberEnd : Parse Unit := do
  if ← eat "," then return ()
  else
    let _ ← eat ";"

def accessorSignature (form : MemberForm) : Parse Member := do
  advance
  let key ← propertyKey self
  let (receiver, params, rest) ← parameters self []
  let result ← resultType self
  return .mk form ⟨false, false, false⟩ [] key .missing
    (.function (.mk receiver params rest result []))

def namedSignature : Parse Member := do
  let key ← propertyKey self
  let isOptional ← eat "?"
  let marks : Marks := ⟨false, false, isOptional⟩
  if ← seesOneOf ["(", "<"] then
    return .mk .method marks [] key .missing (.function (← signature self []))
  else return .mk .field marks [] key (← typeAnnotation self) .missing

/-- A member of an object type. A modifier that says more than that it is read only is a fault, and
an accessor has none at all. -/
def typeMember : Parse Member := do
  let t ← token
  if t.isOneOf ["(", "<"] then return .other [.function (← signature self [])]
  else if t.isWord "new" && (← followedBy (Token.isOneOf · ["(", "<"])) then
    advance
    return .other [.function (← signature self [])]
  else
    let words ← modifiersOf true false
    if (← isMarking "get") || (← isMarking "set") then
      allowOnly [] words
      accessorSignature self (if ← seesWord "get" then .getter else .setter)
    else
      allowOnly ["readonly"] words
      if ← startsIndex then return .other (← indexSignature self) else namedSignature self

def typeMembers : Parse (List Member) := do
  expect openBrace
  let members ← many do
    if ← sees closeBrace then return none
    let member ← typeMember self
    memberEnd
    return some member
  expect closeBrace
  return members

/-! ### Primary types -/

/-- The keyword types; a dot after the word makes it the name of something else. -/
def keywordType? (word : String) : Option Keyword :=
  match word with
  | "any" => some .any
  | "unknown" => some .unknown
  | "never" => some .never
  | "undefined" => some .undefined
  | "string" => some .string
  | "number" => some .number
  | "boolean" => some .boolean
  | "bigint" => some .bigint
  | "symbol" => some .symbol
  | "object" => some .object
  | "null" => some .null
  | _ => none

def dottedRest (first : String) : Parse String :=
  repeating (fun (name : String) => do
    if ← eat "." then return .again (name ++ "." ++ (← word)) else return .done name) first

def dottedName : Parse String := do
  dottedRest (← word)

def typeReference : Parse TypeExpr := do
  let name ← dottedName
  return .reference name (← typeArgumentsHere self)

/-- The type of something in another module. That the module is not given by a string is a fault. -/
def importType : Parse TypeExpr := do
  let _ ← eatWord "typeof"
  expectWord "import"
  expect "("
  if (← token).isString then advance
  else
    fault
    let _ ← self .type
  let options ← if ← eat "," then self .objectLiteral else pure .missing
  expect ")"
  if ← eat "." then
    let _ ← dottedName
  let types ← typeArgumentsHere self
  return .other (.expr options :: types.map .type)

def typeQuery : Parse TypeExpr := do
  if ← followedBy (Token.isWord · "import") then importType self
  else
    advance
    let _ ← dottedName
    let types ← if ← sameLine then plainTypeArguments self else pure []
    return .other (types.map .type)

/-- Whether a mapped type starts here: any one token stands before `in`, with or without a bracket
before it. -/
def startsMapped : Parse Bool :=
  ahead do
    advance
    if ← seesOneOf ["+", "-"] then
      advance
      seesWord "readonly"
    else
      let _ ← eatWord "readonly"
      let _ ← eat "["
      advance
      seesWord "in"

def mappedType : Parse TypeExpr := do
  expect openBrace
  if ← seesOneOf ["+", "-"] then advance
  let _ ← eatWord "readonly"
  expect "["
  let _ ← bindingName
  expectWord "in"
  let keys ← self .type
  let names ← if ← eatWord "as" then self .type else pure .missing
  expect "]"
  if ← seesOneOf ["+", "-"] then
    advance
    expect "?"
  else
    let _ ← eat "?"
  let value ← typeAnnotation self
  let _ ← eat ";"
  expect closeBrace
  return .other [.type keys, .type names, .type value]

def startsNamedElement : Parse Bool :=
  ahead do
    let _ ← eat "..."
    let _ ← word
    let _ ← eat "?"
    sees ":"

/-- An element of a tuple without its name, which may be a rest. -/
def tupleElementType : Parse TypeExpr := do
  if ← eat "..." then return .group (← self .type) else self .type

/-- An element of a tuple. That one with a name is a rest and optional is a fault. -/
def tupleElement : Parse TypeExpr := do
  if ← startsNamedElement then
    let isRest ← eat "..."
    let _ ← word
    let isOptional ← eat "?"
    faultUnless !(isRest && isOptional)
    expect ":"
    return .other [.type (← tupleElementType self)]
  else tupleElementType self

/-- Goes on with a template after a hole. -/
def resumeTemplate : Parse Unit := do
  retoken (scanTemplate (← get).after.rest)

/-- Passes a piece of a template, and tells whether it is the last. Without a tag before the
template, an escape that is not well formed is a fault. -/
def templatePiece (tagged : Bool) : Parse (Option String × Bool) := do
  match (← token).lexeme with
  | .template text last =>
    faultUnless (tagged || text.isSome)
    advance
    return (text, last)
  | _ => failure

/-- A template: the text of its first piece, and what its holes hold, one item or more in each. -/
def template {α : Type} (tagged : Bool) (hole : Parse α) : Parse (Option String × List α) := do
  let (text, last) ← templatePiece tagged
  if last then return (text, [])
  else
    let holes ← repeating (fun (acc : List α) => do
      let a ← hole
      if ← sees closeBrace then
        resumeTemplate
        let (_, last) ← templatePiece tagged
        if last then return .done (a :: acc) else return .again (a :: acc)
      else return .again (a :: acc)) []
    return (text, holes.reverse)

/-- The words that start a type and are no names. -/
def typeWords : List String :=
  ["break", "false", "function", "import", "new", "null", "this", "true", "typeof", "void"]

/-- Whether a type starts with the current token, if it is no parenthesis. -/
def startsPlainType : Parse Bool := do
  let t ← token
  if t.isPunct "-" then followedBy Token.isNumeral
  else
    return t.isName || t.word?.any typeWords.contains || t.isNumeral || t.isString || t.isTemplate
      || t.isOneOf [openBrace, "[", "<", "|", "&", "*", "?", "..."]

def startsParameter (t : Token) : Bool :=
  t.isBindable || t.isPrivateName || t.isModifier || t.isOneOf ["...", "[", openBrace, "@"]

/-- Whether a type starts here. A parenthesis starts one if a type or parameter, or the end of no
parameters, follows it. -/
def startsType : Parse Bool := do
  if ← sees "(" then
    ahead do
      let _ ← many do if ← eat "(" then return some () else return none
      if (← sees ")") || startsParameter (← token) then return true else startsPlainType
  else startsPlainType

def wordType (w : String) : Parse TypeExpr := do
  match w with
  | "void" =>
    advance
    return .keyword .void
  | "true" =>
    advance
    return .boolean true
  | "false" =>
    advance
    return .boolean false
  | "typeof" => typeQuery self
  | "import" => importType self
  | "this" =>
    advance
    if (← sameLine) && (← seesWord "is") then
      advance
      return .other [.type (← self .type)]
    else return .other []
  | "asserts" =>
    if ← followedBy fun n => !n.newline && n.word?.isSome then
      advance
      advance
      if ← eatWord "is" then return .other [.type (← self .type)] else return .other []
    else typeReference self
  | _ =>
    match keywordType? w with
    | some k =>
      if ← followedBy (Token.isPunct · ".") then typeReference self
      else
        advance
        return .keyword k
    | none => typeReference self

/-- A type without operators around it. -/
def primaryType : Parse TypeExpr := do
  let t ← token
  match t.lexeme with
  | .word w => wordType self w
  | .string s =>
    advance
    return .string s
  | .number x =>
    advance
    return .number x
  | .bigint _ =>
    advance
    return .keyword .bigint
  | .template .. =>
    let (_, holes) ← template false (self .type)
    return .template holes
  | .punct "-" =>
    advance
    if (← token).isNumeral && (← token).lexeme != .brokenNumber then
      advance
      return .keyword .number
    else failure
  | .punct openBrace =>
    if ← startsMapped then mappedType self else return .object (← typeMembers self)
  | .punct "[" =>
    advance
    let elements ← separated "]" (tupleElement self)
    expect "]"
    return .tuple elements
  | .punct "(" =>
    advance
    let inner ← self .type
    expect ")"
    return .group inner
  | .punct "?" =>
    advance
    if ← seesOneOf [",", closeBrace, ")", ">", "=", "|"] then return .other []
    else return .other [.type (← self .type)]
  | .punct "!" =>
    advance
    return .other [.type (← self .primaryType)]
  | _ => failure

/-! ### Operators on types -/

/-- A primary type with what stands behind it: brackets, and marks for optional places. -/
def postfixType : Parse TypeExpr := do
  let first ← self .primaryType
  repeating (fun (type : TypeExpr) => do
    if !(← sameLine) then return .done type
    else if ← eat "!" then return .again (.other [.type type])
    else if ← sees "?" then
      if ← ahead (do advance; startsType) then return .done type
      else
        advance
        return .again (.optional type)
    else if ← eat "[" then
      if ← startsType then
        let index ← self .type
        expect "]"
        return .again (.other [.type type, .type index])
      else
        expect "]"
        return .again (.array type)
    else return .done type) first

/-- The bound of an inferred type; not taken if a question mark makes it a condition. -/
def inferBound : Parse TypeExpr := do
  let bound ← attempt do
    expectWord "extends"
    let bound ← within ({ · with plainTypes := true }) (self .type)
    if !(← context).plainTypes && (← sees "?") then failure
    return bound
  return bound.getD .missing

/-- A type with the operators in front of it. That something else than an array or tuple is read
only is a fault. -/
def typeOperand : Parse TypeExpr := do
  match (← token).word? with
  | some "keyof" =>
    advance
    return .other [.type (← self .typeOperand)]
  | some "unique" =>
    advance
    return .other [.type (← self .typeOperand)]
  | some "readonly" =>
    advance
    let type ← self .typeOperand
    faultUnless (type matches .array _ | .tuple _)
    return .group type
  | some "infer" =>
    advance
    let _ ← bindingName
    return .other [.type (← inferBound self)]
  | _ => within ({ · with plainTypes := false }) (postfixType self)

/-- Types joined by an operator, which may also stand in front. -/
def joinedTypes (operator : String) (make : List TypeExpr → TypeExpr) (item : Parse TypeExpr) :
    Parse TypeExpr := do
  let leading ← eat operator
  let first ← item
  if leading || (← sees operator) then
    let others ← many do
      if ← eat operator then return some (← item) else return none
    return make (first :: others)
  else return first

/-- Alternatives of types that must all hold. -/
def unionType : Parse TypeExpr :=
  joinedTypes "|" .union (joinedTypes "&" .intersection (self .typeOperand))

def readType : Parse TypeExpr := do
  if ← startsFunctionType self then functionType self
  else
    let type ← unionType self
    if !(← context).plainTypes && (← sameLine) && (← seesWord "extends") then
      advance
      let bound ← within ({ · with plainTypes := true }) (self .type)
      expect "?"
      let yes ← within ({ · with plainTypes := false }) (self .type)
      expect ":"
      let no ← within ({ · with plainTypes := false }) (self .type)
      return .other [.type type, .type bound, .type yes, .type no]
    else return type

end PropCheck.Script.Grammar
