import PropCheck.Script.Grammar.Type

/-!
# Reading functions and classes

* `functionTail`: what follows the name of a function.  The body may be left out, as in a
  declaration of an overload.
* `readFunction`: a function with the word `function` in front.
* `classMember`: a member of a class.
* `readClass`: a class with the word `class` in front.
-/

namespace PropCheck.Script.Grammar

variable (self : Rules)

/-! ### Functions -/

def block : Parse (List Stmt) := do
  expect openBrace
  let statements ← many do
    if ← sees closeBrace then return none else return some (← self (.statement false))
  expect closeBrace
  return statements

/-- What follows the name of a function, and whether it has a body. The modifiers that a parameter
may have are given. -/
def functionTail (isAsync isGenerator : Bool) (allowed : List String) : Parse (Function × Bool) :=
  within (Context.inFunction isAsync isGenerator) do
    match ← signature self allowed with
    | .mk head params rest result _ =>
      if ← sees openBrace then
        return (.mk head params rest result (← block self), true)
      else return (.mk head params rest result [], false)

def functionAfterWord (isAsync isGenerator : Bool) : Parse (Option Name × Function × Bool) := do
  let name ← if (← token).isBindable then
      pure (some (← bindingName))
    else pure none
  let (function, hasBody) ← functionTail self isAsync isGenerator []
  return (name, function, hasBody)

def readFunction (isAsync : Bool) : Parse (Option Name × Function × Bool) := do
  expectWord "function"
  functionAfterWord self isAsync (← eat "*")

def fullFunction (isAsync isGenerator : Bool) : Parse Function := do
  let (function, hasBody) ← functionTail self isAsync isGenerator []
  if hasBody then return function else failure

/-- A method of a class, and whether it has a body: if not it ends as a statement does. -/
def methodFunction (isAsync isGenerator : Bool) (allowed : List String) :
    Parse (Function × Bool) := do
  let (function, hasBody) ← functionTail self isAsync isGenerator allowed
  if !hasBody then semicolon
  return (function, hasBody)

/-- Whether a parameter always has a value of its own: it has no default and is not optional. -/
def isRequired : Binder → Bool
  | .mk _ _ _ isOptional value => !isOptional && value matches .missing

/-- Whether the head of a getter or setter is right. Neither has type parameters; a getter has no
parameter, and a setter has one that is required, and no result. -/
def isAccessorHead (isGetter : Bool) : Function → Bool
  | .mk head params rest result _ =>
    head.isEmpty && rest.isEmpty && if isGetter then params.isEmpty
      else params.length == 1 && params.all isRequired && result matches .missing

/-- Whether the head of a constructor is right: it has parameters only. -/
def isConstructorHead : Function → Bool
  | .mk head _ _ result _ => head.isEmpty && result matches .missing

/-! ### Members of classes -/

/-- The modifiers that a member of a class may have, by its form. -/
def modifiersOn : MemberForm → List String
  | .field => ["abstract", "declare", "override", "readonly", "static"] ++ accessWords
  | .autoAccessor => ["abstract", "accessor", "override", "static"] ++ accessWords
  | .getter | .setter => ["abstract", "override", "static"] ++ accessWords
  | .method => ["abstract", "async", "override", "static"] ++ accessWords
  | .constructor => accessWords

/-- The modifiers that a parameter of a constructor may have: it declares a field with them. -/
def fieldMarks : List String :=
  ["override", "readonly"] ++ accessWords

/-- Whether a member may have its name. Only a constructor or something static is called so, and no
field is; nothing static is called `prototype` unless it is only declared. A private name has no
modifier that tells who may use it. -/
def fitsName (form : MemberForm) (words : List String) (ambient : Bool) : Key → Bool
  | .named "constructor" =>
    form == .constructor
      || (words.contains "static" && form != .field && form != .autoAccessor)
  | .named "prototype" => ambient || !words.contains "static"
  | .secret => !words.any accessWords.contains
  | _ => true

/-- Counts the faults of a member of a class that its modifiers and its name show; tells whether it
has a body or a value, which something abstract has not. -/
def checkMember (form : MemberForm) (words : List String) (key : Key) (hasContent : Bool) :
    Parse Unit := do
  allowOnly (modifiersOn form) words
  faultUnless (fitsName form words (← context).ambient key)
  faultUnless !(words.contains "abstract" && hasContent)

/-- The key of a member of a class, which may be a private name, but not that of the constructor. -/
def memberKey : Parse Key := do
  match (← token).lexeme with
  | .privateName name =>
    faultUnless (name != "constructor")
    advance
    return .secret
  | _ => propertyKey self

/-- The marks of a member from its modifiers; one that is also public is not hidden. -/
def marksOf (words : List String) (isOptional : Bool) : Marks :=
  let isHidden := words.contains "private" || words.contains "protected"
  ⟨words.contains "static", isHidden && !words.contains "public", isOptional⟩

/-- The first value of a field. That of an accessor is read where the class stands, that of a plain
field as in a function. -/
def fieldValue (form : MemberForm) : Parse Expr :=
  if form == .autoAccessor then self (.assignment true)
  else within (Context.inFunction false false) (self .expression)

/-- The rest of a field after its key and the mark that makes it optional. One that is optional is
neither marked as definite nor an accessor. -/
def fieldTail (words : List String) (isOptional : Bool) (decorations : List Part) (key : Key) :
    Parse Member := do
  let form := if words.contains "accessor" then MemberForm.autoAccessor else .field
  let isDefinite ← eat "!"
  faultUnless !(isOptional && (isDefinite || form == .autoAccessor))
  let type ← typeAnnotation self
  let hasValue ← eat "="
  let value ← if hasValue then fieldValue self form else pure .missing
  checkMember form words key hasValue
  semicolon
  return .mk form (marksOf words isOptional) decorations key type value

/-- Whether a constructor starts here: with its word always, with a string if a parenthesis follows.
-/
def startsConstructor (words : List String) : Parse Bool := do
  if words.contains "static" then return false
  else
    match (← token).lexeme with
    | .word w => return w == "constructor"
    | .string s =>
      if s == "constructor" then followedBy (Token.isPunct · "(") else return false
    | _ => return false

/-- A constructor after its modifiers. It has no decorators. -/
def constructorMember (words : List String) (decorations : List Part) : Parse Member := do
  let key ← memberKey self
  let (function, hasBody) ← methodFunction self (words.contains "async") false fieldMarks
  checkMember .constructor words key hasBody
  faultUnless (isConstructorHead function && decorations.isEmpty)
  return .mk .constructor (marksOf words false) decorations key .missing (.function function)

/-- A field or method after its modifiers. A method without a body has no decorators. -/
def fieldOrMethod (words : List String) (decorations : List Part) : Parse Member := do
  if ← startsConstructor words then constructorMember self words decorations
  else
    let isGenerator ← eat "*"
    let key ← memberKey self
    let isOptional ← eat "?"
    if isGenerator || (← seesOneOf ["(", "<"]) then
      let (function, hasBody) ← methodFunction self (words.contains "async") isGenerator []
      checkMember .method words key hasBody
      faultUnless (hasBody || decorations.isEmpty)
      return .mk .method (marksOf words isOptional) decorations key .missing (.function function)
    else fieldTail self words isOptional decorations key

def accessorMember (words : List String) (decorations : List Part) : Parse Member := do
  let isGetter := (← word) == "get"
  let form := if isGetter then MemberForm.getter else .setter
  let key ← memberKey self
  let (function, hasBody) ← methodFunction self (words.contains "async") false []
  checkMember form words key hasBody
  faultUnless (isAccessorHead isGetter function)
  return .mk form (marksOf words false) decorations key .missing (.function function)

def staticBlock : Parse Member := do
  expectWord "static"
  let body ← within ({ · with yields := false, awaits := true }) (block self)
  return .other (body.map .stmt)

/-- A member of a class. -/
def classMember : Parse Member := do
  let decorations ← decorators self
  let words ← modifiersOf true true
  -- the decorators of a block or an index signature are dropped, and that there are any is a fault
  if (← seesWord "static") && (← followedBy (Token.isPunct · openBrace)) then
    faultUnless (words.isEmpty && decorations.isEmpty)
    staticBlock self
  else if (← isMarking "get") || (← isMarking "set") then accessorMember self words decorations
  else if ← startsIndex then
    allowOnly ["readonly", "static"] words
    faultUnless decorations.isEmpty
    let parts ← indexSignature self
    memberEnd
    return .other parts
  else
    within (fun c => { c with ambient := c.ambient || words.contains "declare" })
      (fieldOrMethod self words decorations)

/-! ### Classes -/

structure Base where
  value : Expr
  arguments : List TypeExpr

def baseClass : Parse Base := do
  match ← self (.leftHand true) with
  | .instantiation e types => return ⟨e, types⟩
  | e => return ⟨e, ← plainTypeArguments self⟩

/-- What a class or interface says of its bases. -/
structure Heritage where
  bases : List Base
  interfaces : List TypeExpr

/-- The clauses that name the bases of a class. That there is more than one clause of a kind is a
fault, and so is a base named after an interface. -/
def heritage : Parse Heritage :=
  repeating (fun (acc : Heritage) => do
    if ← eatWord "extends" then
      faultUnless (acc.bases.isEmpty && acc.interfaces.isEmpty)
      -- the last clause counts, while interfaces add up
      return .again { acc with bases := ← joined (baseClass self) }
    else if ← eatWord "implements" then
      faultUnless acc.interfaces.isEmpty
      return .again { acc with interfaces := acc.interfaces ++ (← joined (typeReference self)) }
    else return .done acc) ⟨[], []⟩

def className : Parse (Option Name) := do
  let t ← token
  if t.isBindable && !t.isWord "implements" then return some (← bindingName) else return none

/-- A class after the word `class`; the place where it starts and its decorators are given. -/
def classAfterWord (start : Nat) (decorations : List Part) : Parse Class := do
  let name ← className
  let typeParams ← typeParameters self
  let ⟨bases, interfaces⟩ ← heritage self
  -- only the first of its bases counts
  let base := bases.headD ⟨.missing, []⟩
  expect openBrace
  let members ← many do
    let _ ← many (do if ← eat ";" then return some () else return none)
    if ← sees closeBrace then return none else return some (← classMember self)
  let stop := (← token).stop
  expect closeBrace
  return .mk ⟨start, stop⟩ name (decorations ++ typeParams) base.value base.arguments
    (interfaces.map .type) members

def readClass (start : Nat) (decorations : List Part) : Parse Class := do
  expectWord "class"
  classAfterWord self start decorations

end PropCheck.Script.Grammar
