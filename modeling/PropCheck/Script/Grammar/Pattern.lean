import PropCheck.Double.Text
import PropCheck.Script.Grammar.Basic

/-!
# Reading keys, patterns and parameters

* `propertyKey`: the key of a property, which may be computed.
* `pattern`: what a declaration binds.
* `parameters`: the parameters of a function.  A parameter for `this` gives its type only, and a
  rest parameter is kept apart.
-/

namespace PropCheck.Script.Grammar

variable (self : Rules)

def assignmentWithIn : Parse Expr :=
  within Context.withIn (self (.assignment true))

def typeAnnotation : Parse TypeExpr := do
  if ← eat ":" then self .type else return .missing

/-- The key of a property, or of a member of an object type. -/
def propertyKey : Parse Key := do
  let t ← token
  match t.lexeme with
  | .word w =>
    advance
    return .named w
  | .string s =>
    advance
    return .named s
  | .number x =>
    advance
    return .named x.text
  | .bigint digits =>
    advance
    return .named digits
  | .punct "[" =>
    advance
    let value ← assignmentWithIn self
    expect "]"
    return .computed value
  | _ => failure

/-! ### Patterns -/

def withDefault (p : Pattern) : Parse Pattern := do
  if ← eat "=" then return .default p (← assignmentWithIn self) else return p

def patternWithDefault : Parse Pattern := do
  withDefault self (← self .pattern)

/-- What a rest binds, with the default after it, which is a fault. -/
def restDefault (p : Pattern) : Parse Pattern := do
  if ← sees "=" then fault
  withDefault self p

/-- What the rest of a pattern or parameter list binds. A mark that makes it optional is a fault. -/
def restTarget : Parse Pattern := do
  expect "..."
  let p ← self .pattern
  if ← eat "?" then fault
  return p

/-- The rest of a pattern. A type and a default are faults. -/
def restPattern : Parse Pattern := do
  let p ← restTarget self
  if ← sees ":" then fault
  let _ ← typeAnnotation self
  restDefault self p

/-- A rest parameter with its type, which stands after a default. -/
def restParameter : Parse (Pattern × TypeExpr) := do
  let p ← restDefault self (← restTarget self)
  return (p, ← typeAnnotation self)

/-- The elements of an array pattern after its opening bracket; one that is left out is a hole. -/
def arrayPattern : Parse Pattern := do
  let (elements, rest) ← separatedWithRest "]"
    (do if ← sees "," then return .hole else patternWithDefault self) (restPattern self)
  expect "]"
  return .array elements (rest.getD .hole)

/-- A property of an object pattern: a key and a pattern, or a name that is both. -/
def patternProperty : Parse Pattern := do
  let t ← token
  let key ← propertyKey self
  if ← eat ":" then return .property key (← patternWithDefault self)
  else if t.isBindable then
    match key with
    | .named name =>
      faultUnless (isNameIn (← context) name)
      return .property key (← withDefault self (.name ⟨name, t.span⟩))
    | _ => failure
  else failure

/-- The properties of an object pattern after its opening brace; the rest must be a name. -/
def objectPattern : Parse Pattern := do
  let (properties, rest) ← separatedWithRest closeBrace (patternProperty self) (restPattern self)
  expect closeBrace
  match rest with
  | none => return .object properties .hole
  | some (.name n) => return .object properties (.name n)
  | some _ => failure

def pattern : Parse Pattern := do
  if ← eat "[" then arrayPattern self
  else if ← eat openBrace then objectPattern self
  else return .name (← bindingName)

/-! ### Parameters -/

def decorators : Parse (List Part) :=
  many do
    if ← eat "@" then
      return some (.expr (← within ({ · with decorating := true }) (self (.leftHand true))))
    else return none

/-- A parameter with its decorators, and the modifiers that are allowed. That it is optional and has
a default is a fault. -/
def parameter (allowed : List String) : Parse Binder := do
  let marks ← decorators self
  allowOnly allowed (← modifiers)
  let p ← self .pattern
  let isOptional ← eat "?"
  let type ← typeAnnotation self
  let value ← if ← sees "=" then
      faultUnless !isOptional
      advance
      assignmentWithIn self
    else pure .missing
  return .mk marks p type isOptional value

/-- The parameters of a function between parentheses: the type given for `this`, the parameters, and
what there is of a rest parameter. The modifiers that a parameter may have are given. -/
def parameters (allowed : List String) : Parse (List Part × List Binder × List Part) := do
  expect "("
  let receiver ← if ← eatWord "this" then
      let type ← typeAnnotation self
      let _ ← eat ","
      pure [Part.type type]
    else pure []
  let (params, rest) ← separatedWithRest ")" (parameter self allowed) (restParameter self)
  expect ")"
  match rest with
  | some (p, type) => return (receiver, params, [.pattern p, .type type])
  | none => return (receiver, params, [])

end PropCheck.Script.Grammar
