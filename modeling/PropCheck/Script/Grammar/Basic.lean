import PropCheck.Script.Word
import Std.Data.HashSet

/-!
# Reading scripts

A script is read by recursive descent.  The state is a cursor on the current token; going back costs
nothing, because the cursor is a value.  Reading either gives a tree or fails, and a failure
anywhere that is not part of a trial means that the script has no tree at all.  A fault is something
that is not right and yet does not keep the text from being read.

What a trial has found out is not forgotten when it fails: the places where no arrow function starts
stand in a memory beside the cursor, so that no place is tried twice.

* `Cursor`, `Memory`, `Parse`: the state and the monad.
* `attempt`, `ahead`: trying something, and only looking.
* `many`, `separated`, `separatedWithRest`: repetition, bounded by the length of the text.
* `Goal`, `Rules`: the recursive goals of the grammar.  Each rule is a plain function of the rules
  for the goals inside it; the knot is tied once, by recursion on a bound for the nesting.
-/

namespace PropCheck.Script.Grammar

/-- What is allowed at a place: the operator `in`, `yield` and `await` as operators, the brackets of
a member access (not in a decorator), conditional types, and a comma after a rest (where things are
only declared). -/
structure Context where
  allowIn : Bool
  yields : Bool
  awaits : Bool
  decorating : Bool
  plainTypes : Bool
  ambient : Bool
deriving DecidableEq, Repr

/-- The state of reading: the current token, the text after it, the size of the whole text, the
context, and the number of faults so far, those in tokens apart. -/
structure Cursor where
  token : Token
  after : Place
  size : Nat
  context : Context
  faults : Nat
  flaws : Nat

/-- What is kept when a trial fails: the places where no arrow function starts. -/
structure Memory where
  noArrows : Std.HashSet Nat

/-- Reading something from a cursor. -/
abbrev Parse := StateT Cursor (OptionT (StateM Memory))

/-! ### Trials and repetition -/

/-- Reads something and goes on with what came of it; only the memory is kept. -/
def handle {α β : Type} (p : Parse α) (next : Cursor → Option (α × Cursor) → β × Cursor) :
    Parse β := fun c =>
  OptionT.mk ((fun result => some (next c result)) <$> (p.run c).run)

/-- Tries to read something; nothing is consumed if that fails. -/
def attempt {α : Type} (p : Parse α) : Parse (Option α) :=
  handle p fun c result =>
    match result with
    | some (a, c') => (some a, c')
    | none => (none, c)

/-- Looks ahead without consuming anything; if that fails the answer is the one given. -/
def peek {α : Type} (otherwise : α) (p : Parse α) : Parse α :=
  handle p fun c result => ((result.map (·.1)).getD otherwise, c)

/-- Looks ahead without consuming anything; a failure is a no. -/
def ahead (p : Parse Bool) : Parse Bool :=
  peek false p

/-- Whether it is known that no arrow function starts at a place. -/
def isNoArrow (place : Nat) : Parse Bool :=
  return (← getThe Memory).noArrows.contains place

/-- Notes that no arrow function starts at a place. -/
def noteNoArrow (place : Nat) : Parse Unit :=
  modifyThe Memory fun m => ⟨m.noArrows.insert place⟩

/-- Whether a repetition goes on. -/
inductive Next (σ : Type) where
  | again (state : σ)
  | done (state : σ)

/-- Repeats a step until it is done, at most a number of times. -/
def iterate {σ : Type} (step : σ → Parse (Next σ)) : Nat → σ → Parse σ
  | 0, _ => failure
  | n + 1, state => do
    match ← step state with
    | .again state => iterate step n state
    | .done state => return state

/-- Repeats a step until it is done; every step but the last consumes some text. -/
def repeating {σ : Type} (step : σ → Parse (Next σ)) (init : σ) : Parse σ := do
  let c ← get
  iterate step (c.size + 2 - c.token.start) init

/-- Reads items until there is none. -/
def many {α : Type} (item : Parse (Option α)) : Parse (List α) := do
  let items ← repeating (fun acc => do
    match ← item with
    | some a => return .again (a :: acc)
    | none => return .done acc) []
  return items.reverse

/-! ### Contexts and faults -/

def context : Parse Context :=
  return (← get).context

/-- Reads something in a changed context. -/
def within {α : Type} (change : Context → Context) (p : Parse α) : Parse α := do
  let outer := (← get).context
  modify fun c => { c with context := change outer }
  let a ← p
  modify fun c => { c with context := outer }
  return a

def Context.withIn (c : Context) : Context :=
  { c with allowIn := true }

/-- The context between parentheses. -/
def Context.nested (c : Context) : Context :=
  { c with allowIn := true, decorating := false }

def Context.inFunction (isAsync isGenerator : Bool) (c : Context) : Context :=
  { c with allowIn := true, yields := isGenerator, awaits := isAsync }

def fault : Parse Unit :=
  modify fun c => { c with faults := c.faults + 1 }

def faultUnless (condition : Bool) : Parse Unit :=
  if condition then return () else fault

/-- Whether something can be read without a fault. -/
def readsWell {α : Type} (p : Parse α) : Parse Bool := do
  let before ← get
  let _ ← p
  let after ← get
  return before.faults == after.faults && before.flaws == after.flaws

/-! ### Tokens -/

def token : Parse Token :=
  return (← get).token

def advance : Parse Unit :=
  modify fun c =>
    let (token, after) := scanToken c.after
    { c with
      token := token
      after := after
      flaws := if token.flawed then c.flaws + 1 else c.flaws }

/-- Reads the current token again, as another lexeme that goes on for some characters. -/
def retoken (s : Scanned) : Parse Unit :=
  modify fun c =>
    let after := c.after.after s.length
    { c with token := { c.token with lexeme := s.lexeme, stop := after.offset }, after := after }

def sees (text : String) : Parse Bool :=
  return (← token).isPunct text

def seesOneOf (texts : List String) : Parse Bool :=
  return (← token).isOneOf texts

def seesWord (word : String) : Parse Bool :=
  return (← token).isWord word

/-- Consumes a mark if it is there. -/
def eat (text : String) : Parse Bool := do
  if ← sees text then
    advance
    return true
  else return false

def eatWord (word : String) : Parse Bool := do
  if ← seesWord word then
    advance
    return true
  else return false

/-- Consumes a mark that must be there. -/
def expect (text : String) : Parse Unit := do
  if ← eat text then return () else failure

def expectWord (word : String) : Parse Unit := do
  if ← eatWord word then return () else failure

/-- Whether no line ends before the current token. -/
def sameLine : Parse Bool :=
  return !(← token).newline

/-- Whether the token after the current one satisfies a condition. -/
def followedBy (condition : Token → Bool) : Parse Bool :=
  ahead do
    advance
    return condition (← token)

/-- Items between commas, up to a closing mark that is not consumed; a comma may stand at the end.
-/
def separated {α : Type} (close : String) (item : Parse α) : Parse (List α) := do
  let items ← repeating (fun acc => do
    if ← sees close then return .done acc
    let a ← item
    if ← eat "," then return .again (a :: acc) else return .done (a :: acc)) []
  return items.reverse

/-- Items between commas, at least one; no comma may stand at the end. -/
def joined {α : Type} (item : Parse α) : Parse (List α) := do
  let first ← item
  let others ← many do
    if ← eat "," then return some (← item) else return none
  return first :: others

/-- Items between commas, the last of which may be a rest, up to a closing mark that is not
consumed. A comma after the rest is a fault, except where things are only declared. -/
def separatedWithRest {α β : Type} (close : String) (item : Parse α) (rest : Parse β) :
    Parse (List α × Option β) := do
  let (items, last) ← repeating (fun (acc : List α × Option β) => do
    if ← sees close then return .done acc
    else if ← sees "..." then
      let r ← rest
      if ← eat "," then
        faultUnless (← context).ambient
      return .done (acc.1, some r)
    else
      let a ← item
      if ← eat "," then return .again (a :: acc.1, none) else return .done (a :: acc.1, none))
    ([], none)
  return (items.reverse, last)

/-- Whether a statement may end here without a semicolon. -/
def canEnd : Parse Bool := do
  let t ← token
  return t.newline || t.lexeme == .eof || t.isOneOf [";", closeBrace]

/-- The end of a statement: a semicolon, or where one may be left out. -/
def semicolon : Parse Unit := do
  if ← eat ";" then return ()
  else if ← canEnd then return ()
  else failure

/-! ### Names -/

/-- Whether a word is a name in a context. -/
def isNameIn (context : Context) (word : String) : Bool :=
  isName word || (word == "yield" && !context.yields) || (word == "await" && !context.awaits)

def word : Parse String := do
  match (← token).word? with
  | some w =>
    advance
    return w
  | none => failure

/-- The name of a binding; that it has another meaning here is a fault. -/
def bindingName : Parse Name := do
  let t ← token
  match t.word? with
  | some w =>
    if isBindable w then
      faultUnless (isNameIn (← context) w)
      advance
      return ⟨w, t.span⟩
    else failure
  | none => failure

def stringText : Parse String := do
  match (← token).lexeme with
  | .string s =>
    advance
    return s
  | _ => failure

/-! ### Modifiers -/

/-- Whether the current word marks what follows it. -/
def isModifying (allowConst : Bool) : Parse Bool := do
  let t ← token
  if !t.isModifier || (t.isWord "const" && !allowConst) then return false
  else if t.isWord "static" then followedBy Token.followsModifier
  else followedBy fun next => !next.newline && next.followsModifier

/-- Whether a modifier repeats one before it. Only one may tell who can use a member. -/
def isRepeated (modifier : String) (before : List String) : Bool :=
  before.contains modifier || (accessWords.contains modifier && before.any accessWords.contains)

/-- The modifiers of a member; `static` is none a second time, nor before a block of a class. That
one is repeated is a fault. -/
def modifiersOf (allowConst inClass : Bool) : Parse (List String) := do
  let found ← repeating (fun (acc : List String) => do
    let t ← token
    if ← isModifying allowConst then
      if t.isWord "static" && (acc.contains "static"
          || (inClass && (← followedBy (Token.isPunct · openBrace)))) then
        return .done acc
      let w ← word
      faultUnless !isRepeated w acc
      return .again (w :: acc)
    else return .done acc) []
  return found.reverse

/-- The modifiers of a member that is not marked by `const`. -/
def modifiers : Parse (List String) :=
  modifiersOf false false

/-- Counts a fault if a modifier is none of those that are allowed. -/
def allowOnly (allowed words : List String) : Parse Unit :=
  faultUnless (words.all allowed.contains)

/-- Whether a word such as `get` marks the member that follows it. -/
def isMarking (mark : String) : Parse Bool := do
  if ← seesWord mark then followedBy Token.followsAccessor else return false

/-! ### Goals -/

/-- The recursive goals of the grammar. -/
inductive Goal where
  /-- Expressions between commas. -/
  | expression
  /-- One expression; tells whether an arrow function may have a result type here. -/
  | assignment (arrowTypes : Bool)
  /-- Operands joined by operators that bind stronger than a level. -/
  | operand (level : Nat)
  /-- An operand with the operators in front of it. -/
  | unary
  /-- An operand without operators around it; tells whether it may be a call. -/
  | leftHand (calls : Bool)
  /-- An object literal. -/
  | objectLiteral
  /-- A type. -/
  | type
  /-- A type with the operators in front of it. -/
  | typeOperand
  /-- A type without operators around it. -/
  | primaryType
  /-- A pattern without a default. -/
  | pattern
  /-- A statement; tells whether it stands alone as the body of another. -/
  | statement (alone : Bool)

abbrev Goal.Result : Goal → Type
  | expression | assignment _ | operand _ | unary | leftHand _ | objectLiteral => Expr
  | type | typeOperand | primaryType => TypeExpr
  | pattern => Pattern
  | statement _ => Stmt

abbrev Rules := (goal : Goal) → Parse goal.Result

end PropCheck.Script.Grammar
