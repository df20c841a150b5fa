import PropCheck.Script.Grammar.Statement

/-!
# Reading imports, exports and whole scripts

* `importStatement`, `exportStatement`: what a module takes from others and gives to them.
* `rules`: all rules of the grammar, with a bound on how deep they may nest.
* `readScript?`: the statements of a script, or nothing if it is not well formed.
-/

namespace PropCheck.Script.Grammar

variable (self : Rules)

/-! ### Names of imports and exports -/

/-- A name on the module side: a word or a string. -/
def moduleName : Parse Name := do
  let t ← token
  match t.lexeme with
  | .word w =>
    advance
    return ⟨w, t.span⟩
  | .string s =>
    advance
    return ⟨s, t.span⟩
  | _ => failure

def startsModuleName : Parse Bool := do
  match (← token).lexeme with
  | .word _ | .string _ => return true
  | _ => return false

/-- Two names joined by `as`, or one that is both; tells whether they are marked as types only. -/
structure Renaming where
  outer : Name
  inner : Name
  typeOnly : Bool

def entryAfter (typeOnly : Bool) (first : Name) : Parse Renaming := do
  if ← eatWord "as" then return ⟨first, ← moduleName, typeOnly⟩
  else return ⟨first, first, typeOnly⟩

def entryAfterTypeAs (type firstAs : Name) : Parse Renaming := do
  if ← seesWord "as" then
    let secondAs ← moduleName
    if ← startsModuleName then return ⟨firstAs, ← moduleName, true⟩
    else return ⟨type, secondAs, false⟩
  else if ← startsModuleName then return ⟨type, ← moduleName, false⟩
  else return ⟨firstAs, firstAs, true⟩

/-- One entry of an import or export list. The word `type` is a name as it is written. -/
def listEntry : Parse Renaming := do
  let t ← token
  let first ← moduleName
  if t.isWord "type" then
    if ← seesWord "as" then
      entryAfterTypeAs { first with text := t.written.getD first.text } (← moduleName)
    else if ← startsModuleName then entryAfter true (← moduleName)
    else return ⟨first, first, false⟩
  else entryAfter false first

def listEntries : Parse (List Renaming) := do
  expect openBrace
  let entries ← separated closeBrace listEntry
  expect closeBrace
  return entries

def importAttributes : Parse Unit := do
  if (← seesWord "with") || ((← seesWord "assert") && (← sameLine)) then
    advance
    expect openBrace
    let _ ← separated closeBrace do
      let _ ← moduleName
      expect ":"
      stringText
    expect closeBrace

/-! ### Imports -/

def importedNames : Parse (List ImportSpecifier) := do
  if ← eat "*" then
    expectWord "as"
    return [⟨← bindingName, .namespace, false⟩]
  else return (← listEntries).map fun r => ⟨r.inner, .named r.outer.text, r.typeOnly⟩

/-- The rest of an import after its first name; tells whether others may follow that. -/
def importTail (typeOnly mayGoOn : Bool) (first : Option Name) : Parse Stmt := do
  let specifiers ← match first with
    | some name =>
      let default : ImportSpecifier := ⟨name, .default, false⟩
      if mayGoOn && (← sees ",") then
        advance
        let others ← importedNames
        pure (default :: others)
      else pure [default]
    | none => importedNames
  expectWord "from"
  let source ← stringText
  importAttributes
  semicolon
  return .import ⟨specifiers, source, typeOnly⟩

/-- Whether the word `type` that was just read marks the import as one of types, and is not itself
the name that is imported. -/
def marksTypes : Parse Bool := do
  if ← seesWord "from" then followedBy fun n => !n.isString
  else if ← sees "," then
    ahead do
      advance
      expect openBrace
      sees closeBrace
  else return !(← sees "=")

/-- Whether the word just read, if it is one of two, tells when the module is run. -/
def marksPhase (word : String) : Parse Bool := do
  let t ← token
  if word != "defer" && word != "source" then return false
  else if t.isOneOf ["*", openBrace] then return true
  else if t.isWord "type" then return false
  else if word == "defer" then return t.isBindable && !t.isWord "as" && !t.isWord "from"
  else if t.isWord "from" then followedBy (Token.isWord · "from")
  else return t.isBindable

/-- Passes a word `from` that stands between the name `source` and a comma. -/
def skipEarlyFrom : Parse Unit := do
  if (← seesWord "from") && (← followedBy (Token.isPunct · ",")) then advance

/-- The name that may follow a mark. -/
def nameHere : Parse (Option Name) := do
  if (← token).isBindable then return some (← bindingName) else return none

/-- An import, after the word `import`. -/
def importAfterWord : Parse Stmt := do
  match (← token).lexeme with
  | .string source =>
    advance
    importAttributes
    semicolon
    return .import ⟨[], source, false⟩
  | _ =>
    let first ← nameHere
    let isTypes ← if first.any (·.text == "type") then marksTypes else pure false
    let isPhase ← match first with
      | some name => marksPhase name.text
      | none => pure false
    -- a name alone can be imported as the source of a module
    let isSource := first.any (·.text == "source")
    if isSource && !isPhase then skipEarlyFrom
    let first ← if isTypes || isPhase then nameHere else pure first
    if first.isSome && !isPhase && (← sees "=") then
      advance
      importAlias
    else importTail isTypes (!(isPhase && isSource)) first

/-- An import, or an expression that starts with the same word. -/
def importStatement : Parse Stmt := do
  if ← followedBy (Token.isOneOf · ["(", "."]) then expressionStatement self
  else
    advance
    importAfterWord

/-! ### Exports -/

def exportSource : Parse (Option String) := do
  if (← eatWord "from") && (← token).isLiteral then
    let source ← stringText
    importAttributes
    return some source
  else return none

def exportList : Parse Stmt := do
  let entries ← listEntries
  let source ← exportSource
  semicolon
  return .exportNames (entries.map fun r => ⟨r.outer.text, r.inner.text⟩) source

/-- All names of another module, possibly under one name, after the star. -/
def exportStar : Parse Stmt := do
  let renamed ← if ← eatWord "as" then
      let _ ← moduleName
      pure true
    else pure false
  expectWord "from"
  let source ← stringText
  importAttributes
  semicolon
  return .exportAll source renamed

def exportDefault (outer : List Part) : Parse Stmt := do
  let start := (← token).start
  let decorations := outer ++ (← decorators self)
  let t ← token
  let isInterface := t.isWord "interface" && (← followedBy fun n => !n.newline)
  let isAbstract := t.isWord "abstract"
    && (← followedBy fun n => n.isWord "class" && !n.newline)
  let isAsync := t.isWord "async"
    && (← followedBy fun n => n.isWord "function" && !n.newline)
  if t.isWord "class" || isAbstract then
    if isAbstract then advance
    return .exportDefault (.classDecl (← readClass self start decorations))
  else if isInterface then
    advance
    return .exportDefault (← interfaceDeclaration self)
  else if t.isWord "function" || isAsync then
    if isAsync then advance
    return .exportDefault (← functionDeclaration self false isAsync)
  else
    let e ← self (.assignment true)
    semicolon
    return .exportDefault (.expression e)

/-- A class that is exported, from its decorators on. -/
def exportDecorated (outer : List Part) : Parse Stmt := do
  let start := (← token).start
  let decorations := outer ++ (← decorators self)
  let _ ← modifiers
  -- one token is passed here, whatever it is
  advance
  return .exported (.classDecl (← classAfterWord self start decorations))

def exportDeclaration (decorations : List Part) : Parse Stmt := do
  let start := (← token).start
  let words ← declarationMarks
  return .exported (← within (Context.marked words) (declarationAfter self start words decorations))

def exportAfterWord (decorations : List Part) : Parse Stmt := do
  let t ← token
  match t.lexeme with
  | .punct "*" =>
    advance
    exportStar
  | .punct openBrace => exportList
  | .punct "=" =>
    advance
    let e ← self (.assignment true)
    semicolon
    return .other [.expr e]
  | .punct "@" => exportDecorated self decorations
  | _ =>
    if ← eatWord "default" then exportDefault self decorations
    else if t.isWord "as" && (← followedBy (Token.isWord · "namespace")) then
      advance
      advance
      let _ ← word
      semicolon
      return .other []
    else if t.isWord "type" && (← followedBy (Token.isOneOf · [openBrace, "*"])) then
      advance
      if ← eat "*" then exportStar else exportList
    else if ← eatWord "import" then importEquals
    else exportDeclaration self decorations

/-- An export; decorators may stand before it. -/
def exportStatement (decorations : List Part) : Parse Stmt := do
  expectWord "export"
  -- the word may be said twice before a declaration
  if ← eatWord "export" then exportDeclaration self decorations
  else exportAfterWord self decorations

/-! ### Scripts -/

/-- A statement that starts with decorators: an export, or a class with modifiers. -/
def decoratedStatement : Parse Stmt := do
  let start := (← token).start
  let decorations ← decorators self
  if ← seesWord "export" then exportStatement self decorations
  else
    let _ ← modifiers
    return .classDecl (← readClass self start decorations)

def statement (alone : Bool) : Parse Stmt := do
  let t ← token
  if t.isWord "import" then importStatement self
  else if t.isWord "export" then exportStatement self []
  else if t.isPunct "@" then decoratedStatement self
  else plainStatement self alone

/-- The rule for one goal, given the rules for the goals inside it. -/
def rule : (goal : Goal) → Parse goal.Result
  | .expression => expression self
  | .assignment arrowTypes => assignment self arrowTypes
  | .operand level => operand self level
  | .unary => unary self
  | .leftHand calls => leftHand self calls
  | .objectLiteral => objectLiteral self
  | .type => readType self
  | .typeOperand => typeOperand self
  | .primaryType => primaryType self
  | .pattern => pattern self
  | .statement alone => statement self alone

/-- All rules of the grammar, nesting at most `depth` deep. -/
def rules : Nat → Rules
  | 0, _ => failure
  | depth + 1, goal => rule (rules depth) goal

/-- The statements up to the end of the text, or to where nothing can be read. -/
def statements : Parse (List Stmt) :=
  many do
    if (← token).isEnd then return none else return some (← self (.statement false))

/-- The cursor at the start of a text; tells whether things are only declared in it. -/
def start (ambient : Bool) (text : String) : Cursor :=
  let (token, after) := scanToken (skipHashbang text.toList 0)
  { token := token
    after := after
    size := text.utf8ByteSize
    context := ⟨true, false, true, false, false, ambient⟩
    faults := 0
    flaws := if token.flawed then 1 else 0 }

/-- The statements of a script, or nothing if it is not well formed. -/
def readScript? (ambient : Bool) (text : String) : Option (List Stmt) :=
  -- no rule nests deeper than a few times the length of the text
  let reader := statements (rules (16 * text.utf8ByteSize + 64))
  ((reader.run (start ambient text)).run ⟨∅⟩).1.map (·.1)

end PropCheck.Script.Grammar
