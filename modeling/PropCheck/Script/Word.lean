import PropCheck.Script.Syntax
import PropCheck.Script.Token

/-!
# Words and marks

What can be told of a token alone: which mark or word it is, whether it may name a binding or a
property, and whether it may mark a declaration.
-/

namespace PropCheck.Script

def Token.isPunct (t : Token) (text : String) : Bool :=
  match t.lexeme with
  | .punct p => p == text
  | _ => false

def Token.isOneOf (t : Token) (texts : List String) : Bool :=
  match t.lexeme with
  | .punct p => texts.contains p
  | _ => false

def Token.isWord (t : Token) (word : String) : Bool :=
  match t.lexeme with
  | .word w => w == word
  | _ => false

def Token.word? (t : Token) : Option String :=
  match t.lexeme with
  | .word w => some w
  | _ => none

def Token.isNumeral (t : Token) : Bool :=
  match t.lexeme with
  | .number _ | .brokenNumber | .bigint _ => true
  | _ => false

def Token.isString (t : Token) : Bool :=
  match t.lexeme with
  | .string _ => true
  | _ => false

def Token.isTemplate (t : Token) : Bool :=
  match t.lexeme with
  | .template _ _ => true
  | _ => false

def Token.isPrivateName (t : Token) : Bool :=
  match t.lexeme with
  | .privateName _ => true
  | _ => false

/-- Whether the text ends at the token; it also ends where nothing can be read. -/
def Token.isEnd (t : Token) : Bool :=
  match t.lexeme with
  | .eof | .bad => true
  | _ => false

/-- Whether the token is a literal that is no template. -/
def Token.isLiteral (t : Token) : Bool :=
  t.isNumeral || t.isString || t.word?.any ["null", "true", "false"].contains

def Token.span (t : Token) : Span :=
  ⟨t.start, t.stop⟩

/-! ### Names -/

/-- The words that are never names of bindings. -/
def reserved : List String :=
  ["break", "case", "catch", "class", "const", "continue", "debugger", "default", "delete", "do",
    "else", "enum", "export", "extends", "false", "finally", "for", "function", "if", "import",
    "in", "instanceof", "new", "null", "return", "super", "switch", "this", "throw", "true", "try",
    "typeof", "var", "void", "while", "with"]

/-- The words that have a meaning of their own at some places, and are names at others. -/
def contextual : List String :=
  ["abstract", "accessor", "any", "as", "assert", "asserts", "async", "await", "bigint", "boolean",
    "constructor", "declare", "defer", "from", "get", "global", "implements", "infer", "interface",
    "intrinsic", "is", "keyof", "let", "meta", "module", "namespace", "never", "number", "object",
    "of", "out", "override", "package", "private", "protected", "public", "readonly", "require",
    "satisfies", "set", "source", "static", "string", "symbol", "target", "type", "undefined",
    "unique", "unknown", "using", "yield"]

def isBindable (word : String) : Bool :=
  !reserved.contains word

/-- Whether a word is a name everywhere. -/
def isName (word : String) : Bool :=
  isBindable word && word != "await" && word != "yield"

def Token.isName (t : Token) : Bool :=
  t.word?.any Script.isName

def Token.isBindable (t : Token) : Bool :=
  t.word?.any Script.isBindable

/-- Whether the token is a word without any meaning of its own. -/
def Token.isOrdinary (t : Token) : Bool :=
  t.word?.any fun w => !reserved.contains w && !contextual.contains w

/-- Whether the token is a word or a literal that may name a property. -/
def Token.isPropertyName (t : Token) : Bool :=
  t.word?.isSome || t.isPrivateName || t.isString || t.isNumeral

/-! ### Modifiers -/

/-- The modifiers that tell who may use a member. -/
def accessWords : List String :=
  ["private", "protected", "public"]

/-- The words that may mark a declaration or member. -/
def modifierWords : List String :=
  ["abstract", "accessor", "async", "const", "declare", "default", "export", "in", "out",
    "override", "private", "protected", "public", "readonly", "static"]

def Token.isModifier (t : Token) : Bool :=
  t.word?.any modifierWords.contains

/-- Whether something that a modifier may mark starts with the token. -/
def Token.followsModifier (t : Token) : Bool :=
  t.isPropertyName || t.isOneOf ["[", openBrace, "*", "..."]

/-- Whether a member that `get` or `set` may mark starts with the token. -/
def Token.followsAccessor (t : Token) : Bool :=
  t.isPropertyName || t.isPunct "["

end PropCheck.Script
