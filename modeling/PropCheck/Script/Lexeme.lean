import PropCheck.Double.Basic

/-!
# Lexemes and the gaps between them

A script is read from a list of characters, and places in it are counted in bytes.

* `Lexeme`: what a token is, with its value.
* `Token`: a lexeme with its place, and what there is to know about how it is written.
* `Scanned`: a lexeme with the number of characters it takes.
* `skipGap`: skips blanks and comments.
-/

namespace PropCheck.Script

/-- What a token is. A template is read in pieces, each up to the next hole or the end. Where no
token can be read the text is `bad`, and no statement can end before it on its line. A numeral that
is not well formed ends the text, and so does the mark of a private name without a name. -/
inductive Lexeme where
  | word (name : String)
  | privateName (name : String)
  | punct (text : String)
  | number (value : Double)
  | brokenNumber
  | bigint (digits : String)
  | string (value : String)
  | template (cooked : Option String) (last : Bool)
  | regex (source : String)
  | bad
  | eof
deriving DecidableEq, Repr, Inhabited

/-- A token at its place. `newline` tells whether a line ends before it, `written` is how a word
with escapes is written, and `flawed` tells whether it has a fault that does not keep it from being
read.
-/
structure Token where
  lexeme : Lexeme
  start : Nat
  stop : Nat
  newline : Bool
  written : Option String
  flawed : Bool
deriving DecidableEq, Repr, Inhabited

/-- Whether a token is a word with escapes. -/
def Token.escaped (t : Token) : Bool :=
  t.written.isSome

/-- A lexeme at the front of a text, with the number of characters it takes. -/
structure Scanned where
  lexeme : Lexeme
  length : Nat
  escaped : Bool
  flawed : Bool
deriving DecidableEq, Repr, Inhabited

/-- A lexeme without escapes and faults. -/
def Scanned.plain (lexeme : Lexeme) (length : Nat) : Scanned :=
  ⟨lexeme, length, false, false⟩

/-- A lexeme that may have a fault. -/
def Scanned.checked (lexeme : Lexeme) (length : Nat) (flawed : Bool) : Scanned :=
  ⟨lexeme, length, false, flawed⟩

/-- A text where no token can be read. -/
def Scanned.bad : Scanned :=
  ⟨.bad, 0, false, true⟩

/-- A text that is read no further. -/
def Scanned.cut : Scanned :=
  ⟨.eof, 0, false, true⟩

/-- What is left of a text, and the byte offset where it starts. -/
structure Place where
  rest : List Char
  offset : Nat
deriving DecidableEq, Repr, Inhabited

def bytes (cs : List Char) : Nat :=
  cs.foldl (fun n c => n + c.utf8Size) 0

def Place.after (place : Place) (length : Nat) : Place :=
  ⟨place.rest.drop length, place.offset + bytes (place.rest.take length)⟩

/-! ### Blanks and comments -/

def isLineEnd (c : Char) : Bool :=
  c == '\n' || c == '\r' || c == ' ' || c == ' '

/-- Whether a character is a blank inside a line. -/
def isBlank (c : Char) : Bool :=
  c == ' ' || c == '\t' || c == '\x0b' || c == '\x0c' || c == '\u0085' || c == ' '
    || c == ' ' || (' ' ≤ c && c ≤ '​') || c == ' ' || c == ' '
    || c == '　' || c == '﻿'

/-- Where the reader is while it looks for the next token. -/
inductive Gap where
  | between
  | lineComment
  | blockComment

/-- Skips blanks and comments, and tells whether a line ended. -/
def skipGap : Gap → List Char → Nat → Bool → Place × Bool
  -- a comment that is not closed goes to the end of the text
  | _, [], o, ended => (⟨[], o⟩, ended)
  | .between, '/' :: '/' :: cs, o, ended => skipGap .lineComment cs (o + 2) ended
  | .between, '/' :: '*' :: cs, o, ended => skipGap .blockComment cs (o + 2) ended
  | .between, c :: cs, o, ended =>
    if isLineEnd c then skipGap .between cs (o + c.utf8Size) true
    else if isBlank c then skipGap .between cs (o + c.utf8Size) ended
    else (⟨c :: cs, o⟩, ended)
  | .lineComment, c :: cs, o, ended =>
    if isLineEnd c then skipGap .between cs (o + c.utf8Size) true
    else skipGap .lineComment cs (o + c.utf8Size) ended
  | .blockComment, '*' :: '/' :: cs, o, ended => skipGap .between cs (o + 2) ended
  | .blockComment, c :: cs, o, ended =>
    skipGap .blockComment cs (o + c.utf8Size) (ended || isLineEnd c)

/-- Skips a first line that names an interpreter. -/
def skipHashbang : List Char → Nat → Place
  | '#' :: '!' :: cs, o => (skipGap .lineComment cs (o + 2) false).1
  | cs, o => ⟨cs, o⟩

end PropCheck.Script
