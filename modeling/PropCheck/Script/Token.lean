import PropCheck.Script.Escape
import PropCheck.Script.Regex

/-!
# Tokens of scripts

A script is read token by token.  Where the meaning of a character depends on what came before, the
reader asks again: a slash may start a regular expression, a closing brace may go on with a
template, and angle brackets may stand alone or belong to an operator.

* `scanToken`: the token at a place, after blanks and comments.
* `scanAngle`: the operator that starts with a closing angle bracket.
-/

namespace PropCheck.Script

@[match_pattern] abbrev openBrace : String := "\x7b"

@[match_pattern] abbrev closeBrace : String := "\x7d"

/-- The marks and operators, longer ones first. A closing angle bracket is read alone. -/
def punctuation : List (List Char × String) :=
  ["...", "===", "!==", "**=", "<<=", "&&=", "||=", "??=",
    "<<", "<=", "==", "=>", "!=", "++", "+=", "--", "-=", "**", "*=", "/=", "%=", "&&", "&=", "||",
    "|=", "^=", "??", "?.",
    openBrace, closeBrace, "(", ")", "[", "]", ".", ";", ",", "<", ">", "=", "!", "+", "-", "*",
    "/", "%", "&", "|", "^", "~", "?", ":", "@"].map fun s => (s.toList, s)

/-- The longest mark or operator at the front. -/
def scanPunct (cs : List Char) : Scanned :=
  match cs with
  | '?' :: '.' :: rest =>
    -- a point before a digit belongs to a number
    if startsWithDigit rest then .plain (.punct "?") 1 else .plain (.punct "?.") 2
  | _ =>
    match punctuation.find? fun p => p.1.isPrefixOf cs with
    | some (p, text) => .plain (.punct text) p.length
    | none => .bad

/-- The longest operator that starts with a closing angle bracket, after that bracket. -/
def scanAngle : List Char → Scanned
  | '>' :: '>' :: '=' :: _ => .plain (.punct ">>>=") 3
  | '>' :: '>' :: _ => .plain (.punct ">>>") 2
  | '>' :: '=' :: _ => .plain (.punct ">>=") 2
  | '>' :: _ => .plain (.punct ">>") 1
  | '=' :: _ => .plain (.punct ">=") 1
  | _ => .plain (.punct ">") 0

/-- A word, or a private name after its mark. -/
def scanName (make : String → Lexeme) (skipped : Nat) (cs : List Char) : Scanned :=
  let w := scanWord true cs
  ⟨make (String.ofList w.name), w.length + skipped, w.escaped, w.flawed⟩

def startsWord (c : Char) : Bool :=
  Text.isIdStart c || c == '\\'

def scanLexeme (cs : List Char) : Scanned :=
  match cs with
  | [] => .plain .eof 0
  | c :: rest =>
    if startsWord c then scanName .word 0 cs
    else if c.isDigit || (c == '.' && startsWithDigit rest) then scanNumeral cs
    else if c == '\x22' || c == '\'' then scanString c rest
    else if c == '\x60' then
      let piece := scanTemplate rest
      { piece with length := piece.length + 1 }
    else if c == '#' then
      if rest.head?.any startsWord then scanName .privateName 1 rest else .cut
    else scanPunct cs

/-- The next token of a text, and what is left after it. -/
def scanToken (place : Place) : Token × Place :=
  let (here, newline) := skipGap .between place.rest place.offset false
  let s := scanLexeme here.rest
  let after := here.after s.length
  let written := if s.escaped then some (String.ofList (here.rest.take s.length)) else none
  (⟨s.lexeme, here.offset, after.offset, newline, written, s.flawed⟩, after)

end PropCheck.Script
