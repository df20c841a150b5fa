import PropCheck.Script.Numeral

/-!
# Escapes, words and texts

A word may hold escapes of the form `\u`, and a text in quotes these and others.  An escape in a
word that gives no character of a word is a fault, and the word goes on without it.  Escapes that
are not well formed give nothing either; in a template they leave it without a value.

* `Escape`: what an escape gives.
* `scanWord`: the word at the front of a text.
* `scanText`: the text up to a closing quote, or to a hole of a template.
* `Point`: a code point of a text in quotes.
* `textOf`: the text of some code points, among which may be halves of surrogate pairs.
-/

namespace PropCheck.Script

/-! ### Code points -/

def isHighSurrogate (n : Nat) : Bool :=
  0xd800 ≤ n && n < 0xdc00

def isLowSurrogate (n : Nat) : Bool :=
  0xdc00 ≤ n && n < 0xe000

def joinPair (high low : Nat) : Nat :=
  0x10000 + (high - 0xd800) * 0x400 + (low - 0xdc00)

/-- The digits at the front of a text, at most a number of them. -/
def fewDigits (base : Nat) : Nat → List Char → List Nat
  | n + 1, c :: cs =>
    match digitValue? base c with
    | some d => d :: fewDigits base n cs
    | none => []
  | _, _ => []

/-- The value of as many hexadecimal digits as are wanted, and how many there are. -/
def fixedHex (wanted : Nat) (cs : List Char) : Option Nat × Nat :=
  let ds := fewDigits 16 wanted cs
  (if ds.length == wanted then some (digitsValue 16 ds) else none, ds.length)

/-- The rest of a code point in braces, given the value of its digits so far. -/
def bracedRest : Nat → List Char → Option Nat × Nat
  | value, c :: cs =>
    match digitValue? 16 c with
    | some d =>
      if value * 16 + d ≤ 0x10ffff then
        let (code, length) := bracedRest (value * 16 + d) cs
        (code, length + 1)
      else (none, 1)
    | none => if c == '}' then (some value, 1) else (none, 0)
  | _, [] => (none, 0)

/-- A code point in braces, after the opening one. -/
def bracedCode : List Char → Option Nat × Nat
  | c :: cs =>
    match digitValue? 16 c with
    | some d =>
      let (code, length) := bracedRest d cs
      (code, length + 1)
    | none => (none, 0)
  | [] => (none, 0)

/-- What stands after `\u`: a code point, if it is well formed, with the number of characters it
takes, and whether it is a surrogate pair. -/
structure CodeEscape where
  code : Option Nat
  length : Nat
  isPair : Bool
deriving DecidableEq, Repr

/-- The second half of a surrogate pair, if one is escaped at the front of a text. -/
def lowHalf? : List Char → Option Nat
  | '\\' :: 'u' :: cs => (fixedHex 4 cs).1.filter isLowSurrogate
  | _ => none

def codeEscape : List Char → CodeEscape
  | '{' :: cs =>
    let (code, length) := bracedCode cs
    ⟨code, length + 1, false⟩
  | cs =>
    match fixedHex 4 cs with
    | (some high, length) =>
      match if isHighSurrogate high then lowHalf? (cs.drop 4) else none with
      | some low => ⟨some (joinPair high low), 10, true⟩
      | none => ⟨some high, length, false⟩
    | (none, length) => ⟨none, length, false⟩

/-! ### Words -/

/-- A word with the number of characters it takes. -/
structure WordText where
  name : List Char
  length : Nat
  escaped : Bool
  flawed : Bool

/-- The character that an escape in a word gives, if it may stand there, and the number of
characters after the backslash. -/
def wordEscape (first : Bool) : List Char → Option Char × Nat
  | 'u' :: cs =>
    let e := codeEscape cs
    let fits := fun (c : Char) => if first then Text.isIdStart c else Text.isIdContinue c
    let char := e.code.bind fun code =>
      if !e.isPair && (Char.ofNat code).toNat == code && fits (Char.ofNat code) then
        some (Char.ofNat code)
      else none
    (char, e.length + 1)
  | _ :: _ => (none, 1)
  | [] => (none, 0)

/-- The word at the front of a text; tells whether its first character is still to come. -/
def scanWord (first : Bool) (cs : List Char) : WordText :=
  match cs with
  | [] => ⟨[], 0, false, false⟩
  | c :: cs =>
    if c == '\\' then
      let (char, length) := wordEscape first cs
      let w := scanWord false (cs.drop length)
      ⟨char.toList ++ w.name, w.length + length + 1, true, char.isNone || w.flawed⟩
    else if Text.isIdContinue c then
      let w := scanWord false cs
      ⟨c :: w.name, w.length + 1, w.escaped, w.flawed⟩
    else ⟨[], 0, false, false⟩
termination_by cs.length
decreasing_by all_goals simp; try omega

/-! ### Texts in quotes -/

/-- A code point of a text in quotes; `kept` tells whether a backslash stands before the character
itself. -/
structure Point where
  code : Nat
  kept : Bool
deriving DecidableEq, Repr

/-- What an escape in a text gives, after its backslash. -/
structure Escape where
  points : List Point
  length : Nat
  valid : Bool
deriving DecidableEq, Repr

/-- An escape that gives a code point if it is well formed. -/
def Escape.ofCode (code : Option Nat) (length : Nat) : Escape :=
  ⟨code.toList.map (⟨·, false⟩), length, code.isSome⟩

/-- The character that a one-letter escape stands for. -/
def simpleEscape (c : Char) : Nat :=
  if c == 'n' then 10
  else if c == 't' then 9
  else if c == 'r' then 13
  else if c == 'b' then 8
  else if c == 'f' then 12
  else if c == 'v' then 11
  else c.toNat

def startsWithDigit : List Char → Bool
  | c :: _ => c.isDigit
  | [] => false

/-- An escape that starts with a digit: an octal code of at most three digits. A template allows
none but a zero that stands alone. -/
def digitEscape (inTemplate : Bool) (c : Char) (cs : List Char) : Escape :=
  if c == '0' && !startsWithDigit cs then .ofCode (some 0) 1
  else if inTemplate then .ofCode none 1
  else
    match digitValue? 8 c with
    | some d =>
      let ds := fewDigits 8 (if d < 4 then 2 else 1) cs
      .ofCode (some (digitsValue 8 (d :: ds))) (ds.length + 1)
    | none => .ofCode (some c.toNat) 1

def readEscape (inTemplate : Bool) : List Char → Escape
  | [] => ⟨[], 0, true⟩
  | '\r' :: '\n' :: _ => ⟨[], 2, true⟩
  | 'x' :: cs =>
    let (code, length) := fixedHex 2 cs
    .ofCode code (length + 1)
  | 'u' :: cs =>
    let e := codeEscape cs
    .ofCode e.code (e.length + 1)
  | c :: cs =>
    if isLineEnd c then ⟨[], 1, true⟩
    else if c.isDigit then digitEscape inTemplate c cs
    else ⟨[⟨simpleEscape c, true⟩], 1, true⟩

/-- A piece of text: its code points last first, the number of characters with the closing mark,
whether all its escapes are well formed, and whether it ends with its quote and not at a hole. -/
structure ScannedText where
  points : List Point
  length : Nat
  valid : Bool
  closed : Bool

/-- Reads up to the quote, or to a hole if the quote is that of a template. A text that is not
closed has no end. -/
def scanText (quote : Char) (cs : List Char) (length : Nat) (points : List Point) (valid : Bool) :
    Option ScannedText :=
  match cs with
  | [] => none
  | '\r' :: '\n' :: cs =>
    if quote == '\x60' then scanText quote cs (length + 2) (⟨10, false⟩ :: points) valid else none
  | '$' :: '{' :: cs =>
    if quote == '\x60' then some ⟨points, length + 2, valid, false⟩
    else scanText quote ('{' :: cs) (length + 1) (⟨36, false⟩ :: points) valid
  | c :: cs =>
    if c == quote then some ⟨points, length + 1, valid, true⟩
    else if c == '\\' then
      let e := readEscape (quote == '\x60') cs
      scanText quote (cs.drop e.length) (length + e.length + 1) (e.points ++ points)
        (valid && e.valid)
    else if quote != '\x60' && (c == '\n' || c == '\r') then none
    else
      let code := if c == '\r' then 10 else c.toNat
      scanText quote cs (length + 1) (⟨code, false⟩ :: points) valid
termination_by cs.length
decreasing_by all_goals simp; try omega

def hexDigits4 (n : Nat) : List Char :=
  [n / 4096 % 16, n / 256 % 16, n / 16 % 16, n % 16].map Nat.digitChar

def Point.isHalf (p : Point) : Bool :=
  isHighSurrogate p.code || isLowSurrogate p.code

/-- The characters of a code point. A half of a surrogate pair that stands alone is written as the
replacement character and its four hexadecimal digits, and so is the replacement character where it
could be taken for one. -/
def Point.text (marking : Bool) (p : Point) : List Char :=
  if p.isHalf || (marking && p.code == 0xfffd) then Char.ofNat 0xfffd :: hexDigits4 p.code
  else [Char.ofNat p.code]

/-- The text of some code points. -/
def textOf (points : List Point) : String :=
  let front := points.takeWhile (!·.isHalf)
  let back := points.dropWhile (!·.isHalf)
  -- with a half among them, the replacement characters before the first half are marked, and those
  -- after it that have no backslash before them
  String.ofList
    (front.flatMap (·.text !back.isEmpty) ++ back.flatMap fun p => p.text !p.kept)

/-- A string from its opening quote on. -/
def scanString (quote : Char) (cs : List Char) : Scanned :=
  match scanText quote cs 1 [] true with
  | some t => .checked (.string (textOf t.points.reverse)) t.length (!t.valid)
  | none => .bad

/-- A piece of a template, after its opening quote or the end of a hole. -/
def scanTemplate (cs : List Char) : Scanned :=
  match scanText '\x60' cs 0 [] true with
  | some t =>
    .plain (.template (if t.valid then some (textOf t.points.reverse) else none) t.closed)
      t.length
  | none => .bad

end PropCheck.Script
