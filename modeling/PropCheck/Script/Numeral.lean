import PropCheck.Script.Lexeme
import PropCheck.Text.Identifier

/-!
# Numerals

A numeral is decimal, with a fraction and an exponent if it has them, or a whole number in base two,
eight or sixteen.  Underscores may stand between digits.  An underscore at another place in decimal
digits is a fault, but the numeral keeps its value without it.  Whole numbers of other bases that
are short enough are rounded once, longer ones after each digit.  A text is read no further than a
numeral that is not well formed.

* `DigitRun`: digits at the front of a text.
* `scanNumeral`: the numeral at the front of a text.
-/

namespace PropCheck.Script

/-! ### Digits -/

/-- The value of a digit in bases up to sixteen. -/
def digitValue? (base : Nat) (c : Char) : Option Nat :=
  let value :=
    if '0' ≤ c && c ≤ '9' then c.toNat - 48
    else if 'a' ≤ c && c ≤ 'f' then c.toNat - 87
    else if 'A' ≤ c && c ≤ 'F' then c.toNat - 55
    else 16
  if value < base then some value else none

def digitsValue (base : Nat) (digits : List Nat) : Nat :=
  digits.foldl (fun value d => value * base + d) 0

/-- Digits with the number of characters they take, and whether an underscore is misplaced. -/
structure DigitRun where
  digits : List Nat
  length : Nat
  flawed : Bool
deriving DecidableEq, Repr

def DigitRun.none : DigitRun :=
  ⟨[], 0, false⟩

/-- A digit before others, after some characters that are skipped. -/
def DigitRun.cons (d : Nat) (skipped : Nat) (r : DigitRun) : DigitRun :=
  ⟨d :: r.digits, r.length + skipped + 1, r.flawed⟩

/-- The digits that follow a first one. An underscore without a digit behind it ends them. -/
def moreDigits (base : Nat) : List Char → DigitRun
  | '_' :: c :: cs =>
    match digitValue? base c with
    | some d => (moreDigits base cs).cons d 1
    | Option.none => ⟨[], 1, true⟩
  | '_' :: [] => ⟨[], 1, true⟩
  | c :: cs =>
    match digitValue? base c with
    | some d => (moreDigits base cs).cons d 0
    | Option.none => .none
  | [] => .none

/-- The digits at the front of a text, if it starts with one. -/
def digitRun? (base : Nat) : List Char → Option DigitRun
  | c :: cs => (digitValue? base c).map fun d => (moreDigits base cs).cons d 0
  | [] => Option.none

/-! ### Where a numeral ends -/

/-- Whether a numeral would run into what follows it. -/
def runsOn : List Char → Bool
  | c :: _ => c.isDigit || Text.isIdStart c
  | [] => false

/-- A numeral, unless it runs into what follows it. -/
def settled (lexeme : Lexeme) (length : Nat) (flawed : Bool) (rest : List Char) : Scanned :=
  if runsOn rest then .cut else .checked lexeme length flawed

/-! ### Decimal numerals -/

/-- The exponent of a numeral; it has no value if it has no digits. -/
structure Exponent where
  value : Option Int
  length : Nat
  flawed : Bool

def exponentDigits (negative : Bool) (skipped : Nat) (cs : List Char) : Exponent :=
  match digitRun? 10 cs with
  | some r =>
    let value : Int := digitsValue 10 r.digits
    ⟨some (if negative then -value else value), r.length + skipped, r.flawed⟩
  | Option.none => ⟨Option.none, skipped, true⟩

def readExponent : List Char → Exponent
  | '+' :: cs => exponentDigits false 2 cs
  | '-' :: cs => exponentDigits true 2 cs
  | cs => exponentDigits false 1 cs

def optionalExponent : List Char → Exponent
  | 'e' :: cs | 'E' :: cs => readExponent cs
  | _ => ⟨some 0, 0, false⟩

/-- The number that digits, a fraction and an exponent give. -/
def decimalLexeme (whole fraction : List Nat) (exponent : Exponent) : Lexeme :=
  match exponent.value with
  | some e =>
    .number (Double.ofDecimal false (digitsValue 10 (whole ++ fraction)) (e - fraction.length))
  | Option.none => .brokenNumber

def decimalTail (whole : DigitRun) (fraction : DigitRun) (rest : List Char) : Scanned :=
  let e := optionalExponent rest
  settled (decimalLexeme whole.digits fraction.digits e) (whole.length + fraction.length + e.length)
    (whole.flawed || fraction.flawed || e.flawed) (rest.drop e.length)

def decimalAfterWhole (whole : DigitRun) (rest : List Char) : Scanned :=
  match rest with
  | '.' :: cs =>
    let fraction := (digitRun? 10 cs).getD .none
    decimalTail whole { fraction with length := fraction.length + 1 } (cs.drop fraction.length)
  | rest => decimalTail whole .none rest

def scanDecimal (cs : List Char) : Scanned :=
  let whole := (digitRun? 10 cs).getD .none
  match cs.drop whole.length with
  | 'n' :: rest =>
    settled (.bigint (toString (digitsValue 10 whole.digits))) (whole.length + 1) whole.flawed rest
  | rest => decimalAfterWhole whole rest

/-! ### Numerals that start with zero -/

/-- The most characters, counted after the mark of the base, of a whole number that is rounded
once. -/
def shortLength (base : Nat) : Nat :=
  if base == 2 then 64 else if base == 8 then 21 else 16

/-- The value of a whole number that is written in some characters. -/
def wholeValue (base : Nat) (digits : List Nat) (length : Nat) : Double :=
  if length ≤ shortLength base then Double.ofDigits base digits
  else Double.ofLongDigits base digits

/-- A whole number after the mark of its base. -/
def scanBased (base : Nat) (cs : List Char) : Scanned :=
  match digitRun? base cs with
  | some r =>
    if r.flawed then .cut
    else
      match cs.drop r.length with
      | 'n' :: rest =>
        settled (.bigint (toString (digitsValue base r.digits))) (r.length + 3) false rest
      | rest => settled (.number (wholeValue base r.digits r.length)) (r.length + 2) false rest
  | Option.none => .cut

/-- A numeral with an exponent right behind a zero or digits that start with zero; it may run into
what follows it. -/
def zeroExponent (whole : DigitRun) (cs : List Char) : Scanned :=
  let e := readExponent cs
  .checked (decimalLexeme whole.digits [] e) (whole.length + e.length) e.flawed

/-- A numeral that starts with a zero and another digit: octal if all its digits are. -/
def scanLeadingZero (cs : List Char) : Scanned :=
  let digits := (cs.takeWhile Char.isDigit).map fun c => c.toNat - 48
  let whole : DigitRun := ⟨digits, digits.length, false⟩
  let rest := cs.drop digits.length
  if digits.all (· < 8) then
    settled (.number (wholeValue 8 digits (digits.length - 1))) digits.length false rest
  else
    match rest with
    -- right behind the digits only a small letter marks an exponent
    | 'e' :: cs => zeroExponent whole cs
    | '.' :: _ => decimalAfterWhole whole rest
    | rest => settled (decimalLexeme digits [] ⟨some 0, 0, false⟩) digits.length false rest

/-- The numeral at the front of a text that starts with a digit, or with a point and a digit. -/
def scanNumeral (cs : List Char) : Scanned :=
  match cs with
  | '.' :: _ => decimalAfterWhole .none cs
  | '0' :: rest =>
    match rest with
    | 'x' :: cs | 'X' :: cs => scanBased 16 cs
    | 'o' :: cs | 'O' :: cs => scanBased 8 cs
    | 'b' :: cs | 'B' :: cs => scanBased 2 cs
    | 'e' :: cs | 'E' :: cs => zeroExponent ⟨[0], 1, false⟩ cs
    | '_' :: _ => .cut
    | c :: _ => if c.isDigit then scanLeadingZero cs else scanDecimal cs
    | [] => scanDecimal cs
  | cs => scanDecimal cs

end PropCheck.Script
