import PropCheck.Double.Basic

/-!
# The decimal text of a double

A double is written with the fewest significant digits that read back to the same double, and of
those with the ones nearest to it.  The text is positional, never with an exponent, and a whole
number has no decimal point.

* `Double.shortest`: the digits and the power of ten.
* `Double.text`: the text.
* `Double.ofText?`: reads a decimal numeral, with an optional sign, point and exponent, or one of
  the words for infinity and not-a-number.
-/

namespace PropCheck.Double

/-! ### Shortest digits -/

/-- The place of the first significant digit of `num / den`: the largest `k` with
`10 ^ k ≤ num / den`, searched downwards from `k` with the given fuel. -/
def leadingPlace (num den : Nat) : Nat → Int → Int
  | 0, k => k
  | fuel + 1, k =>
    if den * Nat.pow 10 k.toNat ≤ num * Nat.pow 10 (-k).toNat then k
    else leadingPlace num den fuel (k - 1)

/-- A decimal `digits · 10 ^ exponent`. -/
structure Decimal where
  digits : Nat
  exponent : Int
deriving DecidableEq, Repr

/-- Looks on the grid of multiples of `10 ^ k` for a decimal that rounds to the magnitude. -/
def onGrid (units : Nat) (k : Int) : Option Decimal :=
  let step := spacing units
  -- in quarters of a unit: half a spacing rounds to `units` on either side, and half as much below
  -- a power of two, where the magnitudes are closer
  let below := if units == Nat.pow 2 units.log2 && 1 < step then step else 2 * step
  let up := Nat.pow 10 (-k).toNat
  let value := 4 * units * up
  let low := (4 * units - below) * up
  let high := (4 * units + 2 * step) * up
  let cell := 4 * Nat.pow 2 1074 * Nat.pow 10 k.toNat
  let even := (units / step) % 2 == 0
  let inside := fun (x : Nat) => if even then low ≤ x && x ≤ high else low < x && x < high
  let floor := value / cell
  let lower := floor * cell
  let upper := lower + cell
  let takeLower := inside lower
  let takeUpper := inside upper
  -- of the two neighbours the nearer is taken, and the larger one at a tie
  if takeLower && (!takeUpper || value - lower < upper - value) then some ⟨floor, k⟩
  else if takeUpper then some ⟨floor + 1, k⟩
  else none

/-- The first grid, from coarse to fine, that holds a decimal which rounds to `units`. -/
def searchGrids (units : Nat) : Nat → Int → Decimal
  | 0, k => ⟨units, k⟩
  | fuel + 1, k => (onGrid units k).getD (searchGrids units fuel (k - 1))

/-- Drops trailing zeros of the digits, at most as many as the fuel. -/
def Decimal.trim : Nat → Decimal → Decimal
  | 0, d => d
  | fuel + 1, d =>
    if d.digits % 10 == 0 && d.digits != 0 then trim fuel ⟨d.digits / 10, d.exponent + 1⟩ else d

/-- The shortest decimal that reads back to a positive magnitude. -/
def shortest (units : Nat) : Decimal :=
  let start := leadingPlace units (Nat.pow 2 1074) 640 310
  (searchGrids units 18 start).trim 20

/-! ### Text -/

def Decimal.text (d : Decimal) : String :=
  let digits := Nat.toDigits 10 d.digits
  let places := (-d.exponent).toNat
  if 0 ≤ d.exponent then
    String.ofList (digits ++ List.replicate d.exponent.toNat '0')
  else
    let padded := List.replicate (places + 1 - digits.length) '0' ++ digits
    let whole := padded.length - places
    String.ofList (padded.take whole ++ ['.'] ++ padded.drop whole)

def text : Double → String
  | nan => "NaN"
  | infinite negative => if negative then "-inf" else "inf"
  | finite negative units =>
    let magnitude := if units == 0 then "0" else (shortest units).text
    if negative then "-" ++ magnitude else magnitude

/-! ### Reading -/

def decimalValue (digits : List Char) : Nat :=
  digits.foldl (fun n c => n * 10 + (c.toNat - '0'.toNat)) 0

def takeSign : List Char → Bool × List Char
  | '-' :: rest => (true, rest)
  | '+' :: rest => (false, rest)
  | rest => (false, rest)

/-- Reads what follows the digits: nothing, or an exponent. -/
def readExponent? : List Char → Option Int
  | [] => some 0
  | c :: rest =>
    if c == 'e' || c == 'E' then
      let (negative, digits) := takeSign rest
      if digits.isEmpty || !digits.all Char.isDigit then none
      else some (if negative then -(decimalValue digits) else decimalValue digits)
    else none

/-- Reads a numeral without a sign. -/
def readMagnitude? (negative : Bool) (chars : List Char) : Option Double :=
  let word := chars.map Char.toLower
  if word == "inf".toList || word == "infinity".toList then some (infinite negative)
  else if word == "nan".toList then some nan
  else
    let whole := chars.takeWhile Char.isDigit
    let rest := chars.dropWhile Char.isDigit
    let (fraction, rest) := match rest with
      | '.' :: rest => (rest.takeWhile Char.isDigit, rest.dropWhile Char.isDigit)
      | rest => ([], rest)
    if whole.isEmpty && fraction.isEmpty then none
    else do
      let exponent ← readExponent? rest
      return ofDecimal negative (decimalValue (whole ++ fraction)) (exponent - fraction.length)

/-- Reads a double from its text, rounding to the nearest one. -/
def ofText? (text : String) : Option Double :=
  let (negative, chars) := takeSign text.toList
  readMagnitude? negative chars

end PropCheck.Double
