/-!
# Double-precision numbers

A finite double is a whole multiple of the smallest positive double, `2 ^ (-1074)`, so it is held
as a sign and that multiple.  Every double has one representation, and rounding and comparison are
arithmetic on natural numbers.

* `Double`: a number of the binary64 format.
* `Double.ieeeEq`: equality of numbers; the two zeros are equal and `nan` differs from itself.
* `Double.ofRatio`: the double nearest to a fraction, a tie going to the even neighbour.
* `Double.mul`: the product of two numbers.
* `Double.floorNat`: the largest natural number up to a number.
* `Double.ofDecimal`: the double nearest to `digits · 10 ^ exponent`.
* `Double.ofDigits`: the value of a digit sequence in a base, rounded once.
* `Double.ofLongDigits`: the same, rounded after each digit.
-/

namespace PropCheck

/-- A number of the binary64 format; `finite negative units` is `± units · 2 ^ (-1074)`. -/
inductive Double where
  | nan
  | infinite (negative : Bool)
  | finite (negative : Bool) (units : Nat)
deriving DecidableEq, Repr, Inhabited

namespace Double

/-- Equality of numbers: the zeros are equal, and `nan` is equal to nothing. -/
def ieeeEq : Double → Double → Bool
  | finite s m, finite t n => m == n && (s == t || m == 0)
  | infinite s, infinite t => s == t
  | _, _ => false

/-- The quotient `num / den` rounded to the nearest whole number, a tie going to the even one. -/
def roundHalfEven (num den : Nat) : Nat :=
  let q := num / den
  let twice := 2 * (num % den)
  if twice < den || (twice == den && q % 2 == 0) then q else q + 1

/-- The distance from a magnitude to the next larger one, both in units. -/
def spacing (units : Nat) : Nat :=
  Nat.pow 2 (units.log2 - 52)

/-- One more than the largest finite magnitude rounds to, in units. -/
def overflow : Nat :=
  Nat.pow 2 2098

/-- The double nearest to `num / den`. -/
def ofRatio (negative : Bool) (num den : Nat) : Double :=
  let scaled := num * Nat.pow 2 1074
  let step := spacing (scaled / den)
  let units := roundHalfEven scaled (den * step) * step
  if units < overflow then finite negative units else infinite negative

def ofNat (n : Nat) : Double :=
  ofRatio false n 1

/-- The product of two numbers, rounded. -/
def mul : Double → Double → Double
  | finite s m, finite t n => ofRatio (s != t) (m * n) (Nat.pow 2 2148)
  | finite s m, infinite t | infinite t, finite s m => if m == 0 then nan else infinite (s != t)
  | infinite s, infinite t => infinite (s != t)
  | _, _ => nan

/-- The largest natural number up to a number, cut off at 64 bits; zero where there is none. -/
def floorNat : Double → Nat
  | finite false units => min (units / Nat.pow 2 1074) (UInt64.size - 1)
  | infinite false => UInt64.size - 1
  | _ => 0

/-- The double nearest to `digits · 10 ^ exponent`. -/
def ofDecimal (negative : Bool) (digits : Nat) (exponent : Int) : Double :=
  let length : Int := (Nat.toDigits 10 digits).length
  -- what is out of range is cut off before any power is computed
  if digits == 0 || length + exponent < -400 then finite negative 0
  else if 400 < length + exponent then infinite negative
  else ofRatio negative (digits * Nat.pow 10 exponent.toNat) (Nat.pow 10 (-exponent).toNat)

/-- The value of a digit sequence in a base, rounded once. -/
def ofDigits (base : Nat) (digits : List Nat) : Double :=
  ofNat (digits.foldl (fun value d => value * base + d) 0)

/-- The value of a digit sequence in a base, rounded after each digit. -/
def ofLongDigits (base : Nat) (digits : List Nat) : Double :=
  digits.foldl
    (fun value d =>
      match value with
      | finite _ units => ofRatio false (units * base + d * Nat.pow 2 1074) (Nat.pow 2 1074)
      | other => other)
    (finite false 0)

end Double

end PropCheck
