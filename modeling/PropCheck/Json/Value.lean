import PropCheck.Double.Basic

/-!
# JSON values

The value of a JSON text: what is left of it once it has been read.  The names in an object are
distinct, and a number keeps the form it was written in, because only whole numbers that are written
as such are accepted as offsets.

* `Numeral`: a number as it is written.
* `Value`: a JSON value.
* `Value.part?`: a field of a record, which is written as an object or as the array of its fields.
-/

namespace PropCheck.Json

/-- A number as it is written: `whole.fraction e exponent`. -/
structure Numeral where
  negative : Bool
  whole : Nat
  fraction : List Nat
  exponent : Option Int
deriving DecidableEq, Repr, Inhabited

namespace Numeral

def ofNat (n : Nat) : Numeral :=
  ⟨false, n, [], none⟩

/-- The natural number that a numeral without sign, fraction and exponent stands for. -/
def natural? (n : Numeral) : Option Nat :=
  if n.negative || !n.fraction.isEmpty || n.exponent.isSome then none else some n.whole

@[simp] theorem natural?_ofNat (n : Nat) : (ofNat n).natural? = some n := rfl

/-- The longest leading part of a number that fits into 64 bits, and how many digits follow it. -/
def leading (n : Nat) : Nat × Nat :=
  if h : n < UInt64.size then (n, 0)
  else
    have : n / 10 < n := by
      have hsize : UInt64.size ≤ n := Nat.le_of_not_lt h
      exact Nat.div_lt_self (Nat.lt_of_lt_of_le (by decide) hsize) (by decide)
    let (lead, dropped) := leading (n / 10)
    (lead, dropped + 1)
termination_by n

/-- Puts digits behind a number as long as it fits into 64 bits; also tells how many were put. -/
def extend (n : Nat) : List Nat → Nat × Nat
  | [] => (n, 0)
  | d :: ds =>
    if n * 10 + d < UInt64.size then
      let (m, taken) := extend (n * 10 + d) ds
      (m, taken + 1)
    else (n, 0)

/-- Whether a numeral stands for a finite double.  The digits that fit into 64 bits decide. -/
def isFinite (n : Numeral) : Bool :=
  let (lead, dropped) := leading n.whole
  let (digits, taken) := extend lead n.fraction
  let scale : Int := dropped - taken + n.exponent.getD 0
  digits == 0 || scale ≤ 0 ||
    (scale ≤ 308
      && (Double.ofNat digits).mul (Double.ofNat (Nat.pow 10 scale.toNat)) matches .finite ..)

end Numeral

inductive Value where
  | null
  | bool (value : Bool)
  | number (numeral : Numeral)
  | string (text : String)
  | array (items : List Value)
  | object (fields : List (String × Value))
deriving Inhabited

def lookup? (name : String) : List (String × Value) → Option Value
  | [] => none
  | (key, value) :: fields => if key == name then some value else lookup? name fields

theorem sizeOf_lt_of_lookup? {name : String} {fields : List (String × Value)} {value : Value}
    (h : lookup? name fields = some value) : sizeOf value < sizeOf fields := by
  induction fields with
  | nil => simp [lookup?] at h
  | cons field fields ih =>
    obtain ⟨key, first⟩ := field
    simp only [lookup?] at h
    split at h
    · cases h
      simp
      omega
    · have := ih h
      simp
      omega

namespace Value

def text? : Value → Option String
  | .string s => some s
  | _ => none

def items : Value → List Value
  | .array vs => vs
  | _ => []

/-- A name out of a fixed choice, written as a string or as an object of that name and `null`. -/
def choice? : Value → Option String
  | .string s => some s
  | .object [(name, .null)] => some name
  | _ => none

/-- A whole number of 32 bits. -/
def offset? : Value → Option UInt32
  | .number n =>
    match n.natural? with
    | some k => if k < UInt32.size then some (UInt32.ofNat k) else none
    | none => none
  | _ => none

def ofOffset (n : UInt32) : Value :=
  .number (Numeral.ofNat n.toNat)

/-- Whether a value may be a record of some fields: an object, or an array that is not too long. -/
def isRecord (fields : Nat) : Value → Bool
  | .array vs => vs.length ≤ fields
  | .object _ => true
  | _ => false

/-- The field of a record at a place and of a name. -/
def part? (index : Nat) (name : String) : Value → Option Value
  | .array vs => vs[index]?
  | .object fields => lookup? name fields
  | _ => none

theorem sizeOf_lt_of_part? {index : Nat} {name : String} {record value : Value}
    (h : record.part? index name = some value) : sizeOf value < sizeOf record := by
  cases record with
  | array vs =>
    have := List.sizeOf_lt_of_mem (List.mem_of_getElem? h)
    simp
    omega
  | object fields =>
    have := sizeOf_lt_of_lookup? h
    simp
    omega
  | _ => simp [part?] at h

theorem sizeOf_lt_of_mem_items {value item : Value} (h : item ∈ value.items) :
    sizeOf item < sizeOf value := by
  cases value with
  | array vs =>
    have := List.sizeOf_lt_of_mem (show item ∈ vs from h)
    simp
    omega
  | _ => simp [items] at h

end Value

end PropCheck.Json
