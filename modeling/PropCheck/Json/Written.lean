import PropCheck.Json.Value

/-!
# JSON texts

A JSON text is first taken as it is written.  This keeps fields that are given twice, and strings
and numbers that have no value: what is wrong with them only matters where they are read.

* `Written`: a JSON text by its structure.
* `Written.parse?`: the structure of a text that is well formed.
* `Written.value?`: the value of a text, if it has one and is not nested too deeply.
* `Written.isRecord`, `Written.part?`: a record and its fields.
-/

namespace PropCheck.Json

/-- A JSON text.  A string has no text if half of a surrogate pair stands alone in it. -/
inductive Written where
  | null
  | bool (value : Bool)
  | number (numeral : Numeral)
  | string (text : Option String)
  | array (items : List Written)
  | object (fields : List (Option String × Written))
deriving Inhabited

/-! ### Strings -/

/-- A piece of a string: a character, or a unit that is written by its number. -/
inductive Piece where
  | char (c : Char)
  | unit (n : Nat)

/-- Whether a unit is the first half of a pair. -/
def isHighHalf (n : Nat) : Bool :=
  0xD800 ≤ n && n < 0xDC00

/-- Whether a unit is the second half of a pair. -/
def isLowHalf (n : Nat) : Bool :=
  0xDC00 ≤ n && n < 0xE000

/-- The characters that pieces stand for, if no half of a pair stands alone. -/
def characters? : List Piece → Option (List Char)
  | [] => some []
  | .char c :: ps => (characters? ps).map (c :: ·)
  | .unit n :: .unit m :: ps =>
    if isHighHalf n then
      if isLowHalf m then
        (characters? ps).map (Char.ofNat ((n - 0xD800) * 0x400 + (m - 0xDC00) + 0x10000) :: ·)
      else none
    else if isLowHalf n then none
    else (characters? (.unit m :: ps)).map (Char.ofNat n :: ·)
  | .unit n :: ps =>
    if isHighHalf n || isLowHalf n then none else (characters? ps).map (Char.ofNat n :: ·)

def hexDigit? (c : Char) : Option Nat :=
  if '0' ≤ c && c ≤ '9' then some (c.toNat - 48)
  else if 'a' ≤ c && c ≤ 'f' then some (c.toNat - 87)
  else if 'A' ≤ c && c ≤ 'F' then some (c.toNat - 55)
  else none

def hex4? (a b c d : Char) : Option Nat := do
  return (((← hexDigit? a) * 16 + (← hexDigit? b)) * 16 + (← hexDigit? c)) * 16 + (← hexDigit? d)

/-- The character that a letter after a backslash stands for. -/
def escape? : Char → Option Char
  | '\x22' => some '\x22'
  | '\\' => some '\\'
  | '/' => some '/'
  | 'b' => some '\x08'
  | 'f' => some '\x0c'
  | 'n' => some '\n'
  | 'r' => some '\r'
  | 't' => some '\t'
  | _ => none

/-- The pieces of a string up to its closing quote, and what follows. -/
def pieces? : List Char → Option (List Piece × List Char)
  | [] => none
  | '\x22' :: cs => some ([], cs)
  | '\\' :: 'u' :: a :: b :: c :: d :: cs => do
    let n ← hex4? a b c d
    let (ps, rest) ← pieces? cs
    return (.unit n :: ps, rest)
  | '\\' :: c :: cs => do
    let e ← escape? c
    let (ps, rest) ← pieces? cs
    return (.char e :: ps, rest)
  | c :: cs =>
    if c.toNat < 0x20 || c == '\\' then none
    else do
      let (ps, rest) ← pieces? cs
      return (.char c :: ps, rest)

/-- The text of a string after its opening quote, and what follows. -/
def string? (cs : List Char) : Option (Option String × List Char) := do
  let (ps, rest) ← pieces? cs
  return ((characters? ps).map String.ofList, rest)

/-! ### Numbers -/

def digits (cs : List Char) : List Nat × List Char :=
  ((cs.takeWhile Char.isDigit).map (·.toNat - 48), cs.dropWhile Char.isDigit)

def ofDigits (ds : List Nat) : Nat :=
  ds.foldl (· * 10 + ·) 0

def digits? (cs : List Char) : Option (List Nat × List Char) :=
  match digits cs with
  | ([], _) => none
  | some_digits => some some_digits

/-- The whole part of a number: it starts with a zero only if that is all of it. -/
def whole? : List Char → Option (Nat × List Char)
  | '0' :: cs => some (0, cs)
  | cs => (digits? cs).map fun (ds, rest) => (ofDigits ds, rest)

/-- The fraction of a number, if it has one. -/
def fraction? : List Char → Option (List Nat × List Char)
  | '.' :: cs => digits? cs
  | cs => some ([], cs)

/-- The digits of an exponent after its sign. -/
def signed? (sign : Int) (cs : List Char) : Option (Option Int × List Char) :=
  (digits? cs).map fun (ds, rest) => (some (sign * ofDigits ds), rest)

/-- The exponent of a number, if it has one. -/
def exponent? : List Char → Option (Option Int × List Char)
  | 'e' :: '+' :: cs | 'E' :: '+' :: cs => signed? 1 cs
  | 'e' :: '-' :: cs | 'E' :: '-' :: cs => signed? (-1) cs
  | 'e' :: cs | 'E' :: cs => signed? 1 cs
  | cs => some (none, cs)

/-- A number after its sign. -/
def numeral? (negative : Bool) (cs : List Char) : Option (Written × List Char) := do
  let (whole, cs) ← whole? cs
  let (fraction, cs) ← fraction? cs
  let (exponent, cs) ← exponent? cs
  return (.number ⟨negative, whole, fraction, exponent⟩, cs)

/-! ### Values -/

def skipBlanks (cs : List Char) : List Char :=
  cs.dropWhile fun c => c == ' ' || c == '\n' || c == '\t' || c == '\r'

mutual

/-- A value at the start, with the blanks before it. -/
def value? : Nat → List Char → Option (Written × List Char)
  | 0, _ => none
  | fuel + 1, cs =>
    match skipBlanks cs with
    | 'n' :: 'u' :: 'l' :: 'l' :: cs => some (.null, cs)
    | 't' :: 'r' :: 'u' :: 'e' :: cs => some (.bool true, cs)
    | 'f' :: 'a' :: 'l' :: 's' :: 'e' :: cs => some (.bool false, cs)
    | '\x22' :: cs => (string? cs).map fun (s, rest) => (.string s, rest)
    | '-' :: cs => numeral? true cs
    | '[' :: cs =>
      match skipBlanks cs with
      | ']' :: cs => some (.array [], cs)
      | cs => (items? fuel cs).map fun (items, rest) => (.array items, rest)
    | '{' :: cs =>
      match skipBlanks cs with
      | '}' :: cs => some (.object [], cs)
      | cs => (fields? fuel cs).map fun (fields, rest) => (.object fields, rest)
    | cs => numeral? false cs

def items? : Nat → List Char → Option (List Written × List Char)
  | 0, _ => none
  | fuel + 1, cs => do
    let (item, cs) ← value? fuel cs
    match skipBlanks cs with
    | ']' :: cs => return ([item], cs)
    | ',' :: cs =>
      let (items, cs) ← items? fuel cs
      return (item :: items, cs)
    | _ => none

def fields? : Nat → List Char → Option (List (Option String × Written) × List Char)
  | 0, _ => none
  | fuel + 1, cs =>
    match skipBlanks cs with
    | '\x22' :: cs => do
      let (key, cs) ← string? cs
      match skipBlanks cs with
      | ':' :: cs =>
        let (value, cs) ← value? fuel cs
        match skipBlanks cs with
        | '}' :: cs => return ([(key, value)], cs)
        | ',' :: cs =>
          let (fields, cs) ← fields? fuel cs
          return ((key, value) :: fields, cs)
        | _ => none
      | _ => none
    | _ => none

end

namespace Written

/-- The structure of a text that holds one JSON value and nothing else. -/
def parse? (text : String) : Option Written := do
  let cs := text.toList
  -- every two steps of reading use up a character
  let (written, rest) ← value? (2 * cs.length + 2) cs
  if (skipBlanks rest).isEmpty then some written else none

/-! ### Reading -/

/-- Puts a field in front of others, unless its name comes again: the last of a name counts. -/
def addField (name : String) (value : Value) (fields : List (String × Value)) :
    List (String × Value) :=
  if (lookup? name fields).isSome then fields else (name, value) :: fields

mutual

/-- The value of what is written, nested to at most a depth. -/
def value? (depth : Nat) : Written → Option Value
  | .null => some .null
  | .bool b => some (.bool b)
  | .number n => if n.isFinite then some (.number n) else none
  | .string s => s.map .string
  | .array items => if depth = 0 then none else (values? (depth - 1) items).map .array
  | .object fields => if depth = 0 then none else (fieldValues? (depth - 1) fields).map .object

def values? (depth : Nat) : List Written → Option (List Value)
  | [] => some []
  | w :: ws => do return (← value? depth w) :: (← values? depth ws)

def fieldValues? (depth : Nat) : List (Option String × Written) → Option (List (String × Value))
  | [] => some []
  | (key, w) :: fields => do
    return addField (← key) (← value? depth w) (← fieldValues? depth fields)

end

/-- The values of an optional field. -/
def optional? (depth : Nat) : Option Written → Option (Option Value)
  | none => some none
  | some w => (w.value? depth).map some

/-- Whether a text is a record of some fields: an object in which every key can be read and no field
is given twice, or an array that is not too long. -/
def isRecord (names : List String) : Written → Bool
  | .array items => items.length ≤ names.length
  | .object fields =>
    fields.all (·.1.isSome) && names.all fun name => (fields.filter (·.1 == some name)).length ≤ 1
  | _ => false

/-- The field of a record at a place and of a name. -/
def part? (index : Nat) (name : String) : Written → Option Written
  | .array items => items[index]?
  | .object fields => (fields.find? (·.1 == some name)).map (·.2)
  | _ => none

def parts? (names : List String) (w : Written) : Option (List (Option Written)) :=
  if w.isRecord names then some (names.mapIdx fun i name => w.part? i name) else none

def choice? : Written → Option String
  | .string s => s
  | .object [(name, .null)] => name
  | _ => none

def offset? : Written → Option UInt32
  | .number n => (Value.number n).offset?
  | _ => none

def text? : Written → Option String
  | .string s => s
  | _ => none

/-- A flag that may be `null`. -/
def flag? : Written → Option (Option Bool)
  | .null => some none
  | .bool b => some (some b)
  | _ => none

end Written

end PropCheck.Json
