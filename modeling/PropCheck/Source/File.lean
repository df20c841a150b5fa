/-!
# Source files

A source file is a text with a name.  Places in it are told by byte offsets and shown as lines and
columns, both counted from one.

* `SourceFile`: a named text.
* `lineStarts`: the table of the offsets at which lines start.
* `search`: binary search in a table.
* `SourceFile.position`: the line and column of an offset.
* `templateName`: the template that a script file was made from.
-/

namespace PropCheck

/-- A text with a name. -/
structure SourceFile where
  name : String
  text : String
deriving DecidableEq, Repr, Inhabited

/-- A place in a text: line and column, counted from one; columns are bytes. -/
structure Position where
  line : Nat
  column : Nat
deriving DecidableEq, Repr, Inhabited

def bytesOf (text : String) : List UInt8 :=
  text.toUTF8.data.toList

/-- The offsets just after the newlines, counted from an offset on. -/
def startsAfterNewlines (offset : Nat) : List UInt8 → List Nat
  | [] => []
  | b :: bs =>
    if b == 10 then (offset + 1) :: startsAfterNewlines (offset + 1) bs
    else startsAfterNewlines (offset + 1) bs

/-- The offsets at which the lines start; the first line starts with the text. -/
def lineStarts (bytes : List UInt8) : Array Nat :=
  (0 :: startsAfterNewlines 0 bytes).toArray

/-- The outcome of a search in a sorted table: the index of a value, or the index at which it would
have to be put. -/
inductive Search where
  | found (index : Nat)
  | missing (index : Nat)
deriving DecidableEq, Repr

/-- Searches a sorted table from one index up to another; each step leaves half of the entries. -/
def searchBetween (table : Array Nat) (value low high : Nat) (inside : high ≤ table.size) :
    Search :=
  if ordered : low < high then
    let middle := (low + high) / 2
    have : middle < table.size := by omega
    if table[middle] < value then searchBetween table value (middle + 1) high inside
    else if value < table[middle] then searchBetween table value low middle (by omega)
    else .found middle
  else .missing low
termination_by high - low

def search (table : Array Nat) (value : Nat) : Search :=
  searchBetween table value 0 table.size (Nat.le_refl _)

/-- The index of the line of an offset: the one that starts there, or else the one before the first
that starts later. -/
def lineIndex (starts : Array Nat) (offset : Nat) : Nat :=
  match search starts offset with
  | .found line => line
  | .missing next => next - 1

namespace SourceFile

/-- The line and column of an offset; an offset behind the end counts as the end. -/
def position (file : SourceFile) (offset : UInt32) : Position :=
  let bytes := bytesOf file.text
  let starts := lineStarts bytes
  let place := min offset.toNat bytes.length
  let line := lineIndex starts place
  ⟨line + 1, place - starts.getD line 0 + 1⟩

end SourceFile

/-! ### Names of files -/

/-- What stands before an ending. -/
def dropEnding? (ending text : List Char) : Option (List Char) :=
  if ending.isSuffixOf text then some (text.take (text.length - ending.length)) else none

/-- The template behind a script file with an ending: its name ends in `.svelte` and is one line. -/
def templateBefore? (file : List Char) (ending : String) : Option (List Char) :=
  match dropEnding? ending.toList file with
  | some stem =>
    if ".svelte".toList.isSuffixOf stem && !stem.contains '\n' then some stem else none
  | none => none

/-- The template that a script file was made from; a file of another form is its own template. -/
def templateName (file : String) : String :=
  match [".d.ts", ".ts", ".js"].findSome? (templateBefore? file.toList) with
  | some stem => String.ofList stem
  | none => file

end PropCheck
