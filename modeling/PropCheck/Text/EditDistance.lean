/-!
# Edit distance

How many characters have to be inserted, deleted or replaced to turn one text into another.  It is
computed row by row: the row of a text holds its distances to all the beginnings of the other text.
Only two rows are kept, the last one and the one that is being filled, and they change places after
every character.  A row is read and written only inside its bounds; otherwise there is no answer.

* `Text.fillCell?`, `Text.fillRow?`: one entry of a row, and all its entries one after the other.
* `Text.nextRows?`: the two rows after one more character of the text.
* `Text.editDistance?`: the last entry of the last row.
-/

namespace PropCheck.Text

def write? (row : Array Nat) (index value : Nat) : Option (Array Nat) :=
  if inside : index < row.size then some (row.set index value inside) else none

/-- Fills the entry behind a place from the entries around it: the one above, the one to the left,
and the one above that. -/
def fillCell? (c : Char) (other : Array Char) (above row : Array Nat) (place : Nat) :
    Option (Array Nat) := do
  let d ← other[place]?
  let diagonal ← above[place]?
  let up ← above[place + 1]?
  let left ← row[place]?
  write? row (place + 1) (min (min (up + 1) (left + 1)) (diagonal + if c = d then 0 else 1))

/-- Fills a row for one more character: its first entry is the number of characters so far. -/
def fillRow? (c : Char) (count : Nat) (other : Array Char) (above row : Array Nat) :
    Option (Array Nat) := do
  let row ← write? row 0 count
  (List.range other.size).foldlM (fillCell? c other above) row

/-- Fills the row for the character at a place of the text. -/
def nextRows? (text other : Array Char) (rows : Array Nat × Array Nat) (place : Nat) :
    Option (Array Nat × Array Nat) := do
  let c ← text[place]?
  let row ← fillRow? c (place + 1) other rows.1 rows.2
  -- the row just filled becomes the last one, and the one before it is filled next
  return (row, rows.1)

/-- The rows before the first character: the last one holds the lengths of the beginnings of the
other text. -/
def firstRows (length : Nat) : Array Nat × Array Nat :=
  ((List.range (length + 1)).toArray, Array.replicate (length + 1) 0)

/-- The edit distance of two texts, if all entries that are used are inside their rows. -/
def editDistance? (text other : List Char) : Option Nat :=
  if text.isEmpty then some other.length
  else if other.isEmpty then some text.length
  else do
    let rows ← (List.range text.length).foldlM (nextRows? text.toArray other.toArray)
      (firstRows other.length)
    rows.1[other.length]?

def editDistance (text other : List Char) : Nat :=
  (editDistance? text other).getD 0

end PropCheck.Text
