import PropCheck.Proofs.Edits
import PropCheck.Text.EditDistance

/-!
# The two rows hold edit distances

While a row is being filled, its entries up to some place are distances of the text that ends with
the new character; what stands behind that place is left over from two characters before and is
never read.  The last row holds the distances of the text without the new character.

* `Text.RowUpTo`: the entries of a row up to a place are the distances of a text.
* `Text.fillCell?_rowUpTo`, `Text.fillRow?_rowUpTo`: one entry more, and a whole row.
* `Text.nextRows?_rowUpTo`, `Text.foldlM_nextRows?`: one character more, and a whole text.
* `Text.editDistance?_eq`: the last entry of the last row is the distance, and no entry that is used
  is outside its row.
* `Text.editDistance_exact`: the laws of the edit distance.
-/

namespace PropCheck.Text

/-- A row has an entry for each beginning of a text, and those up to some place are the distances of
another text. -/
structure RowUpTo (text other : List Char) (row : Array Nat) (place : Nat) : Prop where
  size : row.size = other.length + 1
  entry : ∀ j ≤ place, row[j]? = some (levenshtein text (other.take j))

section

variable {text other : List Char} {row : Array Nat}

theorem write?_eq {index : Nat} (h : index < row.size) (value : Nat) :
    write? row index value = some (row.set index value h) := by
  rw [write?, dif_pos h]

/-- The first entry is the number of characters. -/
theorem write?_zero (text : List Char) (hsize : row.size = other.length + 1) :
    ∃ filled, write? row 0 text.length = some filled ∧ RowUpTo text other filled 0 := by
  refine ⟨_, write?_eq (by omega) _, by simpa using hsize, ?_⟩
  intro j hj
  obtain rfl : j = 0 := by omega
  simp [levenshtein_nil_right]

/-- The entry behind those that are distances. -/
theorem RowUpTo.set {place : Nat} (h : RowUpTo text other row place)
    (hplace : place < other.length) :
    ∃ filled, write? row (place + 1) (levenshtein text (other.take (place + 1))) = some filled ∧
      RowUpTo text other filled (place + 1) := by
  have hsize := h.size
  have hinside : place + 1 < row.size := by omega
  refine ⟨_, write?_eq hinside _, by simpa using hsize, ?_⟩
  intro j hj
  by_cases heq : j = place + 1
  · subst heq
    simp
  · rw [Array.getElem?_set_ne hinside (Ne.symm heq)]
    exact h.entry j (by omega)

end

/-! ### One row -/

section

variable {passed other : List Char} {c : Char} {above row : Array Nat}

/-- **One entry more.**  The three entries around it are distances already. -/
theorem fillCell?_rowUpTo {place : Nat} (habove : RowUpTo passed other above other.length)
    (hrow : RowUpTo (passed ++ [c]) other row place) (hplace : place < other.length) :
    ∃ filled, fillCell? c other.toArray above row place = some filled ∧
      RowUpTo (passed ++ [c]) other filled (place + 1) := by
  obtain ⟨filled, hfilled, hnext⟩ := hrow.set hplace
  refine ⟨filled, ?_, hnext⟩
  have htake : other.take (place + 1) = other.take place ++ [other[place]] :=
    List.take_succ_eq_append_getElem hplace
  have hdistance := levenshtein_concat passed (other.take place) c other[place]
  rw [← htake] at hdistance
  simp only [fillCell?, List.getElem?_toArray, List.getElem?_eq_getElem hplace,
    habove.entry place (by omega), habove.entry (place + 1) (by omega),
    hrow.entry place (Nat.le_refl _), Option.bind_eq_bind, Option.bind_some]
  rw [← hdistance, hfilled]

theorem foldlM_fillCell? {place : Nat} (habove : RowUpTo passed other above other.length)
    (hrow : RowUpTo (passed ++ [c]) other row 0) (hplace : place ≤ other.length) :
    ∃ filled, (List.range place).foldlM (fillCell? c other.toArray above) row = some filled ∧
      RowUpTo (passed ++ [c]) other filled place := by
  induction place with
  | zero => exact ⟨row, rfl, hrow⟩
  | succ place ih =>
    obtain ⟨before, hbefore, hupTo⟩ := ih (by omega)
    obtain ⟨filled, hfilled, hnext⟩ := fillCell?_rowUpTo habove hupTo hplace
    refine ⟨filled, ?_, hnext⟩
    rw [List.range_succ, List.foldlM_append, hbefore]
    simp [hfilled]

/-- **A whole row.**  It does not matter what the row held before. -/
theorem fillRow?_rowUpTo (c : Char) (habove : RowUpTo passed other above other.length)
    (hsize : row.size = other.length + 1) :
    ∃ filled, fillRow? c (passed.length + 1) other.toArray above row = some filled ∧
      RowUpTo (passed ++ [c]) other filled other.length := by
  obtain ⟨first, hfirst, hzero⟩ := write?_zero (passed ++ [c]) hsize
  obtain ⟨filled, hfilled, hall⟩ := foldlM_fillCell? habove hzero (Nat.le_refl _)
  refine ⟨filled, ?_, hall⟩
  rw [List.length_append, List.length_singleton] at hfirst
  rw [fillRow?, hfirst]
  exact hfilled

end

/-! ### All rows -/

variable {text other : List Char}

/-- The two rows after some characters: the last one holds the distances of these characters, and
the other one is free to be filled. -/
def RowsAfter (text other : List Char) (rows : Array Nat × Array Nat) : Prop :=
  RowUpTo text other rows.1 other.length ∧ rows.2.size = other.length + 1

theorem rowsAfter_firstRows (other : List Char) : RowsAfter [] other (firstRows other.length) := by
  refine ⟨⟨by simp [firstRows], ?_⟩, by simp [firstRows]⟩
  intro j hj
  have hlength : (other.take j).length = j := by
    rw [List.length_take]
    omega
  have hinside : j < other.length + 1 := by omega
  rw [levenshtein, hlength]
  simp [firstRows, hinside]

/-- **One character more.** -/
theorem nextRows?_rowsAfter {place : Nat} {rows : Array Nat × Array Nat}
    (h : RowsAfter (text.take place) other rows) (hplace : place < text.length) :
    ∃ next, nextRows? text.toArray other.toArray rows place = some next ∧
      RowsAfter (text.take (place + 1)) other next := by
  obtain ⟨habove, hsize⟩ := h
  have htake : text.take (place + 1) = text.take place ++ [text[place]] :=
    List.take_succ_eq_append_getElem hplace
  have hlength : (text.take place).length = place := by
    rw [List.length_take]
    omega
  obtain ⟨filled, hfilled, hrow⟩ := fillRow?_rowUpTo text[place] habove hsize
  rw [hlength] at hfilled
  refine ⟨(filled, rows.1), ?_, htake ▸ hrow, habove.size⟩
  simp [nextRows?, List.getElem?_eq_getElem hplace, hfilled]

theorem foldlM_nextRows? (text other : List Char) {place : Nat} (hplace : place ≤ text.length) :
    ∃ rows, (List.range place).foldlM (nextRows? text.toArray other.toArray)
        (firstRows other.length) = some rows ∧
      RowsAfter (text.take place) other rows := by
  induction place with
  | zero => exact ⟨firstRows other.length, rfl, rowsAfter_firstRows other⟩
  | succ place ih =>
    obtain ⟨before, hbefore, hafter⟩ := ih (by omega)
    obtain ⟨rows, hrows, hnext⟩ := nextRows?_rowsAfter hafter hplace
    refine ⟨rows, ?_, hnext⟩
    rw [List.range_succ, List.foldlM_append, hbefore]
    simp [hrows]

/-- **The last entry of the last row is the distance**, and it can be read. -/
theorem editDistance?_eq (text other : List Char) :
    editDistance? text other = some (levenshtein text other) := by
  unfold editDistance?
  split
  · rename_i hempty
    rw [List.isEmpty_iff.mp hempty, levenshtein]
  · split
    · rename_i hempty
      rw [List.isEmpty_iff.mp hempty, levenshtein_nil_right]
    · obtain ⟨rows, hrows, hlast, -⟩ := foldlM_nextRows? text other (Nat.le_refl text.length)
      have hentry := hlast.entry other.length (Nat.le_refl _)
      rw [List.take_length, List.take_length] at hentry
      simp only [hrows, Option.bind_eq_bind, Option.bind_some, hentry]

theorem editDistance_eq_levenshtein (text other : List Char) :
    editDistance text other = levenshtein text other := by
  rw [editDistance, editDistance?_eq, Option.getD_some]

/-- **The edit distance is exact.**  All entries that are used are inside their rows, and the last
one of them is the distance by recursion on the first characters.  It is symmetric, zero between
equal texts only, and at least the difference of the lengths. -/
theorem editDistance_exact (a b : String) :
    editDistance? a.toList b.toList = some (editDistance a.toList b.toList) ∧
    editDistance a.toList b.toList = levenshtein a.toList b.toList ∧
    editDistance a.toList b.toList = editDistance b.toList a.toList ∧
    (editDistance a.toList b.toList = 0 ↔ a = b) ∧
    a.length - b.length ≤ editDistance a.toList b.toList ∧
    b.length - a.length ≤ editDistance a.toList b.toList := by
  have hlength := (edits_levenshtein a.toList b.toList).length_le
  rw [String.length_toList, String.length_toList] at hlength
  rw [editDistance_eq_levenshtein, editDistance_eq_levenshtein b.toList]
  refine ⟨editDistance?_eq _ _, rfl, levenshtein_comm _ _, ?_, by omega, by omega⟩
  rw [levenshtein_eq_zero_iff, String.toList_inj]

example : editDistance "kitten".toList "sitting".toList = 3 := by decide

end PropCheck.Text
