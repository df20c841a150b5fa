import PropCheck.Source.File

/-!
# Lines and columns are exact

The line of an offset is one more than the number of newlines before it, and its column is one more
than its distance from the start of that line.  The line is found by binary search in the table of
line starts.  The table is increasing and starts with zero, so the search never asks for a line
before the first one.  Two offsets of a text have different positions, in the order of the offsets.

* `Increasing`: a table is strictly increasing.
* `Search.Correct`, `search_correct`: what a binary search in an increasing table tells.
* `lineStarts_increasing`, `mem_startsAfterNewlines_iff`: the table of line starts.
* `IsLine`, `isLine_lineIndex`: the line that an offset is on.
* `LineStart`, `lineStart_of_isLine`: the start of a line, told from the text alone.
* `newlines_and_start`: how lines and their starts change from one offset to a later one.
* `position_exact`: positions are exact and keep the order of offsets.
-/

namespace PropCheck

/-! ### Binary search -/

/-- Later entries of a table are larger. -/
def Increasing (table : Array Nat) : Prop :=
  ∀ i j a b : Nat, i < j → table[i]? = some a → table[j]? = some b → a < b

theorem Increasing.le {table : Array Nat} (h : Increasing table) {i j a b : Nat} (hij : i ≤ j)
    (ha : table[i]? = some a) (hb : table[j]? = some b) : a ≤ b := by
  rcases Nat.lt_or_eq_of_le hij with hlt | rfl
  · exact Nat.le_of_lt (h i j a b hlt ha hb)
  · rw [ha] at hb
    exact Nat.le_of_eq (Option.some.inj hb)

/-- An outcome of a search is right: the value stands where it was found, or the index that is told
parts the smaller entries from the larger ones. -/
def Search.Correct (table : Array Nat) (value : Nat) : Search → Prop
  | .found index => table[index]? = some value
  | .missing index => index ≤ table.size ∧ ∀ k entry, table[k]? = some entry →
      (k < index → entry < value) ∧ (index ≤ k → value < entry)

/-- **A search between two indices is right** if the entries before the first are smaller than the
value and those from the second on are larger. -/
theorem searchBetween_correct {table : Array Nat} (hsorted : Increasing table)
    {value low high : Nat} (inside : high ≤ table.size) (hle : low ≤ high)
    (hbelow : ∀ k entry, k < low → table[k]? = some entry → entry < value)
    (habove : ∀ k entry, high ≤ k → table[k]? = some entry → value < entry) :
    (searchBetween table value low high inside).Correct table value := by
  rw [searchBetween]
  by_cases hordered : low < high
  · rw [dif_pos hordered]
    have hmiddle : (low + high) / 2 < table.size := by omega
    have hread := Array.getElem?_eq_getElem hmiddle
    dsimp only
    generalize hentry : table[(low + high) / 2] = middle at hread ⊢
    by_cases hsmall : middle < value
    · -- the entries up to the middle are too small
      rw [if_pos hsmall]
      refine searchBetween_correct hsorted inside (by omega) (fun k entry hk hentry => ?_) habove
      exact Nat.lt_of_le_of_lt (hsorted.le (Nat.le_of_lt_succ hk) hentry hread) hsmall
    rw [if_neg hsmall]
    by_cases hlarge : value < middle
    · -- the entries from the middle on are too large
      rw [if_pos hlarge]
      refine searchBetween_correct hsorted _ (by omega) hbelow fun k entry hk hentry => ?_
      exact Nat.lt_of_lt_of_le hlarge (hsorted.le hk hread hentry)
    · rw [if_neg hlarge]
      show table[(low + high) / 2]? = some value
      rw [hread]
      exact congrArg some (by omega)
  · rw [dif_neg hordered]
    refine ⟨by omega, fun k entry hentry => ?_⟩
    exact ⟨fun hk => hbelow k entry hk hentry, fun hk => habove k entry (by omega) hentry⟩
termination_by high - low

/-- **Binary search in an increasing table is right.** -/
theorem search_correct {table : Array Nat} (hsorted : Increasing table) (value : Nat) :
    (search table value).Correct table value := by
  refine searchBetween_correct hsorted _ (Nat.zero_le _) (fun k entry hk => ?_) ?_
  · omega
  · intro k entry hk hentry
    obtain ⟨hlt, -⟩ := Array.getElem?_eq_some_iff.mp hentry
    omega

/-! ### The table of line starts -/

/-- The lines after the first one start just after the newlines. -/
theorem mem_startsAfterNewlines_iff {offset start : Nat} {bytes : List UInt8} :
    start ∈ startsAfterNewlines offset bytes
      ↔ ∃ k, bytes[k]? = some 10 ∧ start = offset + k + 1 := by
  induction bytes generalizing offset with
  | nil => simp [startsAfterNewlines]
  | cons b bs ih =>
    have hlater : start ∈ startsAfterNewlines (offset + 1) bs
        ↔ ∃ k, (b :: bs)[k + 1]? = some 10 ∧ start = offset + (k + 1) + 1 := by
      rw [ih]
      simp only [List.getElem?_cons_succ, Nat.add_right_comm, Nat.add_assoc]
    rw [startsAfterNewlines]
    constructor
    · intro h
      split at h
      · rename_i hb
        rcases List.mem_cons.mp h with rfl | h
        · exact ⟨0, congrArg some (eq_of_beq hb), rfl⟩
        · obtain ⟨k, hk⟩ := hlater.mp h
          exact ⟨k + 1, hk⟩
      · obtain ⟨k, hk⟩ := hlater.mp h
        exact ⟨k + 1, hk⟩
    · intro ⟨k, hk, hstart⟩
      cases k with
      | zero =>
        cases hk
        rw [if_pos (beq_self_eq_true _), hstart]
        exact List.mem_cons_self
      | succ k =>
        have hmem := hlater.mpr ⟨k, hk, hstart⟩
        split
        · exact List.mem_cons_of_mem _ hmem
        · exact hmem

theorem pairwise_startsAfterNewlines (offset : Nat) (bytes : List UInt8) :
    (startsAfterNewlines offset bytes).Pairwise (· < ·) := by
  induction bytes generalizing offset with
  | nil => exact List.Pairwise.nil
  | cons b bs ih =>
    rw [startsAfterNewlines]
    split
    · refine List.pairwise_cons.mpr ⟨fun start hstart => ?_, ih (offset + 1)⟩
      obtain ⟨k, -, rfl⟩ := mem_startsAfterNewlines_iff.mp hstart
      omega
    · exact ih (offset + 1)

/-- **The line starts are increasing.** -/
theorem lineStarts_increasing (bytes : List UInt8) : Increasing (lineStarts bytes) := by
  have hsorted : (0 :: startsAfterNewlines 0 bytes).Pairwise (· < ·) := by
    refine List.pairwise_cons.mpr ⟨fun start hstart => ?_, pairwise_startsAfterNewlines 0 bytes⟩
    obtain ⟨k, -, rfl⟩ := mem_startsAfterNewlines_iff.mp hstart
    omega
  intro i j a b hij ha hb
  rw [lineStarts, List.getElem?_toArray] at ha hb
  obtain ⟨hi, rfl⟩ := List.getElem?_eq_some_iff.mp ha
  obtain ⟨hj, rfl⟩ := List.getElem?_eq_some_iff.mp hb
  exact List.pairwise_iff_getElem.mp hsorted i j hi hj hij

/-- As many later lines start up to a place as there are newlines before it. -/
theorem countP_startsAfterNewlines (offset place : Nat) (bytes : List UInt8) :
    (startsAfterNewlines offset bytes).countP (· ≤ offset + place)
      = (bytes.take place).count 10 := by
  induction bytes generalizing offset place with
  | nil => simp [startsAfterNewlines]
  | cons b bs ih =>
    cases place with
    | zero =>
      refine List.countP_eq_zero.mpr fun start hstart => ?_
      obtain ⟨k, -, rfl⟩ := mem_startsAfterNewlines_iff.mp hstart
      simp only [decide_eq_true_eq]
      omega
    | succ place =>
      have hrest := ih (offset + 1) place
      rw [Nat.add_right_comm] at hrest
      rw [startsAfterNewlines, List.take_succ_cons, List.count_cons, ← hrest]
      split
      · rw [List.countP_cons_of_pos (by simp)]
        rfl
      · rfl

/-! ### The line of a place -/

/-- A line starts at or before a place, and all later lines start behind it. -/
structure IsLine (starts : Array Nat) (place line : Nat) : Prop where
  reached : ∃ start, starts[line]? = some start ∧ start ≤ place
  later : ∀ k entry, line < k → starts[k]? = some entry → place < entry

/-- The search never asks for a line before the first. -/
theorem search_ne_missing_zero {starts : Array Nat} (hsorted : Increasing starts)
    (hfirst : starts[0]? = some 0) (place : Nat) : search starts place ≠ .missing 0 := by
  intro hmissing
  have hcorrect := search_correct hsorted place
  rw [hmissing] at hcorrect
  have hlt := (hcorrect.2 0 0 hfirst).2 (Nat.le_refl 0)
  omega

/-- **The line that is found** is the one that a place is on. -/
theorem isLine_lineIndex {starts : Array Nat} (hsorted : Increasing starts)
    (hfirst : starts[0]? = some 0) (place : Nat) :
    IsLine starts place (lineIndex starts place) := by
  have hcorrect := search_correct hsorted place
  have hne := search_ne_missing_zero hsorted hfirst place
  rw [lineIndex]
  split
  · rename_i line hfound
    rw [hfound] at hcorrect
    refine ⟨⟨place, hcorrect, Nat.le_refl place⟩, fun k entry hk hentry => ?_⟩
    exact hsorted _ _ _ _ hk hcorrect hentry
  · rename_i next hmissing
    rw [hmissing] at hcorrect hne
    have hpos : next ≠ 0 := fun hzero => hne (hzero ▸ rfl)
    obtain ⟨hinside, hparts⟩ := hcorrect
    have hlt : next - 1 < starts.size := by omega
    have hread : starts[next - 1]? = some starts[next - 1] := Array.getElem?_eq_getElem hlt
    refine ⟨⟨_, hread, ?_⟩, fun k entry hk hentry => (hparts k entry hentry).2 (by omega)⟩
    exact Nat.le_of_lt ((hparts _ _ hread).1 (by omega))

/-- As many lines start up to a place as there are lines up to the one that it is on. -/
theorem IsLine.countP_eq {starts : List Nat} {place line : Nat}
    (h : IsLine starts.toArray place line) (hsorted : Increasing starts.toArray) :
    starts.countP (· ≤ place) = line + 1 := by
  obtain ⟨start, hread, hle⟩ := h.reached
  have hlength : line < starts.length := (Array.getElem?_eq_some_iff.mp hread).1
  have hreached : (starts.take (line + 1)).countP (· ≤ place) = line + 1 := by
    rw [List.countP_eq_length.mpr, List.length_take_of_le hlength]
    intro entry hentry
    obtain ⟨k, hk⟩ := List.mem_iff_getElem?.mp hentry
    rw [List.getElem?_take] at hk
    split at hk
    · rename_i hlt
      rw [← List.getElem?_toArray] at hk
      exact decide_eq_true (Nat.le_trans (hsorted.le (Nat.le_of_lt_succ hlt) hk hread) hle)
    · cases hk
  have hlater : (starts.drop (line + 1)).countP (· ≤ place) = 0 := by
    refine List.countP_eq_zero.mpr fun entry hentry => ?_
    obtain ⟨k, hk⟩ := List.mem_iff_getElem?.mp hentry
    rw [List.getElem?_drop] at hk
    have := h.later (line + 1 + k) entry (by omega) (by simpa using hk)
    simp only [decide_eq_true_eq]
    omega
  rw [← List.take_append_drop (line + 1) starts, List.countP_append, hreached, hlater]

/-- **The index of a line is the number of newlines before it.** -/
theorem lineIndex_eq_count (bytes : List UInt8) (place : Nat) :
    lineIndex (lineStarts bytes) place = (bytes.take place).count 10 := by
  have hsorted := lineStarts_increasing bytes
  have hline := isLine_lineIndex hsorted rfl place
  have hcount := hline.countP_eq hsorted
  rw [List.countP_cons_of_pos (by simp)] at hcount
  have hnewlines := countP_startsAfterNewlines 0 place bytes
  rw [Nat.zero_add] at hnewlines
  omega

/-- The start of the line of a place: just after the last newline before the place, or the start of
the text if there is none. -/
inductive LineStart (bytes : List UInt8) (place : Nat) : Nat → Prop
  | first : (∀ k < place, bytes[k]? ≠ some 10) → LineStart bytes place 0
  | after {newline : Nat} : newline < place → bytes[newline]? = some 10 →
      (∀ k, newline < k → k < place → bytes[k]? ≠ some 10) → LineStart bytes place (newline + 1)

theorem LineStart.le {bytes : List UInt8} {place start : Nat} (h : LineStart bytes place start) :
    start ≤ place := by
  cases h with
  | first _ => exact Nat.zero_le place
  | after hlt _ _ => exact hlt

theorem LineStart.no_newline {bytes : List UInt8} {place start : Nat}
    (h : LineStart bytes place start) {k : Nat} (hstart : start ≤ k) (hplace : k < place) :
    bytes[k]? ≠ some 10 := by
  cases h with
  | first hnone => exact hnone k hplace
  | after _ _ hnone => exact hnone k hstart hplace

theorem mem_lineStarts_iff {bytes : List UInt8} {start : Nat} :
    (∃ k : Nat, (lineStarts bytes)[k]? = some start)
      ↔ start = 0 ∨ ∃ k, bytes[k]? = some 10 ∧ start = k + 1 := by
  simp only [lineStarts, List.getElem?_toArray, ← List.mem_iff_getElem?, List.mem_cons,
    mem_startsAfterNewlines_iff, Nat.zero_add]

/-- **The line that a place is on starts where the text says.** -/
theorem lineStart_of_isLine {bytes : List UInt8} {place line start : Nat}
    (h : IsLine (lineStarts bytes) place line) (hread : (lineStarts bytes)[line]? = some start) :
    LineStart bytes place start := by
  obtain ⟨start', hread', hle⟩ := h.reached
  cases hread.symm.trans hread'
  -- a newline between the start of the line and the place would start a later line
  have hlast : ∀ k, bytes[k]? = some 10 → k < place → k + 1 ≤ start := by
    intro k hk hlt
    obtain ⟨index, hindex⟩ := mem_lineStarts_iff.mpr (.inr ⟨k, hk, rfl⟩)
    refine Nat.le_of_not_lt fun hbehind => ?_
    have hlater : line < index := by
      refine Nat.lt_of_not_le fun hle => ?_
      have := (lineStarts_increasing bytes).le hle hindex hread
      omega
    have := h.later index _ hlater hindex
    omega
  rcases mem_lineStarts_iff.mp ⟨line, hread⟩ with rfl | ⟨newline, hnewline, rfl⟩
  · exact .first fun k hlt hk => absurd (hlast k hk hlt) (by omega)
  · exact .after hle hnewline fun k hlt hplace hk => absurd (hlast k hk hplace) (by omega)

/-! ### From one place to a later one -/

theorem LineStart.eq_zero_or {bytes : List UInt8} {place start : Nat}
    (h : LineStart bytes place start) :
    start = 0 ∨ ∃ newline, bytes[newline]? = some 10 ∧ start = newline + 1 := by
  cases h with
  | first _ => exact .inl rfl
  | after _ hnewline _ => exact .inr ⟨_, hnewline, rfl⟩

/-- The start of a line is the same for two places with no newline in between. -/
theorem LineStart.start_le {bytes : List UInt8} {place later start start' : Nat}
    (h : LineStart bytes place start) (h' : LineStart bytes later start') (hle : start' ≤ place) :
    start' ≤ start := by
  rcases h'.eq_zero_or with rfl | ⟨newline, hnewline, rfl⟩
  · exact Nat.zero_le start
  · refine Nat.lt_of_not_le fun hbehind => ?_
    exact h.no_newline hbehind hle hnewline

theorem count_take_eq_add {bytes : List UInt8} {place later : Nat} (hle : place ≤ later) :
    (bytes.take later).count 10
      = (bytes.take place).count 10 + ((bytes.drop place).take (later - place)).count 10 := by
  rw [← List.count_append, ← List.take_add, Nat.add_sub_cancel' hle]

theorem mem_take_drop_iff {bytes : List UInt8} {place later : Nat} :
    10 ∈ (bytes.drop place).take (later - place)
      ↔ ∃ k, place ≤ k ∧ k < later ∧ bytes[k]? = some 10 := by
  simp only [List.mem_iff_getElem?, List.getElem?_take, List.getElem?_drop]
  constructor
  · intro ⟨k, hk⟩
    split at hk
    · exact ⟨place + k, by omega, by omega, hk⟩
    · cases hk
  · intro ⟨k, hplace, hlater, hk⟩
    refine ⟨k - place, ?_⟩
    rw [if_pos (by omega), Nat.add_sub_cancel' hplace, hk]

/-- **From one place to a later one** there is a newline and the line changes, or there is none and
the start of the line stays. -/
theorem newlines_and_start {bytes : List UInt8} {place later start start' : Nat}
    (hle : place ≤ later) (h : LineStart bytes place start) (h' : LineStart bytes later start') :
    (bytes.take place).count 10 < (bytes.take later).count 10 ∨
    (bytes.take place).count 10 = (bytes.take later).count 10 ∧ start = start' := by
  rw [count_take_eq_add hle]
  by_cases hbehind : start' ≤ place
  · right
    have hnone : 10 ∉ (bytes.drop place).take (later - place) := by
      intro hmem
      obtain ⟨k, hplace, hlater, hk⟩ := mem_take_drop_iff.mp hmem
      exact h'.no_newline (by omega) hlater hk
    refine ⟨by rw [List.count_eq_zero.mpr hnone]; rfl, ?_⟩
    exact Nat.le_antisymm (h'.start_le h (Nat.le_trans h.le hle)) (h.start_le h' hbehind)
  · left
    have hsome : 10 ∈ (bytes.drop place).take (later - place) := by
      rcases h'.eq_zero_or with rfl | ⟨newline, hnewline, rfl⟩
      · omega
      · exact mem_take_drop_iff.mpr ⟨newline, by omega, h'.le, hnewline⟩
    have := List.count_pos_iff.mpr hsome
    omega

/-! ### Positions -/

/-- The position of an offset: its line is told by the newlines before it, and its column by the
start of its line. -/
theorem exists_position_eq (file : SourceFile) (offset : UInt32) :
    let bytes := bytesOf file.text
    let place := min offset.toNat bytes.length
    ∃ start, (lineStarts bytes)[lineIndex (lineStarts bytes) place]? = some start ∧
      LineStart bytes place start ∧
      file.position offset = ⟨1 + (bytes.take place).count 10, 1 + (place - start)⟩ := by
  intro bytes place
  have hline := isLine_lineIndex (lineStarts_increasing bytes) rfl place
  obtain ⟨start, hread, -⟩ := hline.reached
  refine ⟨start, hread, lineStart_of_isLine hline hread, ?_⟩
  show Position.mk (lineIndex (lineStarts bytes) place + 1)
    (place - (lineStarts bytes).getD (lineIndex (lineStarts bytes) place) 0 + 1) = _
  rw [Array.getD_eq_getD_getElem?, hread, Option.getD_some, lineIndex_eq_count, Nat.add_comm 1,
    Nat.add_comm 1]

/-- **Later offsets have later positions**, by line first and then by column. -/
theorem position_lt (file : SourceFile) {first second : UInt32} (hlt : first < second)
    (hle : second.toNat ≤ (bytesOf file.text).length) :
    Prod.Lex (· < ·) (· < ·) ((file.position first).line, (file.position first).column)
      ((file.position second).line, (file.position second).column) := by
  have hlt' : first.toNat < second.toNat := hlt
  obtain ⟨start, -, hstart, hfirst⟩ := exists_position_eq file first
  obtain ⟨start', -, hstart', hsecond⟩ := exists_position_eq file second
  rw [Nat.min_eq_left (by omega)] at hstart hfirst
  rw [Nat.min_eq_left hle] at hstart' hsecond
  rw [hfirst, hsecond]
  rcases newlines_and_start (Nat.le_of_lt hlt') hstart hstart' with hnewline | ⟨hsame, rfl⟩
  · exact .left _ _ (Nat.add_lt_add_left hnewline 1)
  · have := hstart.le
    rw [hsame]
    exact .right _ (show 1 + (first.toNat - start) < 1 + (second.toNat - start) by omega)

/-- Different offsets of a text have different positions. -/
theorem position_injective (file : SourceFile) {first second : UInt32}
    (hfirst : first.toNat ≤ (bytesOf file.text).length)
    (hsecond : second.toNat ≤ (bytesOf file.text).length)
    (heq : file.position first = file.position second) : first = second := by
  -- of two different offsets one comes first, but no position comes before itself
  rcases Nat.lt_trichotomy first.toNat second.toNat with hlt | hsame | hlt
  · have hlex := Prod.lex_def.mp (position_lt file hlt hsecond)
    rw [heq] at hlex
    omega
  · exact UInt32.toNat_inj.mp hsame
  · have hlex := Prod.lex_def.mp (position_lt file hlt hfirst)
    rw [heq] at hlex
    omega

/-- **Positions are exact.** In a text whose length is below the largest offset, the line of an
offset is one more than the number of newlines before it and the column one more than its distance
from the start of that line; an offset behind the end counts as the end.  The search for the line
does not fall before the first one, what is read is an entry of the table and not larger than the
offset, and both numbers fit into 32 bits.  So different offsets of the text have different
positions, and later ones later positions, by line first and then by column. -/
theorem position_exact (file : SourceFile)
    (hshort : (bytesOf file.text).length < UInt32.size - 1) :
    (∀ offset : UInt32,
      let bytes := bytesOf file.text
      let place := min offset.toNat bytes.length
      ∃ start, LineStart bytes place start ∧
        file.position offset = ⟨1 + (bytes.take place).count 10, 1 + (place - start)⟩ ∧
        search (lineStarts bytes) place ≠ .missing 0 ∧
        (lineStarts bytes)[lineIndex (lineStarts bytes) place]? = some start ∧ start ≤ place ∧
        (file.position offset).line < UInt32.size ∧
        (file.position offset).column < UInt32.size) ∧
    (∀ first second : UInt32, first.toNat ≤ (bytesOf file.text).length →
      second.toNat ≤ (bytesOf file.text).length →
      file.position first = file.position second → first = second) ∧
    ∀ first second : UInt32, first < second → second.toNat ≤ (bytesOf file.text).length →
      Prod.Lex (· < ·) (· < ·) ((file.position first).line, (file.position first).column)
        ((file.position second).line, (file.position second).column) := by
  refine ⟨fun offset => ?_, fun first second hfirst hsecond heq => ?_,
    fun first second hlt hle => position_lt file hlt hle⟩
  · intro bytes place
    obtain ⟨start, hread, hstart, hposition⟩ := exists_position_eq file offset
    have hsearch := search_ne_missing_zero (lineStarts_increasing bytes) rfl place
    have hbytes : bytes.length < UInt32.size - 1 := hshort
    have hcount : (bytes.take place).count 10 ≤ bytes.length :=
      Nat.le_trans List.count_le_length (List.length_take_le' place bytes)
    have hplace : place ≤ bytes.length := Nat.min_le_right _ _
    refine ⟨start, hstart, hposition, hsearch, hread, hstart.le, ?_, ?_⟩
    · rw [hposition]
      show 1 + (bytes.take place).count 10 < UInt32.size
      omega
    · rw [hposition]
      show 1 + (place - start) < UInt32.size
      omega
  · exact position_injective file hfirst hsecond heq

/-- A text with an empty line, and an offset behind its end. -/
theorem position_exact_empty_line :
    let file : SourceFile := ⟨"A.svelte", "ab\ncd\n\nef"⟩
    (bytesOf file.text).length < UInt32.size - 1 ∧ file.position 100 = ⟨4, 3⟩ ∧
    (∃ start, LineStart (bytesOf file.text) 9 start ∧
      file.position 100 = ⟨1 + ((bytesOf file.text).take 9).count 10, 1 + (9 - start)⟩) ∧
    Prod.Lex (· < ·) (· < ·) ((file.position 5).line, (file.position 5).column)
      ((file.position 6).line, (file.position 6).column) := by
  intro file
  have hshort : (bytesOf file.text).length < UInt32.size - 1 := by decide
  have hexact := position_exact file hshort
  obtain ⟨start, hstart, hposition, -⟩ := hexact.1 100
  exact ⟨hshort, by decide +kernel, ⟨start, hstart, hposition⟩,
    hexact.2.2 5 6 (by decide) (by decide)⟩

end PropCheck
