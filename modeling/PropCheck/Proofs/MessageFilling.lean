import Mathlib.Data.List.Basic
import PropCheck.Diagnostic.Basic

/-!
# When arguments are put into a message as they are

The arguments of a message are put in one after the other.  So the mark of a later argument is also
found in an earlier one, or where an earlier one and the text around it make it up together.  Apart
from this, it is as if all arguments were put in at once.

* `Text.Piece`, `Text.pieces`: a wording as characters and places.
* `Text.substitute`: a wording with all arguments put in at once.
* `Text.Straddles`, `Text.replaceAll_flatMap`: replacing in a text and in the parts of it.
* `Text.Guarded`: no mark comes about when arguments are put in.
* `Text.replaceAll_afterFilling`, `Text.fillFrom_afterFilling`: one argument more, and all of them.
* `Text.replaceAll_eq_self_iff`: when replacing changes nothing.
* `Text.fill_wording`: what two arguments make of a message of the checker.
* `Text.arguments_verbatim`: when arguments are put in as they are.
-/

namespace PropCheck.Text

/-! ### Wordings as characters and places -/

/-- A piece of a wording: a character, or the place of an argument. -/
inductive Piece where
  | letter (c : Char)
  | argument (index : Nat)
deriving DecidableEq, Repr

/-- The place whose mark a text starts with, out of so many. -/
def placeAt? (count : Nat) (text : List Char) : Option Nat :=
  (List.range count).find? fun index => (place index).isPrefixOf text

/-- The pieces of a wording for so many arguments. -/
def pieces (count : Nat) (text : List Char) : List Piece :=
  match text with
  | [] => []
  | c :: cs =>
    match placeAt? count (c :: cs) with
    | some index => .argument index :: pieces count (cs.drop ((place index).length - 1))
    | none => .letter c :: pieces count cs
termination_by text.length

/-- The text of a piece: a character stays, and the argument stands in its place. -/
def Piece.filled (arguments : List String) : Piece → List Char
  | letter c => [c]
  | argument index => (arguments.getD index "").toList

/-- A wording with all arguments put in at once. -/
def substitute (wording : String) (arguments : List String) : String :=
  String.ofList ((pieces arguments.length wording.toList).flatMap (Piece.filled arguments))

/-! ### Marks -/

theorem isDigit_of_mem_digits {n : Nat} {c : Char} (h : c ∈ (toString n).toList) :
    c.isDigit = true := by
  change c ∈ n.repr.toList at h
  rw [Nat.toList_repr] at h
  exact Nat.isDigit_of_mem_toDigits (by decide) (by decide) h

theorem digits_injective {m n : Nat} (h : (toString m).toList = (toString n).toList) : m = n := by
  change m.repr.toList = n.repr.toList at h
  rw [Nat.toList_repr, Nat.toList_repr] at h
  calc m
    _ = Nat.ofDigitChars 10 (Nat.toDigits 10 m) 0 :=
      (Nat.ofDigitChars_toDigits (by decide) (by decide)).symm
    _ = Nat.ofDigitChars 10 (Nat.toDigits 10 n) 0 := by rw [h]
    _ = n := Nat.ofDigitChars_toDigits (by decide) (by decide)

/-- Behind its opening brace, a mark has no other one. -/
theorem opening_not_mem (n : Nat) : '{' ∉ (toString n).toList ++ ['}'] := by
  simp only [List.mem_append, List.mem_singleton, not_or]
  refine ⟨fun h => ?_, by decide⟩
  exact absurd (isDigit_of_mem_digits h) (by decide)

/-- The digits of a mark end with its closing brace. -/
theorem takeWhile_digits (n : Nat) (rest : List Char) :
    ((toString n).toList ++ '}' :: rest).takeWhile Char.isDigit = (toString n).toList := by
  rw [List.takeWhile_append_of_pos fun _ h => isDigit_of_mem_digits h,
    List.takeWhile_cons_of_neg (by decide), List.append_nil]

/-- **A text starts with the mark of one place only.** -/
theorem eq_of_place_isPrefix {m n : Nat} {rest : List Char} (h : place m <+: place n ++ rest) :
    m = n := by
  obtain ⟨behind, hbehind⟩ := h
  have htail : (toString m).toList ++ '}' :: behind = (toString n).toList ++ '}' :: rest := by
    simpa [place] using hbehind
  apply digits_injective
  rw [← takeWhile_digits m behind, htail, takeWhile_digits]

/-- What ends a mark and starts with an opening brace is the whole mark. -/
theorem eq_place_of_isSuffix {n : Nat} {start : List Char} (h : '{' :: start <:+ place n) :
    '{' :: start = place n := by
  rcases List.suffix_cons_iff.mp h with heq | hsuffix
  · exact heq
  · exact absurd (hsuffix.subset List.mem_cons_self) (opening_not_mem n)

theorem place_ne_nil (n : Nat) : place n ≠ [] :=
  List.cons_ne_nil _ _

theorem eq_of_place_isInfix {m n : Nat} (h : place m <:+: place n) : m = n := by
  obtain ⟨suffix, hprefix, hsuffix⟩ := List.infix_iff_prefix_suffix.mp h
  obtain ⟨behind, rfl⟩ := hprefix
  have hwhole := eq_place_of_isSuffix hsuffix
  have hprefix : place m <+: place n ++ [] := by
    rw [List.append_nil]
    exact ⟨behind, hwhole⟩
  exact eq_of_place_isPrefix hprefix

/-! ### Replacing in a text and in its parts -/

/-- A pattern starts in a text and ends in what is behind it. -/
def Straddles (pattern text behind : List Char) : Prop :=
  ∃ start, start <:+ text ∧ start ≠ [] ∧ pattern <+: start ++ behind ∧ ¬ pattern <+: start

section

variable {pattern value text behind : List Char}

/-- **Induction along replacing**: past the pattern where the text starts with it, and past one
character elsewhere. -/
theorem replaceAll_induction (pattern : List Char) {motive : List Char → Prop} (nil : motive [])
    (hit : ∀ c cs, pattern <+: c :: cs → motive (cs.drop (pattern.length - 1)) → motive (c :: cs))
    (miss : ∀ c cs, ¬ pattern <+: c :: cs → motive cs → motive (c :: cs))
    (text : List Char) : motive text :=
  replaceAll.induct pattern motive nil
    (fun c cs hmatch => hit c cs (List.isPrefixOf_iff_prefix.mp hmatch))
    (fun c cs hmatch => miss c cs fun hprefix =>
      hmatch (List.isPrefixOf_iff_prefix.mpr hprefix)) text

theorem replaceAll_hit {c : Char} {cs : List Char} (h : pattern <+: c :: cs) :
    replaceAll pattern value (c :: cs)
      = value ++ replaceAll pattern value (cs.drop (pattern.length - 1)) := by
  rw [replaceAll, if_pos (List.isPrefixOf_iff_prefix.mpr h)]

theorem replaceAll_miss {c : Char} {cs : List Char} (h : ¬ pattern <+: c :: cs) :
    replaceAll pattern value (c :: cs) = c :: replaceAll pattern value cs := by
  rw [replaceAll, if_neg fun hmatch => h (List.isPrefixOf_iff_prefix.mp hmatch)]

theorem Straddles.of_isSuffix {rest : List Char} (hrest : rest <:+ text)
    (h : Straddles pattern rest behind) : Straddles pattern text behind := by
  obtain ⟨start, hstart, hmatch⟩ := h
  exact ⟨start, hstart.trans hrest, hmatch⟩

/-- No pattern runs across a character that it does not have. -/
theorem not_straddles_cons {c : Char} (hc : c ∉ pattern) :
    ¬ Straddles pattern text (c :: behind) := by
  intro ⟨start, _, _, hmatch, hshort⟩
  rcases List.prefix_or_prefix_of_prefix hmatch (List.prefix_append start (c :: behind)) with h | h
  · exact hshort h
  · obtain ⟨rest, rfl⟩ := h
    rw [List.prefix_append_right_inj] at hmatch
    cases rest with
    | nil => simp at hshort
    | cons d rest =>
      rw [(List.cons_prefix_cons.mp hmatch).1] at hc
      simp at hc

/-- **Replacing in two texts**, one behind the other, if no pattern runs from one to the other. -/
theorem replaceAll_append (h : ¬ Straddles pattern text behind) :
    replaceAll pattern value (text ++ behind)
      = replaceAll pattern value text ++ replaceAll pattern value behind := by
  induction text using replaceAll_induction pattern with
  | nil => simp [replaceAll]
  | hit c cs hmatch ih =>
    have hlength : pattern.length - 1 ≤ cs.length := by
      have := hmatch.length_le
      rw [List.length_cons] at this
      omega
    have hrest : cs.drop (pattern.length - 1) <:+ c :: cs :=
      (List.drop_suffix _ _).trans (List.suffix_cons c cs)
    have hmatch' : pattern <+: c :: (cs ++ behind) :=
      List.IsPrefix.trans hmatch (List.prefix_append (c :: cs) behind)
    rw [List.cons_append, replaceAll_hit hmatch', replaceAll_hit hmatch,
      List.drop_append_of_le_length hlength,
      ih fun hstraddles => h (hstraddles.of_isSuffix hrest), List.append_assoc]
  | miss c cs hmatch ih =>
    have hmatch' : ¬ pattern <+: c :: (cs ++ behind) := fun hprefix =>
      h ⟨c :: cs, List.suffix_refl _, List.cons_ne_nil _ _, hprefix, hmatch⟩
    rw [List.cons_append, replaceAll_miss hmatch', replaceAll_miss hmatch,
      ih fun hstraddles => h (hstraddles.of_isSuffix (List.suffix_cons c cs)), List.cons_append]

/-- **Replacing in pieces**, one behind the other. -/
theorem replaceAll_flatMap {ps : List Piece} {f : Piece → List Char}
    (h : ∀ before piece after, ps = before ++ piece :: after →
      ¬ Straddles pattern (f piece) (after.flatMap f)) :
    replaceAll pattern value (ps.flatMap f)
      = ps.flatMap fun piece => replaceAll pattern value (f piece) := by
  induction ps with
  | nil => simp [replaceAll]
  | cons piece ps ih =>
    have hrest : ∀ before next after, ps = before ++ next :: after →
        ¬ Straddles pattern (f next) (after.flatMap f) := by
      intro before next after hsplit
      exact h (piece :: before) next after (by rw [hsplit, List.cons_append])
    rw [List.flatMap_cons, List.flatMap_cons, replaceAll_append (h [] piece ps rfl), ih hrest]

theorem replaceAll_of_not_isInfix (h : ¬ pattern <:+: text) :
    replaceAll pattern value text = text := by
  induction text using replaceAll_induction pattern with
  | nil => rw [replaceAll]
  | hit c cs hmatch _ => exact absurd hmatch.isInfix h
  | miss c cs hmatch ih =>
    rw [replaceAll_miss hmatch,
      ih fun hinfix => h (List.IsInfix.trans hinfix (List.suffix_cons c cs).isInfix)]

theorem replaceAll_self (h : pattern ≠ []) : replaceAll pattern value pattern = value := by
  cases pattern with
  | nil => exact absurd rfl h
  | cons c cs =>
    rw [replaceAll_hit (List.prefix_refl _)]
    simp [replaceAll]

end

/-! ### Pieces -/

theorem of_placeAt?_eq_some {count index : Nat} {text : List Char}
    (h : placeAt? count text = some index) : index < count ∧ place index <+: text := by
  have hmatch : (place index).isPrefixOf text = true := by
    simpa using List.find?_some h
  exact ⟨List.mem_range.mp (List.mem_of_find?_eq_some h), List.isPrefixOf_iff_prefix.mp hmatch⟩

theorem of_placeAt?_eq_none {count index : Nat} {text : List Char}
    (h : placeAt? count text = none) (hindex : index < count) : ¬ place index <+: text := by
  intro hprefix
  have hmiss := List.find?_eq_none.mp h index (List.mem_range.mpr hindex)
  exact hmiss (List.isPrefixOf_iff_prefix.mpr hprefix)

/-- **Induction along the pieces of a wording**: past the mark of a place where there is one, and
past one character elsewhere. -/
theorem pieces_induction (count : Nat) {motive : List Char → Prop} (nil : motive [])
    (argument : ∀ c cs index, placeAt? count (c :: cs) = some index →
      motive (cs.drop ((place index).length - 1)) → motive (c :: cs))
    (letter : ∀ c cs, placeAt? count (c :: cs) = none → motive cs → motive (c :: cs))
    (text : List Char) : motive text :=
  pieces.induct count motive nil argument letter text

theorem pieces_argument {count index : Nat} {c : Char} {cs : List Char}
    (h : placeAt? count (c :: cs) = some index) :
    pieces count (c :: cs)
      = .argument index :: pieces count (cs.drop ((place index).length - 1)) := by
  rw [pieces, h]

theorem pieces_letter {count : Nat} {c : Char} {cs : List Char}
    (h : placeAt? count (c :: cs) = none) :
    pieces count (c :: cs) = .letter c :: pieces count cs := by
  rw [pieces, h]

theorem exists_pieces_tail {count : Nat} {text : List Char} {piece : Piece} {ps : List Piece}
    (h : pieces count text = piece :: ps) : ∃ rest, rest <:+ text ∧ pieces count rest = ps := by
  cases text with
  | nil =>
    rw [pieces] at h
    cases h
  | cons c cs =>
    cases hplace : placeAt? count (c :: cs) with
    | some index =>
      rw [pieces_argument hplace] at h
      exact ⟨_, (List.drop_suffix _ _).trans (List.suffix_cons c cs), (List.cons.inj h).2⟩
    | none =>
      rw [pieces_letter hplace] at h
      exact ⟨cs, List.suffix_cons c cs, (List.cons.inj h).2⟩

/-- What follows some pieces are the pieces of what follows in the text. -/
theorem exists_pieces_eq {count : Nat} {text : List Char} {before after : List Piece}
    (h : pieces count text = before ++ after) :
    ∃ rest, rest <:+ text ∧ after = pieces count rest := by
  induction before generalizing text with
  | nil => exact ⟨text, List.suffix_refl _, h.symm⟩
  | cons piece before ih =>
    obtain ⟨tail, htail, hpieces⟩ := exists_pieces_tail h
    obtain ⟨rest, hrest, hafter⟩ := ih hpieces
    exact ⟨rest, hrest.trans htail, hafter⟩

/-- The text of a piece after the first of the arguments have been put in. -/
def Piece.afterFilling (arguments : List String) (filled : Nat) : Piece → List Char
  | letter c => [c]
  | argument index => if index < filled then (arguments.getD index "").toList else place index

theorem flatMap_afterFilling_zero (arguments : List String) (count : Nat) (text : List Char) :
    (pieces count text).flatMap (Piece.afterFilling arguments 0) = text := by
  induction text using pieces_induction count with
  | nil => rw [pieces, List.flatMap_nil]
  | argument c cs index hplace ih =>
    obtain ⟨behind, hbehind⟩ := (of_placeAt?_eq_some hplace).2
    have hdrop : cs.drop ((place index).length - 1) = behind := by
      have htail : cs = (toString index).toList ++ ['}'] ++ behind :=
        (List.cons.inj hbehind).2.symm
      rw [htail]
      exact List.drop_left
    rw [pieces_argument hplace, List.flatMap_cons, ih, hdrop]
    exact hbehind
  | letter c cs hplace ih =>
    rw [pieces_letter hplace, List.flatMap_cons, ih]
    rfl

theorem lt_of_argument_mem_pieces {count index : Nat} {text : List Char}
    (h : .argument index ∈ pieces count text) : index < count := by
  induction text using pieces_induction count with
  | nil =>
    rw [pieces] at h
    cases h
  | argument c cs found hplace ih =>
    rw [pieces_argument hplace] at h
    rcases List.mem_cons.mp h with heq | hmem
    · cases heq
      exact (of_placeAt?_eq_some hplace).1
    · exact ih hmem
  | letter c cs hplace ih =>
    rw [pieces_letter hplace] at h
    rcases List.mem_cons.mp h with heq | hmem
    · cases heq
    · exact ih hmem

/-- After all arguments are put in, no mark is left. -/
theorem afterFilling_length {arguments : List String} {text : List Char} {piece : Piece}
    (h : piece ∈ pieces arguments.length text) :
    piece.afterFilling arguments arguments.length = piece.filled arguments := by
  cases piece with
  | letter c => rfl
  | argument index => exact if_pos (lt_of_argument_mem_pieces h)

/-! ### One argument more -/

/-- The beginning of a mark without its end. -/
structure Unfinished (index : Nat) (start : List Char) : Prop where
  not_nil : start ≠ []
  not_whole : start ≠ place index
  isPrefix : start <+: place index

/-- No unfinished mark of one place stands before the place of an earlier argument. -/
def Apart (wording : List Char) (next : Nat) : Prop :=
  ∀ index < next, ∀ start, Unfinished next start → ¬ start ++ place index <:+: wording

section

variable {arguments : List String} {next : Nat}

/-- Characters without an opening brace that stand after filling stand in the wording too, up to the
place of an argument that has been put in. -/
theorem isPrefix_or_exists_place {count : Nat} {chars text : List Char} (hchars : '{' ∉ chars)
    (h : chars <+: (pieces count text).flatMap (Piece.afterFilling arguments next)) :
    chars <+: text ∨ ∃ start index, start <+: chars ∧ start ≠ chars ∧ index < next ∧
      start ++ place index <+: text := by
  induction chars generalizing text with
  | nil => exact Or.inl (List.nil_prefix)
  | cons x chars ih =>
    rw [List.mem_cons, not_or] at hchars
    cases text with
    | nil => simp [pieces] at h
    | cons c cs =>
      rw [pieces] at h
      split at h
      · rename_i index hplace
        rw [List.flatMap_cons, Piece.afterFilling] at h
        split at h
        · rename_i hindex
          exact Or.inr ⟨[], index, List.nil_prefix, (List.cons_ne_nil x chars).symm, hindex,
            (of_placeAt?_eq_some hplace).2⟩
        · -- a mark that is still there starts with a brace
          exact absurd (List.cons_prefix_cons.mp h).1.symm hchars.1
      · rw [List.flatMap_cons] at h
        obtain ⟨rfl, hrest⟩ := List.cons_prefix_cons.mp h
        rcases ih hchars.2 hrest with hprefix | ⟨start, index, hstart, hne, hindex, hprefix⟩
        · exact Or.inl (List.cons_prefix_cons.mpr ⟨rfl, hprefix⟩)
        · refine Or.inr ⟨x :: start, index, List.cons_prefix_cons.mpr ⟨rfl, hstart⟩, ?_, hindex,
            List.cons_prefix_cons.mpr ⟨rfl, hprefix⟩⟩
          intro heq
          exact hne (List.cons.inj heq).2

/-- No mark of the next argument starts with a character of the wording. -/
theorem not_straddles_letter {count : Nat} {wording rest : List Char} {c : Char}
    {after : List Piece} (hnext : next < count) (hapart : Apart wording next)
    (hrest : rest <:+ wording) (h : pieces count rest = .letter c :: after) :
    ¬ Straddles (place next) [c] (after.flatMap (Piece.afterFilling arguments next)) := by
  intro ⟨start, hstart, hne, hmatch, _⟩
  obtain rfl : start = [c] := by
    rcases List.suffix_cons_iff.mp hstart with heq | hnil
    · exact heq
    · exact absurd (List.suffix_nil.mp hnil) hne
  cases rest with
  | nil => simp [pieces] at h
  | cons d cs =>
    rw [pieces] at h
    split at h
    · cases (List.cons.inj h).1
    · rename_i hplace
      obtain ⟨hletter, rfl⟩ := List.cons.inj h
      cases hletter
      obtain ⟨rfl, htail⟩ := List.cons_prefix_cons.mp hmatch
      rcases isPrefix_or_exists_place (opening_not_mem next) htail with
        hprefix | ⟨start, index, hstart, hne, hindex, hprefix⟩
      · exact of_placeAt?_eq_none hplace hnext (List.cons_prefix_cons.mpr ⟨rfl, hprefix⟩)
      · have hunfinished : Unfinished next ('{' :: start) := by
          refine ⟨List.cons_ne_nil _ _, ?_, List.cons_prefix_cons.mpr ⟨rfl, hstart⟩⟩
          intro heq
          exact hne (List.cons.inj heq).2
        have hwhole : '{' :: start ++ place index <+: '{' :: cs :=
          List.cons_prefix_cons.mpr ⟨rfl, hprefix⟩
        exact hapart index hindex _ hunfinished (hwhole.isInfix.trans hrest.isInfix)

/-- No mark starts in another one. -/
theorem not_straddles_place {index : Nat} {behind : List Char} :
    ¬ Straddles (place next) (place index) behind := by
  intro ⟨start, hstart, hne, hmatch, hshort⟩
  cases start with
  | nil => exact hne rfl
  | cons c start =>
    obtain ⟨rfl, _⟩ := List.cons_prefix_cons.mp hmatch
    rw [eq_place_of_isSuffix hstart] at hmatch hshort
    rw [eq_of_place_isPrefix hmatch] at hshort
    exact hshort (List.prefix_refl _)

/-- A mark that starts in a text and ends behind it starts unfinished in the text. -/
theorem exists_unfinished {text behind : List Char} (h : Straddles (place next) text behind) :
    ∃ start, Unfinished next start ∧ start <:+ text := by
  obtain ⟨start, hstart, hne, hmatch, hshort⟩ := h
  refine ⟨start, ⟨hne, ?_, ?_⟩, hstart⟩
  · intro heq
    exact hshort (heq ▸ List.prefix_refl _)
  · rcases List.prefix_or_prefix_of_prefix hmatch (List.prefix_append start behind) with h | h
    · exact absurd h hshort
    · exact h

/-- What becomes of a piece when the next argument is put in. -/
theorem replaceAll_piece {piece : Piece}
    (hmark : ∀ index < next, piece = .argument index →
      ¬ place next <:+: (arguments.getD index "").toList) :
    replaceAll (place next) (arguments.getD next "").toList (piece.afterFilling arguments next)
      = piece.afterFilling arguments (next + 1) := by
  cases piece with
  | letter c =>
    apply replaceAll_of_not_isInfix
    intro hinfix
    have hlength := hinfix.length_le
    simp [Piece.afterFilling, place] at hlength
  | argument index =>
    show replaceAll _ _ (if index < next then _ else _) = if index < next + 1 then _ else _
    rcases Nat.lt_trichotomy index next with hlt | heq | hgt
    · rw [if_pos hlt, if_pos (by omega), replaceAll_of_not_isInfix (hmark index hlt rfl)]
    · subst heq
      rw [if_neg (by omega), if_pos (by omega), replaceAll_self (place_ne_nil index)]
    · rw [if_neg (by omega), if_neg (by omega)]
      apply replaceAll_of_not_isInfix
      intro hinfix
      have := eq_of_place_isInfix hinfix
      omega

end

/-- No mark of the next argument starts in an argument that has been put in and ends behind it. -/
def Sealed (ps : List Piece) (arguments : List String) (next : Nat) : Prop :=
  ∀ before index after, ps = before ++ .argument index :: after → index < next →
    ¬ Straddles (place next) (arguments.getD index "").toList
      (after.flatMap (Piece.afterFilling arguments next))

/-- **Putting in the next argument works piece by piece**, if no mark comes about around the pieces.
-/
theorem replaceAll_pieces {arguments : List String} {next count : Nat} {wording value : List Char}
    (hnext : next < count) (hapart : Apart wording next)
    (hsealed : Sealed (pieces count wording) arguments next) :
    replaceAll (place next) value
        ((pieces count wording).flatMap (Piece.afterFilling arguments next))
      = (pieces count wording).flatMap fun piece =>
          replaceAll (place next) value (piece.afterFilling arguments next) := by
  apply replaceAll_flatMap
  intro before piece after hsplit
  cases piece with
  | letter c =>
    obtain ⟨rest, hrest, hafter⟩ := exists_pieces_eq hsplit
    exact not_straddles_letter hnext hapart hrest hafter.symm
  | argument index =>
    show ¬ Straddles _ (if index < next then _ else _) _
    split
    · rename_i hindex
      exact hsealed before index after hsplit hindex
    · exact not_straddles_place

/-- No mark of the next argument comes about: no earlier argument has it or ends with its beginning,
and no beginning of it stands before the place of an earlier argument. -/
structure GuardedAt (wording : String) (arguments : List String) (next : Nat) : Prop where
  no_mark : ∀ index < next, ¬ place next <:+: (arguments.getD index "").toList
  no_start : ∀ index < next, ∀ start, Unfinished next start →
    ¬ start <:+ (arguments.getD index "").toList
  apart : Apart wording.toList next

/-- No mark comes about when arguments are put in. -/
def Guarded (wording : String) (arguments : List String) : Prop :=
  ∀ next < arguments.length, GuardedAt wording arguments next

theorem guardedAt_zero (wording : String) (arguments : List String) :
    GuardedAt wording arguments 0 :=
  ⟨fun _ h => absurd h (Nat.not_lt_zero _), fun _ h => absurd h (Nat.not_lt_zero _),
    fun _ h => absurd h (Nat.not_lt_zero _)⟩

/-- **One argument more.** -/
theorem replaceAll_afterFilling {wording : String} {arguments : List String} {next count : Nat}
    (hnext : next < count) (h : GuardedAt wording arguments next) :
    replaceAll (place next) (arguments.getD next "").toList
        ((pieces count wording.toList).flatMap (Piece.afterFilling arguments next))
      = (pieces count wording.toList).flatMap (Piece.afterFilling arguments (next + 1)) := by
  have hsealed : Sealed (pieces count wording.toList) arguments next := by
    intro before index after _ hindex hstraddles
    obtain ⟨start, hunfinished, hstart⟩ := exists_unfinished hstraddles
    exact h.no_start index hindex start hunfinished hstart
  rw [replaceAll_pieces hnext h.apart hsealed]
  congr 1
  funext piece
  exact replaceAll_piece fun index hindex _ => h.no_mark index hindex

/-- **All arguments**, from one on. -/
theorem fillFrom_afterFilling {wording : String} {arguments done rest : List String}
    (h : Guarded wording arguments) (hsplit : arguments = done ++ rest) :
    fillFrom done.length
        ((pieces arguments.length wording.toList).flatMap
          (Piece.afterFilling arguments done.length)) rest
      = (pieces arguments.length wording.toList).flatMap
          (Piece.afterFilling arguments arguments.length) := by
  induction rest generalizing done with
  | nil =>
    rw [List.append_nil] at hsplit
    rw [hsplit, fillFrom]
  | cons argument rest ih =>
    have hnext : done.length < arguments.length := by
      simp [hsplit]
    have hargument : argument = arguments.getD done.length "" := by
      simp [hsplit]
    have hlength : (done ++ [argument]).length = done.length + 1 := List.length_append
    rw [fillFrom, hargument, replaceAll_afterFilling hnext (h _ hnext), ← hlength]
    apply ih
    simp [hsplit]

theorem fill_of_guarded {wording : String} {arguments : List String}
    (h : Guarded wording arguments) : fill wording arguments = substitute wording arguments := by
  have hzero := flatMap_afterFilling_zero arguments arguments.length wording.toList
  have hrun := fillFrom_afterFilling h (List.nil_append arguments).symm
  rw [List.length_nil, hzero] at hrun
  rw [fill, substitute, hrun]
  congr 1
  exact List.flatMap_congr fun piece hpiece => afterFilling_length hpiece

/-! ### When replacing changes nothing -/

section

variable {pattern value text : List Char}

/-- Every occurrence that is replaced changes the length in the same way. -/
theorem exists_length_replaceAll (value text : List Char) (hpattern : pattern ≠ []) :
    ∃ count, (replaceAll pattern value text).length + count * pattern.length
        = text.length + count * value.length ∧ (pattern <:+: text → 0 < count) := by
  induction text using replaceAll_induction pattern with
  | nil =>
    rw [replaceAll]
    exact ⟨0, by simp, fun hinfix => absurd (List.infix_nil.mp hinfix) hpattern⟩
  | hit c cs hmatch ih =>
    obtain ⟨count, hlength, -⟩ := ih
    have hprefix := hmatch.length_le
    have hpositive := List.length_pos_iff.mpr hpattern
    refine ⟨count + 1, ?_, fun _ => Nat.succ_pos count⟩
    rw [replaceAll_hit hmatch]
    simp only [List.length_append, List.length_drop, List.length_cons, Nat.succ_mul]
      at hlength hprefix ⊢
    omega
  | miss c cs hmatch ih =>
    obtain ⟨count, hlength, hcount⟩ := ih
    refine ⟨count, ?_, ?_⟩
    · rw [replaceAll_miss hmatch]
      simp only [List.length_cons]
      omega
    · intro hinfix
      exact hcount ((List.infix_cons_iff.mp hinfix).resolve_left hmatch)

theorem replaceAll_by_itself (hpattern : pattern ≠ []) :
    replaceAll pattern pattern text = text := by
  induction text using replaceAll_induction pattern with
  | nil => rw [replaceAll]
  | hit c cs hmatch ih =>
    rw [replaceAll_hit hmatch, ih]
    obtain ⟨behind, hbehind⟩ := hmatch
    cases pattern with
    | nil => exact absurd rfl hpattern
    | cons d pattern =>
      have htail : pattern ++ behind = cs := (List.cons.inj hbehind).2
      rw [← hbehind, ← htail]
      simp
  | miss c cs hmatch ih => rw [replaceAll_miss hmatch, ih]

/-- **Replacing changes nothing** only if there is nothing to replace, or if the new value is the
pattern itself. -/
theorem replaceAll_eq_self_iff (hpattern : pattern ≠ []) :
    replaceAll pattern value text = text ↔ (pattern <:+: text → value = pattern) := by
  constructor
  · intro hsame hinfix
    have hlength : value.length = pattern.length := by
      obtain ⟨count, hlength, hcount⟩ := exists_length_replaceAll value text hpattern
      rw [hsame, Nat.add_left_cancel_iff] at hlength
      exact (Nat.eq_of_mul_eq_mul_left (hcount hinfix) hlength).symm
    induction text using replaceAll_induction pattern with
    | nil => exact absurd (List.infix_nil.mp hinfix) hpattern
    | hit c cs hmatch _ =>
      rw [replaceAll_hit hmatch] at hsame
      obtain ⟨behind, hbehind⟩ := hmatch
      rw [← hbehind] at hsame
      exact List.append_inj_left hsame hlength
    | miss c cs hmatch ih =>
      rw [replaceAll_miss hmatch] at hsame
      exact ih (List.cons.inj hsame).2 ((List.infix_cons_iff.mp hinfix).resolve_left hmatch)
  · intro h
    by_cases hinfix : pattern <:+: text
    · rw [h hinfix]
      exact replaceAll_by_itself hpattern
    · exact replaceAll_of_not_isInfix hinfix

end

/-! ### The messages of the checker -/

/-- The first argument of a message stands in quotes, and nowhere else. -/
theorem exists_pieces_wording (code : Code) :
    ∃ before after, pieces 2 code.wording.toList = before ++ .argument 0 :: .letter '\'' :: after ∧
      Piece.argument 0 ∉ before ∧ Piece.argument 0 ∉ after := by
  cases code with
  | nameNotFound =>
    exact ⟨"Cannot find name '".toList.map .letter, [.letter '.'], by decide +kernel⟩
  | importNotFound =>
    exact ⟨"Import declaration for '".toList.map .letter, " cannot be found.".toList.map .letter,
      by decide +kernel⟩
  | notAssignable =>
    exact ⟨"Type '".toList.map .letter, " is not assignable to type '".toList.map .letter
      ++ .argument 1 :: "'.".toList.map .letter, by decide +kernel⟩
  | unknownProperty =>
    exact ⟨"Property '".toList.map .letter, " does not exist on component '".toList.map .letter
      ++ .argument 1 :: "'.".toList.map .letter, by decide +kernel⟩

/-- The unfinished marks of the second argument. -/
theorem Unfinished.eq_or_eq {start : List Char} (h : Unfinished 1 start) :
    start = ['{'] ∨ start = ['{', '1'] := by
  obtain ⟨hnil, hwhole, hprefix⟩ := h
  have hplace : place 1 = ['{', '1', '}'] := by decide
  rw [hplace] at hwhole hprefix
  rcases List.prefix_cons_iff.mp hprefix with rfl | ⟨digits, rfl, hdigits⟩
  · exact absurd rfl hnil
  rcases List.prefix_cons_iff.mp hdigits with rfl | ⟨brace, rfl, hbrace⟩
  · exact Or.inl rfl
  rcases List.prefix_cons_iff.mp hbrace with rfl | ⟨rest, rfl, hrest⟩
  · exact Or.inr rfl
  · rw [List.prefix_nil.mp hrest] at hwhole
    exact absurd rfl hwhole

theorem apart_wording (code : Code) : Apart code.wording.toList 1 := by
  intro index hindex start hstart
  obtain rfl : index = 0 := by omega
  rcases hstart.eq_or_eq with rfl | rfl <;> cases code <;> decide +kernel

/-- A mark that comes about in a message comes about inside its first argument. -/
theorem sealed_wording (code : Code) (first second : String) :
    Sealed (pieces 2 code.wording.toList) [first, second] 1 := by
  intro before index after hsplit hindex
  obtain rfl : index = 0 := by omega
  obtain ⟨front, back, hpieces, hfront, hback⟩ := exists_pieces_wording code
  have hquote : Piece.argument 0 ∉ Piece.letter '\'' :: back := by
    simpa using hback
  obtain ⟨-, -, rfl⟩ :=
    (List.append_cons_inj_of_notMem hfront hquote).mp (hpieces.symm.trans hsplit)
  exact not_straddles_cons (by decide)

/-- **What two arguments make of a message.**  The second one is also put into the first one,
wherever this has its mark. -/
theorem fill_wording (code : Code) (first second : String) :
    ∃ before after,
      (fill code.wording [first, second]).toList
        = before ++ (replaceAll (place 1) second.toList first.toList ++ after) ∧
      (substitute code.wording [first, second]).toList = before ++ (first.toList ++ after) := by
  obtain ⟨front, back, hpieces, hfront, hback⟩ := exists_pieces_wording code
  have hquote : Piece.argument 0 ∉ Piece.letter '\'' :: back := by
    simpa using hback
  -- the two texts agree outside the first argument
  have hother : ∀ piece ∈ pieces 2 code.wording.toList, piece ≠ .argument 0 →
      replaceAll (place 1) second.toList (piece.afterFilling [first, second] 1)
        = piece.filled [first, second] := by
    intro piece hpiece hne
    have hmark : ∀ index < 1, piece = .argument index →
        ¬ place 1 <:+: ([first, second].getD index "").toList := by
      intro index hindex heq
      obtain rfl : index = 0 := by omega
      exact absurd heq hne
    rw [← afterFilling_length hpiece]
    exact replaceAll_piece hmark
  have hfill : (fill code.wording [first, second]).toList
      = (pieces 2 code.wording.toList).flatMap fun piece =>
          replaceAll (place 1) second.toList (piece.afterFilling [first, second] 1) := by
    have hzero := flatMap_afterFilling_zero [first, second] 2 code.wording.toList
    have hone := replaceAll_afterFilling (by decide : 0 < 2)
      (guardedAt_zero code.wording [first, second])
    rw [hzero] at hone
    rw [← replaceAll_pieces (by decide) (apart_wording code) (sealed_wording code first second),
      ← hone]
    simp [fill, fillFrom]
  refine ⟨front.flatMap (Piece.filled [first, second]),
    (Piece.letter '\'' :: back).flatMap (Piece.filled [first, second]), ?_, ?_⟩
  · rw [hfill, hpieces, List.flatMap_append, List.flatMap_cons]
    rw [hpieces] at hother
    congr 1
    · refine List.flatMap_congr fun piece hpiece => hother piece ?_ ?_
      · exact List.mem_append_left _ hpiece
      · exact fun heq => hfront (heq ▸ hpiece)
    · congr 1
      refine List.flatMap_congr fun piece hpiece => hother piece ?_ ?_
      · exact List.mem_append_right _ (List.mem_cons_of_mem _ hpiece)
      · exact fun heq => hquote (heq ▸ hpiece)
  · show (String.ofList ((pieces 2 code.wording.toList).flatMap _)).toList = _
    rw [hpieces, String.toList_ofList, List.flatMap_append, List.flatMap_cons]
    rfl

/-- **When arguments are put in as they are.**  It is as if all arguments were put in at once if no
mark comes about on the way, so in particular if there is only one.  With two arguments, a message
of the checker holds both as they are exactly if the first one does not have the mark of the second,
unless the second is that mark. -/
theorem arguments_verbatim (wording : String) (arguments : List String) (code : Code)
    (first second : String) :
    (Guarded wording arguments → fill wording arguments = substitute wording arguments) ∧
    fill wording [first] = substitute wording [first] ∧
    (fill code.wording [first, second] = substitute code.wording [first, second] ↔
      (place 1 <:+: first.toList → second.toList = place 1)) := by
  refine ⟨fill_of_guarded, ?_, ?_⟩
  · apply fill_of_guarded
    intro next hnext
    obtain rfl : next = 0 := by simpa using hnext
    exact guardedAt_zero wording [first]
  · obtain ⟨before, after, hfill, hsubstitute⟩ := fill_wording code first second
    rw [← String.toList_inj, hfill, hsubstitute, List.append_cancel_left_eq,
      List.append_cancel_right_eq]
    exact replaceAll_eq_self_iff (place_ne_nil 1)

/-- The braces of an object type are no marks. -/
theorem arguments_verbatim_object :
    let arguments := ["{ name: string; }", "number"]
    Guarded Code.notAssignable.wording arguments ∧
    fill Code.notAssignable.wording arguments
      = substitute Code.notAssignable.wording arguments := by
  intro arguments
  have hguarded : Guarded Code.notAssignable.wording arguments := by
    intro next hnext
    match next with
    | 0 => exact guardedAt_zero _ _
    | 1 =>
      refine ⟨?_, ?_, apart_wording .notAssignable⟩
      · intro index hindex
        obtain rfl : index = 0 := by omega
        decide +kernel
      · intro index hindex start hstart
        obtain rfl : index = 0 := by omega
        rcases hstart.eq_or_eq with rfl | rfl <;> decide +kernel
    | n + 2 => exact absurd hnext (by simp [arguments])
  exact ⟨hguarded, (arguments_verbatim _ _ .notAssignable "" "").1 hguarded⟩

/-- A type with the mark of the second argument in it is not shown as it is. -/
theorem argument_taken_for_place :
    let arguments := ["\"Page {0} of {1}\"", "number"]
    fill Code.notAssignable.wording arguments
      = "Type '\"Page {0} of number\"' is not assignable to type 'number'." ∧
    fill Code.notAssignable.wording arguments
      ≠ substitute Code.notAssignable.wording arguments := by
  decide +kernel

end PropCheck.Text
