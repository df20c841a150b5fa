/-!
# Edit distances are least numbers of edits

An edit inserts, deletes or replaces one character.  The distance of two texts is the least number
of edits that lead from one to the other.  It obeys a recursion on the first characters, and since
edits can be counted from the ends of the texts too, the same recursion on the last ones.

* `Text.Edit`, `Text.Edits`: one edit, and a number of them one after the other.
* `Text.levenshtein`: the distance by recursion on the first characters.
* `Text.edits_levenshtein`, `Text.levenshtein_le_of_edits`: it is the least number of edits.
* `Text.levenshtein_concat`: the recursion on the last characters.
* `Text.levenshtein_eq_zero_iff`, `Text.levenshtein_comm`: it is zero between equal texts only, and
  symmetric.
* `Text.Edits.length_le`: a text of another length is at least that many edits away.
-/

namespace PropCheck.Text

/-- One character is inserted, deleted or replaced. -/
inductive Edit : List Char → List Char → Prop
  | insert (before after : List Char) (c : Char) : Edit (before ++ after) (before ++ c :: after)
  | delete (before after : List Char) (c : Char) : Edit (before ++ c :: after) (before ++ after)
  | replace (before after : List Char) (c d : Char) :
      Edit (before ++ c :: after) (before ++ d :: after)

/-- Some number of edits, one after the other. -/
inductive Edits : Nat → List Char → List Char → Prop
  | none (text : List Char) : Edits 0 text text
  | next {n : Nat} {first second third : List Char} :
      Edit first second → Edits n second third → Edits (n + 1) first third

/-- The distance of two texts, by recursion on their first characters: one of them is deleted or
inserted, or the first is replaced by the second unless they are the same. -/
def levenshtein : List Char → List Char → Nat
  | [], bs => bs.length
  | a :: as, [] => (a :: as).length
  | a :: as, b :: bs =>
    min (min (levenshtein as (b :: bs) + 1) (levenshtein (a :: as) bs + 1))
      (levenshtein as bs + if a = b then 0 else 1)

theorem levenshtein_nil_right (as : List Char) : levenshtein as [] = as.length := by
  cases as with
  | nil => rw [levenshtein]
  | cons a as => rw [levenshtein]

/-! ### Edits -/

theorem Edit.cons {first second : List Char} (c : Char) (h : Edit first second) :
    Edit (c :: first) (c :: second) := by
  cases h with
  | insert before after d => exact .insert (c :: before) after d
  | delete before after d => exact .delete (c :: before) after d
  | replace before after d e => exact .replace (c :: before) after d e

theorem Edit.reverse {first second : List Char} (h : Edit first second) :
    Edit first.reverse second.reverse := by
  cases h with
  | insert before after c => simpa using Edit.insert after.reverse before.reverse c
  | delete before after c => simpa using Edit.delete after.reverse before.reverse c
  | replace before after c d => simpa using Edit.replace after.reverse before.reverse c d

/-- One edit changes the length by at most one. -/
theorem Edit.length_le {first second : List Char} (h : Edit first second) :
    second.length ≤ first.length + 1 ∧ first.length ≤ second.length + 1 := by
  cases h <;> simp only [List.length_append, List.length_cons] <;> omega

namespace Edits

variable {n : Nat} {first second : List Char}

theorem cons (c : Char) (h : Edits n first second) : Edits n (c :: first) (c :: second) := by
  induction h with
  | none text => exact .none (c :: text)
  | next hedit _ ih => exact .next (hedit.cons c) ih

theorem inserted (c : Char) (h : Edits n first second) : Edits (n + 1) first (c :: second) :=
  .next (.insert [] first c) (h.cons c)

theorem deleted (c : Char) (h : Edits n first second) : Edits (n + 1) (c :: first) second :=
  .next (.delete [] first c) h

theorem replaced (c d : Char) (h : Edits n first second) :
    Edits (n + if c = d then 0 else 1) (c :: first) (d :: second) := by
  split
  · rename_i heq
    exact heq ▸ h.cons c
  · exact .next (.replace [] first c d) (h.cons d)

theorem reverse (h : Edits n first second) : Edits n first.reverse second.reverse := by
  induction h with
  | none text => exact .none text.reverse
  | next hedit _ ih => exact .next hedit.reverse ih

/-- **A text of another length is at least that many edits away.** -/
theorem length_le (h : Edits n first second) :
    second.length ≤ first.length + n ∧ first.length ≤ second.length + n := by
  induction h with
  | none text => exact ⟨Nat.le_refl _, Nat.le_refl _⟩
  | next hedit _ ih =>
    have := hedit.length_le
    omega

end Edits

/-! ### The distance is the least number of edits -/

/-- **So many edits lead from one text to the other.** -/
theorem edits_levenshtein (as bs : List Char) : Edits (levenshtein as bs) as bs := by
  induction as generalizing bs with
  | nil =>
    induction bs with
    | nil =>
      rw [levenshtein]
      exact .none []
    | cons b bs ihinsert =>
      rw [levenshtein] at ihinsert ⊢
      exact ihinsert.inserted b
  | cons a as ihdelete =>
    induction bs with
    | nil =>
      have hdelete := ihdelete []
      rw [levenshtein_nil_right] at hdelete ⊢
      exact hdelete.deleted a
    | cons b bs ihinsert =>
      have hmin : ∀ x y z : Nat,
          min (min x y) z = x ∨ min (min x y) z = y ∨ min (min x y) z = z := by
        omega
      rw [levenshtein]
      rcases hmin (levenshtein as (b :: bs) + 1) (levenshtein (a :: as) bs + 1)
        (levenshtein as bs + if a = b then 0 else 1) with h | h | h
      · rw [h]
        exact (ihdelete (b :: bs)).deleted a
      · rw [h]
        exact ihinsert.inserted b
      · rw [h]
        exact (ihdelete bs).replaced a b

/-- What one text costs more than another, it costs more behind a common first character too. -/
theorem levenshtein_cons_le {as bs : List Char} (c : Char)
    (h : ∀ ds, levenshtein as ds ≤ levenshtein bs ds + 1) (ds : List Char) :
    levenshtein (c :: as) ds ≤ levenshtein (c :: bs) ds + 1 := by
  induction ds with
  | nil =>
    have hnil := h []
    simp only [levenshtein_nil_right, List.length_cons] at hnil ⊢
    omega
  | cons d ds ih =>
    have hdelete := h (d :: ds)
    have hreplace := h ds
    rw [levenshtein, levenshtein]
    omega

theorem levenshtein_deleted_le (a : Char) (as ds : List Char) :
    levenshtein (a :: as) ds ≤ levenshtein as ds + 1 := by
  cases ds with
  | nil => simp only [levenshtein_nil_right, List.length_cons, Nat.le_refl]
  | cons d ds =>
    rw [levenshtein]
    omega

theorem levenshtein_inserted_le (as : List Char) (d : Char) (ds : List Char) :
    levenshtein as (d :: ds) ≤ levenshtein as ds + 1 := by
  cases as with
  | nil => simp only [levenshtein, List.length_cons, Nat.le_refl]
  | cons a as =>
    rw [levenshtein]
    omega

theorem levenshtein_le_deleted (a : Char) (as ds : List Char) :
    levenshtein as ds ≤ levenshtein (a :: as) ds + 1 := by
  induction ds with
  | nil =>
    simp only [levenshtein_nil_right, List.length_cons]
    omega
  | cons d ds ih =>
    have hinsert := levenshtein_inserted_le as d ds
    rw [levenshtein]
    omega

theorem levenshtein_replaced_le (a b : Char) (as ds : List Char) :
    levenshtein (a :: as) ds ≤ levenshtein (b :: as) ds + 1 := by
  induction ds with
  | nil => simp only [levenshtein_nil_right, List.length_cons, Nat.le_succ]
  | cons d ds ih =>
    have hcost : (if a = d then 0 else 1) ≤ 1 := by
      split <;> omega
    rw [levenshtein, levenshtein]
    omega

/-- **One edit changes a distance by at most one.** -/
theorem Edit.levenshtein_le {first second : List Char} (h : Edit first second) (ds : List Char) :
    levenshtein first ds ≤ levenshtein second ds + 1 := by
  cases h with
  | insert before after c =>
    induction before generalizing ds with
    | nil => exact levenshtein_le_deleted c after ds
    | cons x before ih => exact levenshtein_cons_le x ih ds
  | delete before after c =>
    induction before generalizing ds with
    | nil => exact levenshtein_deleted_le c after ds
    | cons x before ih => exact levenshtein_cons_le x ih ds
  | replace before after c d =>
    induction before generalizing ds with
    | nil => exact levenshtein_replaced_le c d after ds
    | cons x before ih => exact levenshtein_cons_le x ih ds

theorem levenshtein_self (as : List Char) : levenshtein as as = 0 := by
  induction as with
  | nil => rw [levenshtein, List.length_nil]
  | cons a as ih =>
    rw [levenshtein, ih, if_pos rfl]
    omega

/-- **No fewer edits lead from one text to the other.** -/
theorem levenshtein_le_of_edits {n : Nat} {as bs : List Char} (h : Edits n as bs) :
    levenshtein as bs ≤ n := by
  induction h with
  | none text => exact Nat.le_of_eq (levenshtein_self text)
  | @next n first second third hedit _ ih =>
    have := hedit.levenshtein_le third
    omega

/-- The distance can be counted from the ends of the texts just as well. -/
theorem levenshtein_reverse (as bs : List Char) :
    levenshtein as.reverse bs.reverse = levenshtein as bs := by
  have hle : ∀ as bs : List Char, levenshtein as.reverse bs.reverse ≤ levenshtein as bs :=
    fun as bs => levenshtein_le_of_edits (edits_levenshtein as bs).reverse
  have hge := hle as.reverse bs.reverse
  rw [List.reverse_reverse, List.reverse_reverse] at hge
  exact Nat.le_antisymm (hle as bs) hge

/-- The recursion on the last characters. -/
theorem levenshtein_concat (as bs : List Char) (a b : Char) :
    levenshtein (as ++ [a]) (bs ++ [b])
      = min (min (levenshtein as (bs ++ [b]) + 1) (levenshtein (as ++ [a]) bs + 1))
          (levenshtein as bs + if a = b then 0 else 1) := by
  rw [← levenshtein_reverse (as ++ [a]), ← levenshtein_reverse as,
    ← levenshtein_reverse (as ++ [a]), ← levenshtein_reverse as, List.reverse_concat,
    List.reverse_concat, levenshtein]

/-- No edits lead from a text to itself only. -/
theorem levenshtein_eq_zero_iff {as bs : List Char} : levenshtein as bs = 0 ↔ as = bs := by
  constructor
  · intro hzero
    have hedits := edits_levenshtein as bs
    rw [hzero] at hedits
    cases hedits
    rfl
  · intro heq
    rw [heq, levenshtein_self]

/-- As many edits lead back. -/
theorem levenshtein_comm (as bs : List Char) : levenshtein as bs = levenshtein bs as := by
  induction as generalizing bs with
  | nil => rw [levenshtein, levenshtein_nil_right]
  | cons a as ihdelete =>
    induction bs with
    | nil => rw [levenshtein_nil_right, levenshtein]
    | cons b bs ihinsert =>
      have hcost : (if a = b then 0 else 1) = if b = a then 0 else 1 := by
        simp only [eq_comm]
      rw [levenshtein, levenshtein, ihdelete, ihdelete, ihinsert, hcost]
      omega

end PropCheck.Text
