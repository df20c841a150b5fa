import PropCheck.Proofs.Parts
import PropCheck.Ty.Text
import PropCheck.Ty.Union

/-!
# Types that their texts determine

The text of a type is read from the left.  What stands behind a part of it, a separator, a closing
bracket or nothing, tells where the part ends; and the first character of a part that is no union
and no intersection tells whether it is a word, a tuple, or something in parentheses before `[]`.

* `Ty.Algebraic`: the types built from keywords by arrays, tuples, unions and intersections, of
  which the last two have at least two members and are not directly inside one of their kind.
* `Ty.Grouped`: no union is directly inside an intersection; `Ty.Canonical`: both of this.
* `Ty.Ends`, `Ty.EndsAlternative`, `Ty.EndsFactor`: what may stand behind a type, a member of a
  union, and a member of an intersection.
* `Ty.eq_of_separated`: parts between separators are determined if each of them is.
* `Ty.Determined`: a type and what stands behind it are determined by their text.
* `Ty.determined_of_canonical`: every canonical type is determined.
-/

namespace PropCheck

/-! ### Words -/

namespace Keyword

def all : List Keyword :=
  [any, unknown, never, void, undefined, null, string, number, boolean, bigint, symbol, object]

theorem find?_text (k : Keyword) : all.find? (·.text == k.text) = some k := by
  cases k <;> decide

theorem text_injective {j k : Keyword} (h : j.text = k.text) : j = k := by
  have hj := find?_text j
  rw [h, find?_text k] at hj
  exact (Option.some.inj hj).symm

theorem exists_text_eq (k : Keyword) :
    ∃ c cs, k.text.toList = c :: cs ∧ (c :: cs).all Char.isLower = true := by
  cases k <;> exact ⟨_, _, rfl, by decide⟩

end Keyword

namespace Ty

/-! ### The types in question -/

/-- The type is a keyword, an array, a tuple, or a union or intersection of at least two members
none of which is of the same kind. -/
def AlgebraicHere : Ty → Prop
  | keyword _ | array _ | tuple _ => True
  | union ts => 2 ≤ ts.length ∧ ∀ t ∈ ts, ∀ us, t ≠ union us
  | intersection ts => 2 ≤ ts.length ∧ ∀ t ∈ ts, ∀ us, t ≠ intersection us
  | _ => False

/-- The type is built from keywords by arrays, tuples, unions and intersections; each union and
intersection has at least two members and is not directly inside one of its kind. -/
def Algebraic (t : Ty) : Prop :=
  ∀ u ∈ t.inside, u.AlgebraicHere

/-- The type is no intersection with a union among its members. -/
def GroupedHere : Ty → Prop
  | intersection ts => ∀ t ∈ ts, ∀ us, t ≠ union us
  | _ => True

/-- No union is directly inside an intersection. -/
def Grouped (t : Ty) : Prop :=
  ∀ u ∈ t.inside, u.GroupedHere

theorem algebraic_iff {t : Ty} : t.Algebraic ↔ t.AlgebraicHere ∧ ∀ u ∈ t.parts, u.Algebraic := by
  unfold Algebraic
  rw [inside_eq t]
  simp only [List.forall_mem_cons, List.forall_mem_flatMap]

theorem grouped_iff {t : Ty} : t.Grouped ↔ t.GroupedHere ∧ ∀ u ∈ t.parts, u.Grouped := by
  unfold Grouped
  rw [inside_eq t]
  simp only [List.forall_mem_cons, List.forall_mem_flatMap]

theorem Algebraic.here {t : Ty} (h : t.Algebraic) : t.AlgebraicHere :=
  (algebraic_iff.mp h).1

theorem Algebraic.part {t u : Ty} (h : t.Algebraic) (hu : u ∈ t.parts) : u.Algebraic :=
  (algebraic_iff.mp h).2 u hu

theorem Grouped.here {t : Ty} (h : t.Grouped) : t.GroupedHere :=
  (grouped_iff.mp h).1

theorem Grouped.part {t u : Ty} (h : t.Grouped) (hu : u ∈ t.parts) : u.Grouped :=
  (grouped_iff.mp h).2 u hu

theorem Algebraic.isFunction {t : Ty} (h : t.Algebraic) : t.isFunction = false := by
  cases t with
  | function ps r m => exact absurd h.here id
  | _ => rfl

/-! ### Texts as characters -/

def chars (t : Ty) : List Char :=
  t.text.toList

/-- The characters of a type as the element of an array, in parentheses if need be. -/
def elementChars (t : Ty) : List Char :=
  (parenthesized t.isComposite t.text).toList

theorem texts_eq_map (ts : List Ty) : texts ts = ts.map text := by
  induction ts with
  | nil => rfl
  | cons t ts ih => rw [texts, ih, List.map_cons]

theorem operandTexts_eq_map {ts : List Ty} (h : ∀ t ∈ ts, t.Algebraic) :
    operandTexts ts = ts.map text := by
  induction ts with
  | nil => rfl
  | cons t ts ih =>
    have ht := (h t List.mem_cons_self).isFunction
    rw [operandTexts, ht, ih fun u hu => h u (List.mem_cons_of_mem t hu)]
    rfl

theorem toList_intercalate_texts (separator : String) (ts : List Ty) :
    (separator.intercalate (ts.map text)).toList
      = separator.toList.intercalate (ts.map chars) := by
  rw [String.toList_intercalate, List.map_map]
  rfl

theorem chars_tuple (ts : List Ty) :
    (tuple ts).chars = '[' :: ((", ".toList.intercalate (ts.map chars)) ++ [']']) := by
  show ("[" ++ ", ".intercalate (texts ts) ++ "]").toList = _
  rw [texts_eq_map, String.toList_append, String.toList_append, toList_intercalate_texts]
  rfl

theorem chars_union {ts : List Ty} (h : (union ts).Algebraic) :
    (union ts).chars = " | ".toList.intercalate (ts.map chars) := by
  have hmembers : ∀ t ∈ ts, t.Algebraic := fun t ht => h.part ht
  show (" | ".intercalate (operandTexts ts)).toList = _
  rw [operandTexts_eq_map hmembers, toList_intercalate_texts]

theorem chars_intersection {ts : List Ty} (h : (intersection ts).Algebraic) :
    (intersection ts).chars = " & ".toList.intercalate (ts.map chars) := by
  have hmembers : ∀ t ∈ ts, t.Algebraic := fun t ht => h.part ht
  show (" & ".intercalate (operandTexts ts)).toList = _
  rw [operandTexts_eq_map hmembers, toList_intercalate_texts]

theorem elementChars_of_composite {t : Ty} (h : t.isComposite = true) :
    t.elementChars = '(' :: (t.chars ++ [')']) := by
  show (parenthesized t.isComposite t.text).toList = _
  rw [h]
  show ("(" ++ t.text ++ ")").toList = _
  rw [String.toList_append, String.toList_append]
  rfl

theorem elementChars_of_not_composite {t : Ty} (h : t.isComposite = false) :
    t.elementChars = t.chars := by
  show (parenthesized t.isComposite t.text).toList = _
  rw [h]
  rfl

theorem chars_array (t : Ty) : (array t).chars = t.elementChars ++ ['[', ']'] := by
  show (parenthesized t.isComposite t.text ++ "[]").toList = _
  rw [String.toList_append]
  rfl

/-! ### Arrays inside each other -/

/-- The element type of arrays inside each other. -/
def core : Ty → Ty
  | array t => core t
  | t => t

/-- How many arrays are inside each other. -/
def depth : Ty → Nat
  | array t => depth t + 1
  | _ => 0

/-- So many pairs of brackets. -/
def brackets : Nat → List Char
  | 0 => []
  | n + 1 => '[' :: ']' :: brackets n

theorem brackets_append (n : Nat) : brackets n ++ ['[', ']'] = brackets (n + 1) := by
  induction n with
  | zero => rfl
  | succ n ih =>
    show '[' :: ']' :: (brackets n ++ ['[', ']']) = '[' :: ']' :: brackets (n + 1)
    rw [ih]

theorem core_of_not_array {t : Ty} (h : ∀ u, t ≠ array u) : t.core = t := by
  cases t with
  | array u => exact absurd rfl (h u)
  | _ => rfl

theorem depth_of_not_array {t : Ty} (h : ∀ u, t ≠ array u) : t.depth = 0 := by
  cases t with
  | array u => exact absurd rfl (h u)
  | _ => rfl

/-- What holds of an array when it holds of its element type, and of all other types, holds of all
types. -/
theorem arrayInduction {motive : Ty → Prop} (array : ∀ t, motive t → motive (array t))
    (other : ∀ t, (∀ u, t ≠ .array u) → motive t) (t : Ty) : motive t := by
  induction hn : t.height using Nat.strongRecOn generalizing t with
  | ind n ih =>
    cases t with
    | array u => exact array u (ih u.height (hn ▸ height_lt_array u) u rfl)
    | _ => exact other _ fun _ => Ty.noConfusion

theorem core_ne_array (t u : Ty) : t.core ≠ array u := by
  induction t using arrayInduction with
  | array t ih => exact ih
  | other t h =>
    rw [core_of_not_array h]
    exact h u

theorem height_core_le (t : Ty) : t.core.height ≤ t.height := by
  induction t using arrayInduction with
  | array t ih => exact Nat.le_trans ih (Nat.le_of_lt (height_lt_array t))
  | other t h => exact Nat.le_of_eq (by rw [core_of_not_array h])

/-- The brackets of arrays stand behind the text of their element type. -/
theorem elementChars_eq (t : Ty) : t.elementChars = t.core.elementChars ++ brackets t.depth := by
  induction t using arrayInduction with
  | array t ih =>
    show (array t).elementChars = t.core.elementChars ++ brackets (t.depth + 1)
    rw [elementChars_of_not_composite rfl, chars_array, ih, List.append_assoc, brackets_append]
  | other t h =>
    rw [core_of_not_array h, depth_of_not_array h]
    exact (List.append_nil _).symm

/-- Types with the same element type behind as many arrays are the same. -/
theorem eq_of_core_eq {t u : Ty} (hcore : t.core = u.core) (hdepth : t.depth = u.depth) :
    t = u := by
  induction t using arrayInduction generalizing u with
  | array t ih =>
    cases u with
    | array u =>
      have hsame : t = u := ih hcore (Nat.succ.inj hdepth)
      rw [hsame]
    | _ => cases hdepth
  | other t h =>
    rw [depth_of_not_array h] at hdepth
    rw [core_of_not_array h] at hcore
    cases u with
    | array u => cases hdepth
    | _ => exact hcore

/-! ### Parts between separators -/

/-- What is behind the first of some parts. -/
def behindFirst (separator : List Char) (rest : List Ty) (behind : List Char) : List Char :=
  match rest with
  | [] => behind
  | rest => separator ++ (separator.intercalate (rest.map chars) ++ behind)

theorem intercalate_cons_append (separator : List Char) (t : Ty) (rest : List Ty)
    (behind : List Char) :
    separator.intercalate ((t :: rest).map chars) ++ behind
      = t.chars ++ behindFirst separator rest behind := by
  cases rest with
  | nil => simp [behindFirst, List.intercalate_singleton]
  | cons u rest => simp [behindFirst, List.intercalate_cons_cons]

/-- **Parts between separators are determined if each of them is.**  What may stand behind a part is
a separator or what may stand behind the last part, and no separator stands there. -/
theorem eq_of_separated {separator : List Char} {inner outer : List Char → Prop}
    (hseparator : ∀ r, inner (separator ++ r))
    (houter : ∀ r, outer r → inner r ∧ ¬ separator <+: r) {ts us : List Ty}
    (hts : ts ≠ []) (hus : us ≠ [])
    (hparts : ∀ t ∈ ts, ∀ u ∈ us, ∀ r s, inner r → inner s →
      t.chars ++ r = u.chars ++ s → t = u ∧ r = s)
    {r s : List Char} (hr : outer r) (hs : outer s)
    (h : separator.intercalate (ts.map chars) ++ r = separator.intercalate (us.map chars) ++ s) :
    ts = us ∧ r = s := by
  have hbehind : ∀ rest {r}, outer r → inner (behindFirst separator rest r) := by
    intro rest r hr
    cases rest with
    | nil => exact (houter r hr).1
    | cons t rest => exact hseparator _
  induction ts generalizing us with
  | nil => exact absurd rfl hts
  | cons t ts ih =>
    cases us with
    | nil => exact absurd rfl hus
    | cons u us =>
      rw [intercalate_cons_append, intercalate_cons_append] at h
      obtain ⟨rfl, hrest⟩ := hparts t List.mem_cons_self u List.mem_cons_self _ _
        (hbehind ts hr) (hbehind us hs) h
      match ts, us with
      | [], [] => exact ⟨rfl, hrest⟩
      | [], v :: us =>
        have hr' : r = separator ++ _ := hrest
        exact absurd (hr' ▸ List.prefix_append _ _) (houter r hr).2
      | v :: ts, [] =>
        have hs' : separator ++ _ = s := hrest
        exact absurd (hs' ▸ List.prefix_append _ _) (houter s hs).2
      | v :: ts, w :: us =>
        have hsame := List.append_cancel_left hrest
        obtain ⟨hlist, hrs⟩ := ih (List.cons_ne_nil _ _) (List.cons_ne_nil _ _)
          (fun t ht u hu => hparts t (List.mem_cons_of_mem _ ht) u (List.mem_cons_of_mem _ hu))
          hsame
        exact ⟨by rw [hlist], hrs⟩

/-! ### What stands behind a type -/

/-- What may stand behind a type: nothing, a closing bracket, or a comma. -/
def Ends : List Char → Prop
  | [] => True
  | c :: _ => c = ']' ∨ c = ')' ∨ c = ','

/-- What may stand behind a member of a union. -/
def EndsAlternative (r : List Char) : Prop :=
  Ends r ∨ " | ".toList <+: r

/-- What may stand behind a member of an intersection. -/
def EndsFactor (r : List Char) : Prop :=
  EndsAlternative r ∨ " & ".toList <+: r

theorem not_ends_space (r : List Char) : ¬ Ends (' ' :: r) := by
  simp [Ends]

theorem Ends.not_separator {r : List Char} (h : Ends r) : ¬ " | ".toList <+: r := by
  intro ⟨rest, hrest⟩
  rw [← hrest] at h
  exact not_ends_space _ h

theorem EndsAlternative.not_separator {r : List Char} (h : EndsAlternative r) :
    ¬ " & ".toList <+: r := by
  intro ⟨rest, hrest⟩
  rw [← hrest] at h
  rcases h with h | ⟨other, hother⟩
  · exact not_ends_space _ h
  · have hsecond := (List.cons.inj (List.cons.inj hother).2).1
    exact absurd hsecond (by decide)

/-- Neither a letter nor an opening bracket stands behind a member of an intersection. -/
theorem EndsFactor.head {c : Char} {r : List Char} (h : EndsFactor (c :: r)) :
    c.isLower = false ∧ c ≠ '[' := by
  have hspace : ∀ {separator : List Char}, ' ' :: separator <+: c :: r → c = ' ' :=
    fun h => (List.cons_prefix_cons.mp h).1.symm
  rcases h with (h | h) | h
  · rcases h with rfl | rfl | rfl <;> decide
  · rw [hspace h]
    decide
  · rw [hspace h]
    decide

/-- No letter stands there. -/
def NoLetter (r : List Char) : Prop :=
  ∀ c rest, r = c :: rest → c.isLower = false

/-- Brackets of arrays are determined by what stands behind them. -/
theorem brackets_inj {m n : Nat} {r s : List Char} (hr : EndsFactor r) (hs : EndsFactor s)
    (h : brackets m ++ r = brackets n ++ s) : m = n ∧ r = s := by
  induction m generalizing n with
  | zero =>
    cases n with
    | zero => exact ⟨rfl, h⟩
    | succ n =>
      have hr' : r = '[' :: ']' :: (brackets n ++ s) := h
      rw [hr'] at hr
      exact absurd rfl hr.head.2
  | succ m ih =>
    cases n with
    | zero =>
      have hs' : '[' :: ']' :: (brackets m ++ r) = s := h
      rw [← hs'] at hs
      exact absurd rfl hs.head.2
    | succ n =>
      obtain ⟨hmn, hrs⟩ := ih (List.cons.inj (List.cons.inj h).2).2
      exact ⟨congrArg Nat.succ hmn, hrs⟩

theorem noLetter_brackets (n : Nat) {r : List Char} (hr : EndsFactor r) :
    NoLetter (brackets n ++ r) := by
  intro c rest h
  cases n with
  | zero =>
    have hr' : r = c :: rest := h
    rw [hr'] at hr
    exact hr.head.1
  | succ n =>
    rw [← (List.cons.inj h).1]
    decide

/-! ### Element types -/

/-- The words of keywords are determined by what stands behind them. -/
theorem keyword_inj {j k : Keyword} {r s : List Char} (hr : NoLetter r) (hs : NoLetter s)
    (h : j.text.toList ++ r = k.text.toList ++ s) : j = k ∧ r = s := by
  have hword : ∀ (k : Keyword) {r : List Char}, NoLetter r →
      (k.text.toList ++ r).takeWhile Char.isLower = k.text.toList := by
    intro k r hr
    obtain ⟨c, cs, htext, hlower⟩ := k.exists_text_eq
    rw [htext, List.takeWhile_append_of_pos fun x hx => List.all_eq_true.mp hlower x hx]
    cases r with
    | nil => simp
    | cons x r => rw [List.takeWhile_cons_of_neg (by simp [hr x r rfl]), List.append_nil]
  have htext : j.text.toList = k.text.toList := by
    rw [← hword j hr, h, hword k hs]
  rw [htext] at h
  exact ⟨Keyword.text_injective (String.toList_inj.mp htext), List.append_cancel_left h⟩

/-- The text of a type starts with no closing bracket. -/
theorem exists_chars_eq {t : Ty} (h : t.Algebraic) : ∃ c cs, t.chars = c :: cs ∧ c ≠ ']' := by
  induction hn : t.height using Nat.strongRecOn generalizing t with
  | ind n ih =>
    subst hn
    have hpart : ∀ u ∈ t.parts, ∃ c cs, u.chars = c :: cs ∧ c ≠ ']' :=
      fun u hu => ih u.height (height_lt_of_mem_parts hu) (h.part hu) rfl
    -- the first member of a union or an intersection
    have hfirst : ∀ (separator : List Char) (ts : List Ty), 2 ≤ ts.length → ts = t.parts →
        ∃ c cs, separator.intercalate (ts.map chars) = c :: cs ∧ c ≠ ']' := by
      intro separator ts hlength hts
      match ts with
      | [] | [_] => simp at hlength
      | u :: v :: ts =>
        obtain ⟨c, cs, hu, hc⟩ := hpart u (hts ▸ List.mem_cons_self)
        rw [List.map_cons, List.map_cons, List.intercalate_cons_cons, hu]
        exact ⟨c, _, rfl, hc⟩
    cases t with
    | keyword k =>
      obtain ⟨c, cs, htext, hlower⟩ := k.exists_text_eq
      refine ⟨c, cs, htext, ?_⟩
      rintro rfl
      simp at hlower
    | array u =>
      by_cases hcomposite : u.isComposite = true
      · rw [chars_array, elementChars_of_composite hcomposite]
        exact ⟨'(', _, rfl, by decide⟩
      · obtain ⟨c, cs, hu, hc⟩ := hpart u (List.mem_singleton_self u)
        rw [chars_array, elementChars_of_not_composite (Bool.eq_false_iff.mpr hcomposite), hu]
        exact ⟨c, _, rfl, hc⟩
    | tuple ts =>
      rw [chars_tuple]
      exact ⟨'[', _, rfl, by decide⟩
    | union ts =>
      rw [chars_union h]
      exact hfirst _ ts h.here.1 rfl
    | intersection ts =>
      rw [chars_intersection h]
      exact hfirst _ ts h.here.1 rfl
    | _ => exact absurd h.here id

/-- A type of the kind in question in which unions are grouped. -/
structure Canonical (t : Ty) : Prop where
  algebraic : t.Algebraic
  grouped : t.Grouped

theorem Canonical.part {t u : Ty} (h : t.Canonical) (hu : u ∈ t.parts) : u.Canonical :=
  ⟨h.algebraic.part hu, h.grouped.part hu⟩

/-- A type and what stands behind it are determined by their text. -/
def Determined (t : Ty) : Prop :=
  ∀ u : Ty, u.Canonical → ∀ r s, Ends r → Ends s → t.chars ++ r = u.chars ++ s → t = u ∧ r = s

theorem tuple_inj {ts us : List Ty} (hts : ∀ t ∈ ts, t.Algebraic) (hus : ∀ u ∈ us, u.Canonical)
    (hparts : ∀ t ∈ ts, t.Determined) {x y : List Char}
    (h : (tuple ts).chars ++ x = (tuple us).chars ++ y) : ts = us ∧ x = y := by
  have hlist : ", ".toList.intercalate (ts.map chars) ++ ']' :: x
      = ", ".toList.intercalate (us.map chars) ++ ']' :: y := by
    rw [chars_tuple, chars_tuple] at h
    simpa using h
  -- an element does not start with the bracket that closes an empty tuple
  have hempty : ∀ {t : Ty} {ts : List Ty} {x y : List Char}, t.Algebraic →
      ']' :: x ≠ ", ".toList.intercalate ((t :: ts).map chars) ++ y := by
    intro t ts x y ht heq
    obtain ⟨c, cs, hchars, hc⟩ := exists_chars_eq ht
    rw [intercalate_cons_append, hchars] at heq
    exact hc (List.cons.inj heq).1.symm
  match ts, us with
  | [], [] => exact ⟨rfl, (List.cons.inj hlist).2⟩
  | [], u :: us => exact absurd hlist (hempty (hus u List.mem_cons_self).algebraic)
  | t :: ts, [] => exact absurd hlist.symm (hempty (hts t List.mem_cons_self))
  | t :: ts, u :: us =>
    have hclosing : ∀ r, (∃ x, r = ']' :: x) → Ends r ∧ ¬ ", ".toList <+: r := by
      rintro r ⟨x, rfl⟩
      refine ⟨Or.inl rfl, fun hprefix => ?_⟩
      exact absurd (List.cons_prefix_cons.mp hprefix).1 (by decide)
    obtain ⟨hsame, hxy⟩ := eq_of_separated (fun r => Or.inr (Or.inr rfl)) hclosing
      (List.cons_ne_nil _ _) (List.cons_ne_nil _ _)
      (fun t ht u hu => hparts t ht u (hus u hu)) ⟨x, rfl⟩ ⟨y, rfl⟩ hlist
    exact ⟨hsame, (List.cons.inj hxy).2⟩

/-- The forms of a type that is no array. -/
theorem Algebraic.cases {t : Ty} (h : t.Algebraic) (harray : ∀ u, t ≠ array u) :
    (∃ k, t = keyword k) ∨ (∃ ts, t = tuple ts) ∨ t.isComposite = true := by
  cases t with
  | keyword k => exact Or.inl ⟨k, rfl⟩
  | tuple ts => exact Or.inr (Or.inl ⟨ts, rfl⟩)
  | union _ | intersection _ => exact Or.inr (Or.inr rfl)
  | array u => exact absurd rfl (harray u)
  | _ => exact absurd h.here id

/-- **Element types are determined by their text**: its first character tells which form they have.
-/
theorem elementChars_inj {c d : Ty} (hc : c.Canonical) (hd : d.Canonical)
    (hcarray : ∀ u, c ≠ array u) (hdarray : ∀ u, d ≠ array u)
    (hparts : ∀ t ∈ c.parts, t.Determined) (hself : c.isComposite = true → c.Determined)
    {x y : List Char} (hx : NoLetter x) (hy : NoLetter y)
    (h : c.elementChars ++ x = d.elementChars ++ y) : c = d ∧ x = y := by
  have hletter : ∀ {k : Keyword} {c : Char} {x rest : List Char},
      k.text.toList ++ x = c :: rest → c.isLower = true := by
    intro k c x rest heq
    obtain ⟨a, cs, htext, hlower⟩ := k.exists_text_eq
    rw [htext] at heq
    rw [← (List.cons.inj heq).1]
    exact List.all_eq_true.mp hlower a List.mem_cons_self
  rcases hc.algebraic.cases hcarray with ⟨j, rfl⟩ | ⟨ts, rfl⟩ | hcc
  · rcases hd.algebraic.cases hdarray with ⟨k, rfl⟩ | ⟨us, rfl⟩ | hdc
    · obtain ⟨rfl, hxy⟩ := keyword_inj hx hy h
      exact ⟨rfl, hxy⟩
    · rw [elementChars_of_not_composite rfl, elementChars_of_not_composite rfl, chars_tuple] at h
      exact absurd (hletter h) (by decide)
    · rw [elementChars_of_composite hdc] at h
      exact absurd (hletter h) (by decide)
  · rw [elementChars_of_not_composite rfl] at h
    rcases hd.algebraic.cases hdarray with ⟨k, rfl⟩ | ⟨us, rfl⟩ | hdc
    · rw [elementChars_of_not_composite rfl, chars_tuple] at h
      exact absurd (hletter h.symm) (by decide)
    · rw [elementChars_of_not_composite rfl] at h
      obtain ⟨rfl, hxy⟩ := tuple_inj (fun t ht => (hc.part ht).algebraic) (fun u hu => hd.part hu)
        hparts h
      exact ⟨rfl, hxy⟩
    · rw [elementChars_of_composite hdc, chars_tuple] at h
      exact absurd (List.cons.inj h).1 (by decide)
  · rw [elementChars_of_composite hcc] at h
    rcases hd.algebraic.cases hdarray with ⟨k, rfl⟩ | ⟨us, rfl⟩ | hdc
    · exact absurd (hletter h.symm) (by decide)
    · rw [elementChars_of_not_composite rfl, chars_tuple] at h
      exact absurd (List.cons.inj h).1 (by decide)
    · rw [elementChars_of_composite hdc] at h
      have hinner : c.chars ++ ')' :: x = d.chars ++ ')' :: y := by
        simpa using h
      obtain ⟨rfl, hxy⟩ := hself hcc d hd (')' :: x) (')' :: y) (Or.inr (Or.inl rfl))
        (Or.inr (Or.inl rfl)) hinner
      exact ⟨rfl, (List.cons.inj hxy).2⟩

/-! ### Types as members of unions and intersections -/

/-- The members of an intersection, and any other type by itself. -/
def factors : Ty → List Ty
  | intersection ts => ts
  | t => [t]

theorem Algebraic.factors_ne_nil {t : Ty} (h : t.Algebraic) : t.factors ≠ [] := by
  cases t with
  | intersection ts =>
    have hlength := h.here.1
    show ts ≠ []
    rintro rfl
    simp at hlength
  | _ => exact List.cons_ne_nil _ _

theorem Algebraic.members_ne_nil {t : Ty} (h : t.Algebraic) : t.members ≠ [] := by
  cases t with
  | union ts =>
    have hlength := h.here.1
    show ts ≠ []
    rintro rfl
    simp at hlength
  | _ => exact List.cons_ne_nil _ _

theorem chars_eq_factors {t : Ty} (h : t.Algebraic) :
    t.chars = " & ".toList.intercalate (t.factors.map chars) := by
  cases t with
  | intersection ts => exact chars_intersection h
  | _ => exact List.intercalate_singleton.symm

theorem chars_eq_members {t : Ty} (h : t.Algebraic) :
    t.chars = " | ".toList.intercalate (t.members.map chars) := by
  cases t with
  | union ts => exact chars_union h
  | _ => exact List.intercalate_singleton.symm

/-- A type that is no list of its kind stands by itself, so a list that is not of length one tells
the type that it is the list of. -/
theorem eq_of_view_eq {view : Ty → List Ty} {make : List Ty → Ty}
    (hmake : ∀ ts, view (make ts) = ts)
    (hother : ∀ t, (∀ ts, t ≠ make ts) → view t = [t]) {t u : Ty}
    (ht : ∀ ts, t = make ts → 2 ≤ ts.length) (hu : ∀ ts, u = make ts → 2 ≤ ts.length)
    (h : view t = view u) : t = u := by
  by_cases htm : ∃ ts, t = make ts <;> by_cases hum : ∃ us, u = make us
  · obtain ⟨ts, rfl⟩ := htm
    obtain ⟨us, rfl⟩ := hum
    rw [hmake, hmake] at h
    rw [h]
  · obtain ⟨ts, rfl⟩ := htm
    rw [hmake, hother u fun us heq => hum ⟨us, heq⟩] at h
    have hlength := ht ts rfl
    simp [h] at hlength
  · obtain ⟨us, rfl⟩ := hum
    rw [hmake, hother t fun ts heq => htm ⟨ts, heq⟩] at h
    have hlength := hu us rfl
    simp [← h] at hlength
  · rw [hother t fun ts heq => htm ⟨ts, heq⟩, hother u fun us heq => hum ⟨us, heq⟩] at h
    exact (List.cons.inj h).1

theorem eq_of_factors_eq {t u : Ty} (ht : t.Algebraic) (hu : u.Algebraic)
    (h : t.factors = u.factors) : t = u := by
  have hmake : ∀ ts, (intersection ts).factors = ts := fun _ => rfl
  refine eq_of_view_eq hmake ?_ ?_ ?_ h
  · intro v hv
    cases v with
    | intersection ts => exact absurd rfl (hv ts)
    | _ => rfl
  · rintro ts rfl
    exact ht.here.1
  · rintro us rfl
    exact hu.here.1

theorem eq_of_members_eq {t u : Ty} (ht : t.Algebraic) (hu : u.Algebraic)
    (h : t.members = u.members) : t = u := by
  have hmake : ∀ ts, (union ts).members = ts := fun _ => rfl
  refine eq_of_view_eq hmake ?_ ?_ ?_ h
  · intro v hv
    cases v with
    | union ts => exact absurd rfl (hv ts)
    | _ => rfl
  · rintro ts rfl
    exact ht.here.1
  · rintro us rfl
    exact hu.here.1

theorem Canonical.core {t : Ty} (h : t.Canonical) : t.core.Canonical := by
  induction t using arrayInduction with
  | array t ih => exact ih (h.part (List.mem_singleton_self t))
  | other t hnot =>
    rw [core_of_not_array hnot]
    exact h

/-- The members of an intersection in which unions are grouped are no unions or intersections. -/
theorem Canonical.factor {t a : Ty} (h : t.Canonical) (hunion : ∀ us, t ≠ union us)
    (ha : a ∈ t.factors) : a.Canonical ∧ a.isComposite = false ∧ a.height ≤ t.height := by
  have hself : (∀ us, t ≠ intersection us) → t.isComposite = false := by
    intro hintersection
    cases t with
    | union us => exact absurd rfl (hunion us)
    | intersection us => exact absurd rfl (hintersection us)
    | function ps r m => exact absurd h.algebraic.here id
    | _ => rfl
  cases t with
  | intersection ts =>
    have hpart : a.Canonical := h.part ha
    have hnotUnion := h.grouped.here a ha
    have hnotIntersection := h.algebraic.here.2 a ha
    refine ⟨hpart, ?_, Nat.le_of_lt (height_lt_intersection ha)⟩
    cases a with
    | union us => exact absurd rfl (hnotUnion us)
    | intersection us => exact absurd rfl (hnotIntersection us)
    | function ps r m => exact absurd hpart.algebraic.here id
    | _ => rfl
  | _ =>
    obtain rfl := List.mem_singleton.mp ha
    exact ⟨h, hself fun _ => Ty.noConfusion, Nat.le_refl _⟩

/-- The members of a union are no unions. -/
theorem Canonical.member {t m : Ty} (h : t.Canonical) (hm : m ∈ t.members) :
    m.Canonical ∧ (∀ us, m ≠ union us) ∧ m.height ≤ t.height := by
  cases t with
  | union ts =>
    exact ⟨h.part hm, h.algebraic.here.2 m hm, Nat.le_of_lt (height_lt_union hm)⟩
  | _ =>
    obtain rfl := List.mem_singleton.mp hm
    exact ⟨h, fun _ => Ty.noConfusion, Nat.le_refl _⟩

/-! ### Texts determine types -/

section

variable {t u : Ty} {r s : List Char}

/-- A type that is no union or intersection is determined if all lower types are. -/
theorem chars_inj_of_not_composite (ht : t.Canonical) (hu : u.Canonical)
    (htc : t.isComposite = false) (huc : u.isComposite = false)
    (hbelow : ∀ v : Ty, v.height < t.height → v.Canonical → v.Determined)
    (hr : EndsFactor r) (hs : EndsFactor s) (h : t.chars ++ r = u.chars ++ s) : t = u ∧ r = s := by
  have hparts : ∀ v ∈ t.core.parts, v.Determined := by
    intro v hv
    refine hbelow v ?_ (ht.core.part hv)
    exact Nat.lt_of_lt_of_le (height_lt_of_mem_parts hv) t.height_core_le
  have hself : t.core.isComposite = true → t.core.Determined := by
    intro hcomposite
    cases t with
    | array t =>
      exact hbelow t.core (Nat.lt_of_le_of_lt t.height_core_le (height_lt_array t)) ht.core
    | _ => cases htc.symm.trans hcomposite
  rw [← elementChars_of_not_composite htc, ← elementChars_of_not_composite huc, elementChars_eq t,
    elementChars_eq u, List.append_assoc, List.append_assoc] at h
  obtain ⟨hcore, hrest⟩ := elementChars_inj ht.core hu.core (core_ne_array t) (core_ne_array u)
    hparts hself (noLetter_brackets _ hr) (noLetter_brackets _ hs) h
  obtain ⟨hdepth, hrs⟩ := brackets_inj hr hs hrest
  exact ⟨eq_of_core_eq hcore hdepth, hrs⟩

/-- A type that is no union is determined if all lower types are. -/
theorem chars_inj_of_not_union (ht : t.Canonical) (hu : u.Canonical)
    (htu : ∀ us, t ≠ union us) (huu : ∀ us, u ≠ union us)
    (hbelow : ∀ v : Ty, v.height < t.height → v.Canonical → v.Determined)
    (hr : EndsAlternative r) (hs : EndsAlternative s) (h : t.chars ++ r = u.chars ++ s) :
    t = u ∧ r = s := by
  rw [chars_eq_factors ht.algebraic, chars_eq_factors hu.algebraic] at h
  have hfactors : t.factors = u.factors ∧ r = s := by
    refine eq_of_separated (fun r => Or.inr (List.prefix_append _ r))
      (fun r hr => ⟨Or.inl hr, hr.not_separator⟩) ht.algebraic.factors_ne_nil
      hu.algebraic.factors_ne_nil ?_ hr hs h
    intro a ha b hb r s hr hs heq
    obtain ⟨hac, hacomp, hheight⟩ := ht.factor htu ha
    obtain ⟨hbc, hbcomp, -⟩ := hu.factor huu hb
    exact chars_inj_of_not_composite hac hbc hacomp hbcomp
      (fun v hv => hbelow v (Nat.lt_of_lt_of_le hv hheight)) hr hs heq
  exact ⟨eq_of_factors_eq ht.algebraic hu.algebraic hfactors.1, hfactors.2⟩

/-- **Types in which unions are grouped are determined by their texts.** -/
theorem determined_of_canonical (ht : t.Canonical) : t.Determined := by
  induction hn : t.height using Nat.strongRecOn generalizing t with
  | ind n ih =>
    subst hn
    intro u hu r s hr hs h
    rw [chars_eq_members ht.algebraic, chars_eq_members hu.algebraic] at h
    have hmembers : t.members = u.members ∧ r = s := by
      refine eq_of_separated (fun r => Or.inr (List.prefix_append _ r))
        (fun r hr => ⟨Or.inl hr, hr.not_separator⟩) ht.algebraic.members_ne_nil
        hu.algebraic.members_ne_nil ?_ hr hs h
      intro m hm n hn r s hr hs heq
      obtain ⟨hmc, hmunion, hheight⟩ := ht.member hm
      obtain ⟨hnc, hnunion, -⟩ := hu.member hn
      exact chars_inj_of_not_union hmc hnc hmunion hnunion
        (fun v hv hvc => ih v.height (Nat.lt_of_lt_of_le hv hheight) hvc rfl) hr hs heq
    exact ⟨eq_of_members_eq ht.algebraic hu.algebraic hmembers.1, hmembers.2⟩

end

end Ty

end PropCheck
