import PropCheck.Proofs.TypeTexts

/-!
# What the text of a type is read as

Members of unions and intersections stand in no parentheses, so a union directly inside an
intersection cannot be told from an intersection directly inside a union.  A reader takes `&` to
bind tighter than `|`.  Two types have the same text exactly if they are read as the same type.

* `Ty.fuse`, `Ty.alternatives`: the alternatives that a text shows, each by its factors.
* `Ty.reading`: the type that the text of a type is read as.
* `Ty.Clean`, `Ty.shown`: alternatives that have a text, and this text.
* `Ty.Combines`: what unions and intersections have in common; `Ty.combines_append` and
  `Ty.combines_fuse` are the two cases.
* `Ty.reads_alternatives`: the alternatives of a type have its text.
* `Ty.texts_determine_readings`: which types have the same text.
-/

namespace PropCheck.Ty

/-! ### Readings -/

/-- Alternatives behind alternatives with `&` between them: the last of the first ones and the first
of the others become one. -/
def fuse : List (List Ty) → List (List Ty) → List (List Ty)
  | [], bs => bs
  | [a], [] => [a]
  | [a], b :: bs => (a ++ b) :: bs
  | a :: a' :: as, bs => a :: fuse (a' :: as) bs

/-- The type of a list of factors: the one itself for one. -/
def ofFactors : List Ty → Ty
  | [t] => t
  | ts => intersection ts

/-- The type of some alternatives, each given by its factors. -/
def ofReading (alternatives : List (List Ty)) : Ty :=
  ofAlternatives (alternatives.map ofFactors)

mutual

/-- The alternatives that the text of a type shows, each by its factors. -/
def alternatives : Ty → List (List Ty)
  | array t => [[array (ofReading (alternatives t))]]
  | tuple ts => [[tuple (readings ts)]]
  | union ts => unionAlternatives ts
  | intersection ts => intersectionAlternatives ts
  | t => [[t]]

def readings : List Ty → List Ty
  | [] => []
  | t :: ts => ofReading (alternatives t) :: readings ts

/-- The alternatives of some types with `|` between them. -/
def unionAlternatives : List Ty → List (List Ty)
  | [] => []
  | t :: ts => alternatives t ++ unionAlternatives ts

/-- The alternatives of some types with `&` between them. -/
def intersectionAlternatives : List Ty → List (List Ty)
  | [] => []
  | t :: ts => fuse (alternatives t) (intersectionAlternatives ts)

end

/-- The type that the text of a type is read as, if `&` binds tighter than `|`. -/
def reading (t : Ty) : Ty :=
  ofReading (alternatives t)

theorem readings_eq_map (ts : List Ty) : readings ts = ts.map reading := by
  induction ts with
  | nil => rfl
  | cons t ts ih =>
    show reading t :: readings ts = reading t :: ts.map reading
    rw [ih]

theorem unionAlternatives_eq_foldr (ts : List Ty) :
    unionAlternatives ts = (ts.map alternatives).foldr (· ++ ·) [] := by
  induction ts with
  | nil => rfl
  | cons t ts ih =>
    show alternatives t ++ unionAlternatives ts = _
    rw [ih]
    rfl

theorem intersectionAlternatives_eq_foldr (ts : List Ty) :
    intersectionAlternatives ts = (ts.map alternatives).foldr fuse [] := by
  induction ts with
  | nil => rfl
  | cons t ts ih =>
    show fuse (alternatives t) (intersectionAlternatives ts) = _
    rw [ih]
    rfl

/-! ### Texts of alternatives -/

/-- There are alternatives, each has factors, and the factors are no unions or intersections. -/
structure Clean (alternatives : List (List Ty)) : Prop where
  not_nil : alternatives ≠ []
  factors_not_nil : ∀ factors ∈ alternatives, factors ≠ []
  factor : ∀ factors ∈ alternatives, ∀ a ∈ factors, a.Canonical ∧ a.isComposite = false

/-- The text of some factors. -/
def shownFactors (factors : List Ty) : List Char :=
  " & ".toList.intercalate (factors.map chars)

/-- The text of some alternatives. -/
def shown (alternatives : List (List Ty)) : List Char :=
  " | ".toList.intercalate (alternatives.map shownFactors)

theorem intercalate_append {separator : List Char} {xs ys : List (List Char)} (hxs : xs ≠ [])
    (hys : ys ≠ []) :
    separator.intercalate (xs ++ ys)
      = separator.intercalate xs ++ separator ++ separator.intercalate ys := by
  induction xs with
  | nil => exact absurd rfl hxs
  | cons x xs ih =>
    cases xs with
    | nil =>
      rw [List.singleton_append, List.intercalate_cons_of_ne_nil hys, List.intercalate_singleton]
    | cons x' xs =>
      have hrest := ih (List.cons_ne_nil _ _)
      rw [List.cons_append, List.cons_append, List.intercalate_cons_cons,
        List.intercalate_cons_cons, ← List.cons_append, hrest]
      simp only [List.append_assoc]

theorem shown_cons {a : List Ty} {as : List (List Ty)} (h : as ≠ []) :
    shown (a :: as) = shownFactors a ++ " | ".toList ++ shown as := by
  have hmap : as.map shownFactors ≠ [] := by
    simpa using h
  exact List.intercalate_cons_of_ne_nil hmap

theorem shown_singleton (a : List Ty) : shown [a] = shownFactors a :=
  List.intercalate_singleton

theorem fuse_nil (as : List (List Ty)) : fuse as [] = as := by
  induction as with
  | nil => rfl
  | cons a as ih =>
    cases as with
    | nil => rfl
    | cons a' as =>
      show a :: fuse (a' :: as) [] = a :: a' :: as
      rw [ih]

theorem fuse_ne_nil {as : List (List Ty)} (h : as ≠ []) (bs : List (List Ty)) :
    fuse as bs ≠ [] := by
  match as, bs with
  | [], _ => exact absurd rfl h
  | [_], [] | [_], _ :: _ => exact List.cons_ne_nil _ _
  | _ :: _ :: _, _ => exact List.cons_ne_nil _ _

theorem flatten_fuse (as bs : List (List Ty)) :
    (fuse as bs).flatten = as.flatten ++ bs.flatten := by
  induction as with
  | nil => rfl
  | cons a as ih =>
    cases as with
    | nil => cases bs <;> simp [fuse]
    | cons a' as =>
      show a ++ (fuse (a' :: as) bs).flatten = _
      rw [ih, List.flatten_cons (l := a), List.append_assoc]

/-- What holds of all factors, and of factors put together, holds after fusing. -/
theorem forall_mem_fuse {motive : List Ty → Prop} {as bs : List (List Ty)}
    (happend : ∀ a b, motive a → motive b → motive (a ++ b)) (has : ∀ a ∈ as, motive a)
    (hbs : ∀ b ∈ bs, motive b) : ∀ a ∈ fuse as bs, motive a := by
  induction as with
  | nil => exact hbs
  | cons a as ih =>
    cases as with
    | nil =>
      cases bs with
      | nil => exact has
      | cons b bs =>
        rw [List.forall_mem_cons] at has hbs
        exact List.forall_mem_cons.mpr ⟨happend a b has.1 hbs.1, hbs.2⟩
    | cons a' as =>
      rw [List.forall_mem_cons] at has
      exact List.forall_mem_cons.mpr ⟨has.1, ih has.2⟩

theorem Clean.fuse {as bs : List (List Ty)} (has : Clean as) (hbs : Clean bs) :
    Clean (fuse as bs) := by
  refine ⟨fuse_ne_nil has.not_nil bs, ?_, ?_⟩
  · exact forall_mem_fuse (fun a b ha _ => List.append_ne_nil_of_left_ne_nil ha b)
      has.factors_not_nil hbs.factors_not_nil
  · exact forall_mem_fuse (fun a b ha hb => List.forall_mem_append.mpr ⟨ha, hb⟩) has.factor
      hbs.factor

theorem shown_append_cons {a b : List Ty} (ha : a ≠ []) (hb : b ≠ []) (bs : List (List Ty)) :
    shown ((a ++ b) :: bs) = shownFactors a ++ " & ".toList ++ shown (b :: bs) := by
  have hjoin : shownFactors (a ++ b) = shownFactors a ++ " & ".toList ++ shownFactors b := by
    have ha' : a.map chars ≠ [] := by simpa using ha
    have hb' : b.map chars ≠ [] := by simpa using hb
    rw [shownFactors, List.map_append, intercalate_append ha' hb']
    rfl
  cases bs with
  | nil => rw [shown_singleton, shown_singleton, hjoin]
  | cons b' bs =>
    rw [shown_cons (List.cons_ne_nil _ _), shown_cons (List.cons_ne_nil _ _), hjoin]
    simp only [List.append_assoc]

theorem shown_fuse {as bs : List (List Ty)} (has : Clean as) (hbs : Clean bs) :
    shown (fuse as bs) = shown as ++ " & ".toList ++ shown bs := by
  have hnil := has.not_nil
  have hfactors := has.factors_not_nil
  clear has
  induction as with
  | nil => exact absurd rfl hnil
  | cons a as ih =>
    cases as with
    | nil =>
      cases bs with
      | nil => exact absurd rfl hbs.not_nil
      | cons b bs =>
        show shown ((a ++ b) :: bs) = _
        rw [shown_singleton, shown_append_cons (hfactors a List.mem_cons_self)
          (hbs.factors_not_nil b List.mem_cons_self)]
    | cons a' as =>
      have hrest := ih (List.cons_ne_nil _ _)
        fun factors hmem => hfactors factors (List.mem_cons_of_mem a hmem)
      show shown (a :: fuse (a' :: as) bs) = _
      rw [shown_cons (fuse_ne_nil (List.cons_ne_nil _ _) bs), hrest,
        shown_cons (List.cons_ne_nil _ _)]
      simp only [List.append_assoc]

/-! ### Types of alternatives -/

theorem chars_ofFactors {factors : List Ty} (hnil : factors ≠ [])
    (h : (ofFactors factors).Algebraic) : (ofFactors factors).chars = shownFactors factors := by
  match factors with
  | [] => exact absurd rfl hnil
  | [a] => exact List.intercalate_singleton.symm
  | a :: b :: factors => exact chars_intersection h

theorem ne_of_not_composite {a b : Ty} (ha : a.isComposite = false) (hb : b.isComposite = true) :
    a ≠ b := by
  intro heq
  rw [heq, hb] at ha
  cases ha

/-- A list of factors is a canonical type that is no union. -/
theorem canonical_ofFactors {factors : List Ty} (hnil : factors ≠ [])
    (h : ∀ a ∈ factors, a.Canonical ∧ a.isComposite = false) :
    (ofFactors factors).Canonical ∧ ∀ us, ofFactors factors ≠ union us := by
  match factors with
  | [] => exact absurd rfl hnil
  | [a] =>
    obtain ⟨hcanonical, hcomposite⟩ := h a List.mem_cons_self
    exact ⟨hcanonical, fun _ => ne_of_not_composite hcomposite rfl⟩
  | a :: b :: factors =>
    have halgebraic : (intersection (a :: b :: factors)).Algebraic :=
      algebraic_iff.mpr ⟨⟨by simp, fun c hc _ => ne_of_not_composite (h c hc).2 rfl⟩,
        fun c hc => (h c hc).1.algebraic⟩
    have hgrouped : (intersection (a :: b :: factors)).Grouped :=
      grouped_iff.mpr ⟨fun c hc _ => ne_of_not_composite (h c hc).2 rfl,
        fun c hc => (h c hc).1.grouped⟩
    exact ⟨⟨halgebraic, hgrouped⟩, fun _ => Ty.noConfusion⟩

theorem Clean.canonical_ofFactors {as : List (List Ty)} (h : Clean as) {factors : List Ty}
    (hmem : factors ∈ as) : (ofFactors factors).Canonical ∧ ∀ us, ofFactors factors ≠ union us :=
  Ty.canonical_ofFactors (h.factors_not_nil factors hmem) (h.factor factors hmem)

/-- Alternatives are a canonical type. -/
theorem Clean.canonical {as : List (List Ty)} (h : Clean as) : (ofReading as).Canonical := by
  have hmember : ∀ t ∈ as.map ofFactors, t.Canonical ∧ ∀ us, t ≠ union us := by
    intro t ht
    obtain ⟨factors, hmem, rfl⟩ := List.mem_map.mp ht
    exact h.canonical_ofFactors hmem
  have hnil := h.not_nil
  match as with
  | [] => exact absurd rfl hnil
  | [a] => exact (hmember _ List.mem_cons_self).1
  | a :: b :: as =>
    have halgebraic : (union ((a :: b :: as).map ofFactors)).Algebraic :=
      algebraic_iff.mpr ⟨⟨by simp, fun t ht => (hmember t ht).2⟩,
        fun t ht => (hmember t ht).1.algebraic⟩
    have hgrouped : (union ((a :: b :: as).map ofFactors)).Grouped :=
      grouped_iff.mpr ⟨trivial, fun t ht => (hmember t ht).1.grouped⟩
    exact ⟨halgebraic, hgrouped⟩

/-- The type of some alternatives has their text. -/
theorem Clean.chars {as : List (List Ty)} (h : Clean as) : (ofReading as).chars = shown as := by
  have hchars : ∀ factors ∈ as, (ofFactors factors).chars = shownFactors factors :=
    fun factors hmem => chars_ofFactors (h.factors_not_nil factors hmem)
      (h.canonical_ofFactors hmem).1.algebraic
  have hnil := h.not_nil
  match as with
  | [] => exact absurd rfl hnil
  | [a] =>
    rw [shown_singleton]
    exact hchars a List.mem_cons_self
  | a :: b :: as =>
    have halgebraic : (union ((a :: b :: as).map ofFactors)).Algebraic := h.canonical.algebraic
    show (union ((a :: b :: as).map ofFactors)).chars = _
    rw [chars_union halgebraic, List.map_map]
    exact congrArg _ (List.map_congr_left hchars)

/-- Alternatives are a union or an intersection if they have more than one factor in all. -/
theorem Clean.isComposite {as : List (List Ty)} (h : Clean as) :
    (ofReading as).isComposite = true ↔ 2 ≤ as.flatten.length := by
  have hnil := h.not_nil
  match as with
  | [] => exact absurd rfl hnil
  | [[]] => exact absurd rfl (h.factors_not_nil [] List.mem_cons_self)
  | [[a]] =>
    have hcomposite := (h.factor [a] List.mem_cons_self a List.mem_cons_self).2
    show a.isComposite = true ↔ _
    simp [hcomposite]
  | [a :: b :: factors] => simp [ofReading, ofAlternatives, ofFactors, Ty.isComposite]
  | a :: b :: as =>
    have ha := List.length_pos_iff.mpr (h.factors_not_nil a List.mem_cons_self)
    have hb := List.length_pos_iff.mpr
      (h.factors_not_nil b (List.mem_cons_of_mem a List.mem_cons_self))
    have htwo : 2 ≤ (a :: b :: as).flatten.length := by
      simp only [List.flatten_cons, List.length_append]
      omega
    exact ⟨fun _ => htwo, fun _ => rfl⟩

/-! ### The alternatives of a type have its text -/

/-- The alternatives have the text of the type, and stand in parentheses where it does. -/
structure Reads (t : Ty) (as : List (List Ty)) : Prop where
  clean : Clean as
  text : shown as = t.chars
  composite : t.isComposite = true ↔ 2 ≤ as.flatten.length

/-- Putting alternatives behind others writes a separator between their texts. -/
structure Combines (separator : List Char)
    (combine : List (List Ty) → List (List Ty) → List (List Ty)) : Prop where
  nil : ∀ as, combine as [] = as
  clean : ∀ {as bs}, Clean as → Clean bs → Clean (combine as bs)
  text : ∀ {as bs}, Clean as → Clean bs →
    shown (combine as bs) = shown as ++ separator ++ shown bs
  flatten : ∀ as bs, (combine as bs).flatten = as.flatten ++ bs.flatten

theorem combines_append : Combines " | ".toList (· ++ ·) where
  nil := List.append_nil
  clean has hbs := by
    refine ⟨List.append_ne_nil_of_left_ne_nil has.not_nil _, ?_, ?_⟩
    · exact List.forall_mem_append.mpr ⟨has.factors_not_nil, hbs.factors_not_nil⟩
    · exact List.forall_mem_append.mpr ⟨has.factor, hbs.factor⟩
  text {as bs} has hbs := by
    have hmapped : ∀ {cs : List (List Ty)}, Clean cs → cs.map shownFactors ≠ [] := by
      intro cs hcs
      simpa using hcs.not_nil
    show " | ".toList.intercalate ((as ++ bs).map shownFactors) = _
    rw [List.map_append, intercalate_append (hmapped has) (hmapped hbs)]
    rfl
  flatten as bs := List.flatten_append

theorem combines_fuse : Combines " & ".toList Ty.fuse where
  nil := fuse_nil
  clean := Clean.fuse
  text := shown_fuse
  flatten := flatten_fuse

/-- The alternatives of all members, put behind each other, have the texts of the members with
separators between them, and at least as many factors as there are members. -/
theorem Combines.members {separator : List Char}
    {combine : List (List Ty) → List (List Ty) → List (List Ty)}
    (hcombine : Combines separator combine) {ts : List Ty} (hnil : ts ≠ [])
    (h : ∀ t ∈ ts, Reads t (alternatives t)) :
    Clean ((ts.map alternatives).foldr combine []) ∧
      shown ((ts.map alternatives).foldr combine []) = separator.intercalate (ts.map Ty.chars) ∧
      ts.length ≤ ((ts.map alternatives).foldr combine []).flatten.length := by
  induction ts with
  | nil => exact absurd rfl hnil
  | cons t ts ih =>
    have ht := h t List.mem_cons_self
    have hfactor : 0 < (alternatives t).flatten.length := by
      refine List.length_pos_iff.mpr fun hflatten => ?_
      obtain ⟨a, as, has⟩ := List.exists_cons_of_ne_nil ht.clean.not_nil
      have ha : a ∈ alternatives t := has ▸ List.mem_cons_self
      exact ht.clean.factors_not_nil a ha (List.flatten_eq_nil_iff.mp hflatten a ha)
    cases ts with
    | nil =>
      show Clean (combine (alternatives t) []) ∧ shown (combine (alternatives t) []) = _ ∧
        1 ≤ (combine (alternatives t) []).flatten.length
      rw [hcombine.nil]
      exact ⟨ht.clean, ht.text.trans List.intercalate_singleton.symm, hfactor⟩
    | cons u ts =>
      obtain ⟨hclean, htext, hlength⟩ := ih (List.cons_ne_nil _ _)
        fun v hv => h v (List.mem_cons_of_mem t hv)
      rw [List.map_cons, List.foldr_cons]
      refine ⟨hcombine.clean ht.clean hclean, ?_, ?_⟩
      · rw [hcombine.text ht.clean hclean, ht.text, htext]
        exact List.intercalate_cons_cons.symm
      · rw [hcombine.flatten, List.length_append, List.length_cons]
        omega

/-- A type that is no union or intersection, and canonical, shows itself. -/
theorem reads_singleton {t u : Ty} (hu : u.Canonical) (hcomposite : u.isComposite = false)
    (htext : u.chars = t.chars) (ht : t.isComposite = false) : Reads t [[u]] where
  clean :=
    { not_nil := List.cons_ne_nil _ _
      factors_not_nil := by simp
      factor := by simp [hu, hcomposite] }
  text := by
    rw [shown_singleton, ← htext]
    exact List.intercalate_singleton
  composite := by simp [ht]

theorem Reads.chars_reading {t : Ty} (h : Reads t (alternatives t)) : t.reading.chars = t.chars :=
  h.clean.chars.trans h.text

theorem Reads.isComposite_reading {t : Ty} (h : Reads t (alternatives t)) :
    t.reading.isComposite = t.isComposite :=
  Bool.eq_iff_iff.mpr (h.clean.isComposite.trans h.composite.symm)

/-- An element is in parentheses exactly if what it is read as is. -/
theorem Reads.elementChars_reading {t : Ty} (h : Reads t (alternatives t)) :
    t.reading.elementChars = t.elementChars := by
  have htext : t.reading.text = t.text := String.toList_inj.mp h.chars_reading
  show (parenthesized t.reading.isComposite t.reading.text).toList = _
  rw [h.isComposite_reading, htext]
  rfl

theorem Canonical.array {t : Ty} (h : t.Canonical) : (array t).Canonical where
  algebraic := algebraic_iff.mpr ⟨trivial, fun u hu => by
    obtain rfl := List.mem_singleton.mp hu
    exact h.algebraic⟩
  grouped := grouped_iff.mpr ⟨trivial, fun u hu => by
    obtain rfl := List.mem_singleton.mp hu
    exact h.grouped⟩

theorem Canonical.tuple {ts : List Ty} (h : ∀ t ∈ ts, t.Canonical) : (tuple ts).Canonical where
  algebraic := algebraic_iff.mpr ⟨trivial, fun t ht => (h t ht).algebraic⟩
  grouped := grouped_iff.mpr ⟨trivial, fun t ht => (h t ht).grouped⟩

/-- **The alternatives of a type have its text.** -/
theorem reads_alternatives {t : Ty} (h : t.Algebraic) : Reads t (alternatives t) := by
  induction hn : t.height using Nat.strongRecOn generalizing t with
  | ind n ih =>
    subst hn
    have hpart : ∀ u ∈ t.parts, Reads u (alternatives u) :=
      fun u hu => ih u.height (height_lt_of_mem_parts hu) (h.part hu) rfl
    cases t with
    | keyword k =>
      have hcanonical : (keyword k).Canonical :=
        ⟨h, grouped_iff.mpr ⟨trivial, fun u hu => absurd hu List.not_mem_nil⟩⟩
      exact reads_singleton hcanonical rfl rfl rfl
    | array u =>
      have hu := hpart u (List.mem_singleton_self u)
      show Reads (array u) [[array u.reading]]
      refine reads_singleton hu.clean.canonical.array rfl ?_ rfl
      rw [chars_array, chars_array, hu.elementChars_reading]
    | tuple ts =>
      show Reads (tuple ts) [[tuple (readings ts)]]
      rw [readings_eq_map]
      refine reads_singleton (Canonical.tuple ?_) rfl ?_ rfl
      · intro v hv
        obtain ⟨u, hu, rfl⟩ := List.mem_map.mp hv
        exact (hpart u hu).clean.canonical
      · have htexts : (ts.map reading).map chars = ts.map chars := by
          rw [List.map_map]
          exact List.map_congr_left fun u hu => (hpart u hu).chars_reading
        rw [chars_tuple, chars_tuple, htexts]
    | union ts =>
      obtain ⟨hclean, htext, hlength⟩ := combines_append.members h.members_ne_nil hpart
      show Reads (union ts) (unionAlternatives ts)
      rw [unionAlternatives_eq_foldr]
      exact ⟨hclean, htext.trans (chars_union h).symm,
        fun _ => Nat.le_trans h.here.1 hlength, fun _ => rfl⟩
    | intersection ts =>
      obtain ⟨hclean, htext, hlength⟩ := combines_fuse.members h.factors_ne_nil hpart
      show Reads (intersection ts) (intersectionAlternatives ts)
      rw [intersectionAlternatives_eq_foldr]
      exact ⟨hclean, htext.trans (chars_intersection h).symm,
        fun _ => Nat.le_trans h.here.1 hlength, fun _ => rfl⟩
    | _ => exact absurd h.here id

/-! ### Which types have the same text -/

theorem Algebraic.text_reading {t : Ty} (h : t.Algebraic) : t.reading.text = t.text :=
  String.toList_inj.mp (reads_alternatives h).chars_reading

theorem Algebraic.canonical_reading {t : Ty} (h : t.Algebraic) : t.reading.Canonical :=
  (reads_alternatives h).clean.canonical

/-- Canonical types with the same text are the same. -/
theorem Canonical.eq_of_text_eq {t u : Ty} (ht : t.Canonical) (hu : u.Canonical)
    (h : t.text = u.text) : t = u := by
  have hchars : t.chars ++ [] = u.chars ++ [] := congrArg (fun s => s.toList ++ []) h
  exact (determined_of_canonical ht u hu [] [] trivial trivial hchars).1

theorem Algebraic.text_eq_iff {t u : Ty} (ht : t.Algebraic) (hu : u.Algebraic) :
    t.text = u.text ↔ t.reading = u.reading := by
  rw [← ht.text_reading, ← hu.text_reading]
  exact ⟨ht.canonical_reading.eq_of_text_eq hu.canonical_reading, congrArg text⟩

theorem Algebraic.reading_eq_self_iff {t : Ty} (h : t.Algebraic) : t.reading = t ↔ t.Grouped := by
  constructor
  · intro hself
    rw [← hself]
    exact h.canonical_reading.grouped
  · intro hgrouped
    exact h.canonical_reading.eq_of_text_eq ⟨h, hgrouped⟩ h.text_reading

/-- **Two types have the same text exactly if they are read as the same type.**  A type is read as
itself exactly if no union is directly inside an intersection in it, and types of which this holds
are told apart by their texts. -/
theorem texts_determine_readings {t u : Ty} (ht : t.Algebraic) (hu : u.Algebraic) :
    (t.text = u.text ↔ t.reading = u.reading) ∧
      (t.reading = t ↔ t.Grouped) ∧
      (t.Grouped → u.Grouped → t.text = u.text → t = u) := by
  refine ⟨ht.text_eq_iff hu, ht.reading_eq_self_iff, fun htg hug htext => ?_⟩
  exact Canonical.eq_of_text_eq ⟨ht, htg⟩ ⟨hu, hug⟩ htext

/-- The element type of the second array is what the first one's is read as. -/
theorem texts_determine_readings_arrays :
    let t := array (intersection [union [keyword .string, keyword .number], keyword .bigint])
    let u := array (union [keyword .string, intersection [keyword .number, keyword .bigint]])
    t.Algebraic ∧ u.Algebraic ∧ t.reading = u.reading ∧ t.reading ≠ t ∧ u.reading = u := by
  intro t u
  have ht : t.Algebraic := by
    simp [t, Algebraic, inside, insideAll, AlgebraicHere]
  have hu : u.Algebraic := by
    simp [u, Algebraic, inside, insideAll, AlgebraicHere]
  have htg : ¬ t.Grouped := by
    simp [t, Grouped, inside, insideAll, GroupedHere]
  have hug : u.Grouped := by
    simp [u, Grouped, inside, insideAll, GroupedHere]
  have htext : t.text = u.text := rfl
  obtain ⟨hsame, hself, -⟩ := texts_determine_readings ht hu
  exact ⟨ht, hu, hsame.mp htext, fun hread => htg (hself.mp hread),
    (texts_determine_readings hu ht).2.1.mpr hug⟩

/-- Two types with the same text: a union inside an intersection, and an intersection inside a
union. -/
theorem text_hides_grouping :
    let t := intersection [union [keyword .string, keyword .number], keyword .bigint]
    let u := union [keyword .string, intersection [keyword .number, keyword .bigint]]
    t.Algebraic ∧ u.Algebraic ∧
      t.text = "string | number & bigint" ∧ u.text = "string | number & bigint" ∧ t ≠ u := by
  intro t u
  refine ⟨?_, ?_, rfl, rfl, Ty.noConfusion⟩
  · simp [t, Algebraic, inside, insideAll, AlgebraicHere]
  · simp [u, Algebraic, inside, insideAll, AlgebraicHere]

end PropCheck.Ty
