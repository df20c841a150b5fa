import Mathlib.Data.List.FinRange
import PropCheck.Check.Imports

/-!
# Which component an import takes

The imports are taken in their order, and each takes the first component of its name that is still
free.  So of each name the first import takes the first component, the second import the second, and
so on as long as there are both; every other import takes none, and every other component is left.

* `Check.Matching`: what a run of the matching does, import by import.
* `Check.matching_matchByName`: the matching is such a run.
* `Check.Matching.sublist_clauses`, `Check.Matching.sublist_components`: imports and components keep
  their order.
* `Check.Matching.perm`: no component is lost and none is used twice.
* `Check.Matching.filter_eq_zip`: of each name the imports and the components are paired from the
  first on.
* `Check.matchByName_map`: the matching looks at nothing but the names.
* `Check.IsKth`: a place of a list is that of the `k`-th thing of a name.
* `Check.matched_kth_to_kth`: the places of the imports and of the components that are paired.
-/

namespace PropCheck.Check

variable {α β γ δ : Type}

/-! ### The first that fits -/

theorem eq_false_of_extract? {test : α → Bool} {as : List α} (h : extract? test as = none) :
    ∀ a ∈ as, test a = false := by
  induction as with
  | nil => exact fun a ha => absurd ha List.not_mem_nil
  | cons a as ih =>
    rw [extract?] at h
    split at h
    · cases h
    · rename_i htest
      have hrest := ih (Option.map_eq_none_iff.mp h)
      exact List.forall_mem_cons.mpr ⟨eq_false_of_ne_true htest, hrest⟩

/-- What is taken is the first that fits; the others stay in their order. -/
theorem exists_of_extract? {test : α → Bool} {as bs : List α} {b : α}
    (h : extract? test as = some (b, bs)) : ∃ before after, as = before ++ b :: after ∧
      bs = before ++ after ∧ test b = true ∧ ∀ a ∈ before, test a = false := by
  induction as generalizing bs with
  | nil => cases h
  | cons a as ih =>
    rw [extract?] at h
    split at h
    · rename_i htest
      cases h
      exact ⟨[], _, rfl, rfl, htest, fun a ha => absurd ha List.not_mem_nil⟩
    · rename_i htest
      obtain ⟨⟨c, cs⟩, hextract, hpair⟩ := Option.map_eq_some_iff.mp h
      cases hpair
      obtain ⟨before, after, rfl, rfl, hb, hbefore⟩ := ih hextract
      refine ⟨a :: before, after, rfl, rfl, hb, ?_⟩
      exact List.forall_mem_cons.mpr ⟨eq_false_of_ne_true htest, hbefore⟩

theorem extract?_map (f : γ → α) (test : α → Bool) (cs : List γ) :
    extract? test (cs.map f)
      = (extract? (fun c => test (f c)) cs).map fun (b, bs) => (f b, bs.map f) := by
  induction cs with
  | nil => rfl
  | cons c cs ih =>
    rw [List.map_cons, extract?, extract?, ih]
    split
    · rfl
    · rw [Option.map_map, Option.map_map]
      rfl

/-! ### Runs of the matching -/

/-- A run of the matching: an import passes if no free component has its name, and else it takes the
first one that has. -/
inductive Matching (importName : β → String) (componentName : α → String) :
    List β → List α → List (α × β) → List α → Prop
  | done (components : List α) : Matching importName componentName [] components [] components
  | pass {clause : β} {clauses : List β} {components unmatched : List α}
      {matched : List (α × β)} :
      (∀ c ∈ components, componentName c ≠ importName clause) →
      Matching importName componentName clauses components matched unmatched →
      Matching importName componentName (clause :: clauses) components matched unmatched
  | take {clause : β} {clauses : List β} {component : α} {before after unmatched : List α}
      {matched : List (α × β)} :
      componentName component = importName clause →
      (∀ c ∈ before, componentName c ≠ importName clause) →
      Matching importName componentName clauses (before ++ after) matched unmatched →
      Matching importName componentName (clause :: clauses) (before ++ component :: after)
        ((component, clause) :: matched) unmatched

/-- **The matching is a run.** -/
theorem matching_matchByName (importName : β → String) (componentName : α → String)
    (clauses : List β) (components : List α) :
    Matching importName componentName clauses components
      (matchByName importName componentName clauses components).1
      (matchByName importName componentName clauses components).2 := by
  induction clauses generalizing components with
  | nil => exact .done components
  | cons clause clauses ih =>
    rw [matchByName]
    split
    · rename_i component others hextract
      obtain ⟨before, after, rfl, rfl, hname, hbefore⟩ := exists_of_extract? hextract
      refine .take (beq_iff_eq.mp hname) (fun c hc => ?_) (ih (before ++ after))
      exact ne_of_beq_false (hbefore c hc)
    · rename_i hextract
      refine .pass (fun c hc => ?_) (ih components)
      exact ne_of_beq_false (eq_false_of_extract? hextract c hc)

variable {importName : β → String} {componentName : α → String}

namespace Matching

variable {clauses : List β} {components unmatched : List α} {matched : List (α × β)}

/-- The imports that take a component keep their order. -/
theorem sublist_clauses
    (h : Matching importName componentName clauses components matched unmatched) :
    (matched.map Prod.snd).Sublist clauses := by
  induction h with
  | done components => exact List.nil_sublist []
  | pass _ _ ih => exact ih.cons _
  | take _ _ _ ih => exact ih.cons_cons _

/-- The components that are left keep their order. -/
theorem sublist_components
    (h : Matching importName componentName clauses components matched unmatched) :
    unmatched.Sublist components := by
  induction h with
  | done components => exact List.Sublist.refl components
  | pass _ _ ih => exact ih
  | @take _ _ component before after _ _ _ _ _ ih =>
    exact ih.trans (List.Sublist.append_left (List.sublist_cons_self component after) before)

/-- **No component is lost and none is used twice.** -/
theorem perm (h : Matching importName componentName clauses components matched unmatched) :
    (matched.map Prod.fst ++ unmatched).Perm components := by
  induction h with
  | done components => exact List.Perm.refl components
  | pass _ _ ih => exact ih
  | take _ _ _ ih => exact (ih.cons _).trans List.perm_middle.symm

/-- **Of each name, imports and components are paired from the first on.** -/
theorem filter_eq_zip
    (h : Matching importName componentName clauses components matched unmatched) (n : String) :
    matched.filter (importName ·.2 == n)
      = (components.filter (componentName · == n)).zip (clauses.filter (importName · == n)) := by
  induction h with
  | done components => exact (List.zip_nil_right).symm
  | @pass clause clauses components _ _ hnone _ ih =>
    by_cases hn : importName clause = n
    · subst hn
      have hempty : components.filter (componentName · == importName clause) = [] :=
        List.filter_eq_nil_iff.mpr fun c hc => by simpa using hnone c hc
      rw [ih, hempty, List.zip_nil_left, List.zip_nil_left]
    · rw [ih, List.filter_cons_of_neg (by simpa using hn)]
  | @take clause clauses component before after _ matched hname hnone _ ih =>
    by_cases hn : importName clause = n
    · subst hn
      have hempty : before.filter (componentName · == importName clause) = [] :=
        List.filter_eq_nil_iff.mpr fun c hc => by simpa using hnone c hc
      rw [List.filter_append, hempty, List.nil_append] at ih ⊢
      rw [List.filter_cons_of_pos (by simp), List.filter_cons_of_pos (by simpa using hname),
        List.filter_cons_of_pos (by simp), ih, List.zip_cons_cons]
    · have hn' : componentName component ≠ n := hname ▸ hn
      rw [List.filter_append] at ih ⊢
      rw [List.filter_cons_of_neg (by simpa using hn), List.filter_cons_of_neg (by simpa using hn'),
        List.filter_cons_of_neg (by simpa using hn), ih]

end Matching

/-! ### Places -/

/-- **The matching looks at nothing but the names.** -/
theorem matchByName_map (f : γ → α) (g : δ → β) (clauses : List δ) (components : List γ) :
    matchByName importName componentName (clauses.map g) (components.map f)
      = ((matchByName (fun d => importName (g d)) (fun c => componentName (f c)) clauses
            components).1.map fun p => (f p.1, g p.2),
        (matchByName (fun d => importName (g d)) (fun c => componentName (f c)) clauses
            components).2.map f) := by
  induction clauses generalizing components with
  | nil => rfl
  | cons clause clauses ih =>
    rw [List.map_cons, matchByName, matchByName, extract?_map]
    cases extract? (fun c => componentName (f c) == importName (g clause)) components with
    | none => exact ih components
    | some taken =>
      simp only [Option.map_some, ih]
      rfl

/-- The place of a list is that of the `k`-th thing of a name, counted from zero. -/
def IsKth (name : α → String) (things : List α) (n : String) (k : Nat)
    (place : Fin things.length) : Prop :=
  name (things.get place) = n ∧ (things.take place).countP (name · == n) = k

instance (name : α → String) (things : List α) (n : String) (k : Nat)
    (place : Fin things.length) : Decidable (IsKth name things n k place) :=
  inferInstanceAs (Decidable (_ ∧ _))

/-- The places of the things of a name, in order. -/
def placesOf (name : α → String) (things : List α) (n : String) : List (Fin things.length) :=
  (List.finRange things.length).filter fun place => name (things.get place) == n

/-- A thing that passes stands among those that pass behind as many as passed before. -/
theorem getElem?_filter_countP {p : α → Bool} (as : List α) {i : Nat} (hi : i < as.length)
    (hp : p as[i] = true) : (as.filter p)[(as.take i).countP p]? = some as[i] := by
  have hsplit : as.filter p = (as.take i).filter p ++ as[i] :: (as.drop (i + 1)).filter p := by
    rw [← List.filter_cons_of_pos hp, ← List.drop_eq_getElem_cons hi, ← List.filter_append,
      List.take_append_drop]
  rw [hsplit, List.countP_eq_length_filter, List.getElem?_append_right (Nat.le_refl _),
    Nat.sub_self]
  rfl

section

variable {name : α → String} {things : List α} {n : String} {k : Nat} {place : Fin things.length}

/-- As many places of a name stand before a place as there are things of the name before it. -/
theorem countP_take_finRange :
    ((List.finRange things.length).take place).countP (fun i => name (things.get i) == n)
      = (things.take place).countP (name · == n) := by
  have htake : things.take place = ((List.finRange things.length).take place).map things.get := by
    rw [List.map_take, List.map_get_finRange]
  rw [htake, List.countP_map]
  rfl

theorem IsKth.getElem?_placesOf (h : IsKth name things n k place) :
    (placesOf name things n)[k]? = some place := by
  obtain ⟨hname, rfl⟩ := h
  have hplace : place < (List.finRange things.length).length := by
    rw [List.length_finRange]
    exact place.2
  have hget : (List.finRange things.length)[(place : Nat)] = place := by
    simp
  have hpasses : (name (things.get (List.finRange things.length)[(place : Nat)]) == n) = true := by
    rw [hget]
    exact beq_iff_eq.mpr hname
  rw [← countP_take_finRange, placesOf, getElem?_filter_countP _ hplace hpasses, hget]

/-- **The `k`-th of the places of a name is the place of the `k`-th thing of the name.** -/
theorem getElem?_placesOf_iff :
    (placesOf name things n)[k]? = some place ↔ IsKth name things n k place := by
  constructor
  · intro h
    have hname : name (things.get place) = n :=
      beq_iff_eq.mp (List.mem_filter.mp (List.mem_of_getElem? h)).2
    -- the place is met at its own count too, and no place is met twice
    have hcount : IsKth name things n _ place := ⟨hname, rfl⟩
    have hnodup : (placesOf name things n).Nodup := (List.nodup_finRange _).filter _
    have hk : k < (placesOf name things n).length := (List.getElem?_eq_some_iff.mp h).1
    have heq := (List.getElem?_inj hk hnodup).mp (h.trans hcount.getElem?_placesOf.symm)
    exact heq ▸ hcount
  · exact IsKth.getElem?_placesOf

end

/-- **A run at the places of two lists** pairs an import with the component of its name and count.
-/
theorem Matching.mem_iff_isKth {clauses : List β} {components : List α}
    {pairs : List (Fin components.length × Fin clauses.length)}
    {free : List (Fin components.length)}
    (h : Matching (fun i => importName (clauses.get i)) (fun c => componentName (components.get c))
      (List.finRange clauses.length) (List.finRange components.length) pairs free)
    {n : String} {k : Nat} {i : Fin clauses.length} {c : Fin components.length}
    (hi : IsKth importName clauses n k i) :
    (c, i) ∈ pairs ↔ IsKth componentName components n k c := by
  have hplaces : (c, i) ∈ pairs
      ↔ (c, i) ∈ (placesOf componentName components n).zip (placesOf importName clauses n) := by
    have hfilter := h.filter_eq_zip n
    rw [placesOf, placesOf, ← hfilter, List.mem_filter]
    exact (and_iff_left (beq_iff_eq.mpr hi.1)).symm
  rw [hplaces, List.mem_iff_getElem?]
  simp only [List.getElem?_zip_eq_some, getElem?_placesOf_iff]
  constructor
  · rintro ⟨l, hc, hi'⟩
    have hl : l = k := hi'.2.symm.trans hi.2
    exact hl ▸ hc
  · exact fun hc => ⟨k, hc, hi⟩

/-- **Import matching pairs the `k`-th import of a name with the `k`-th component of the name.** The
pairs and the components that are left are at places of the two lists.  Each place of a component is
met exactly once, in a pair or among those that are left; the imports of the pairs stand in their
order, so none is met twice, and so do the components that are left.  And the `k`-th import of a
name is paired with a component exactly if this is the `k`-th component of the name; if there is
none, it is not paired. -/
theorem matched_kth_to_kth (importName : β → String) (componentName : α → String)
    (clauses : List β) (components : List α) :
    ∃ (pairs : List (Fin components.length × Fin clauses.length))
      (free : List (Fin components.length)),
      matchByName importName componentName clauses components
        = (pairs.map fun p => (components.get p.1, clauses.get p.2), free.map components.get) ∧
      (pairs.map Prod.fst ++ free).Perm (List.finRange components.length) ∧
      (pairs.map Prod.snd).Pairwise (· < ·) ∧ free.Pairwise (· < ·) ∧
      ∀ n k i, IsKth importName clauses n k i →
        ∀ c, (c, i) ∈ pairs ↔ IsKth componentName components n k c := by
  have hrun := matching_matchByName (fun i => importName (clauses.get i))
    (fun c => componentName (components.get c)) (List.finRange clauses.length)
    (List.finRange components.length)
  refine ⟨_, _, ?_, hrun.perm, ?_, ?_, fun n k i hi c => hrun.mem_iff_isKth hi⟩
  · conv_lhs => rw [← List.map_get_finRange clauses, ← List.map_get_finRange components]
    exact matchByName_map components.get clauses.get _ _
  · exact (List.pairwise_lt_finRange _).sublist hrun.sublist_clauses
  · exact (List.pairwise_lt_finRange _).sublist hrun.sublist_components

/-- Three imports of one name with two components of it: the second import takes the second
component, and the third takes none. -/
theorem matched_kth_to_kth_cards :
    let clauses := ["Card", "Menu", "Card", "Card"]
    let components := ["Card", "Icon", "Card"]
    IsKth id clauses "Card" 1 2 ∧ IsKth id clauses "Card" 2 3 ∧
    ∃ (pairs : List (Fin components.length × Fin clauses.length))
      (free : List (Fin components.length)),
      matchByName id id clauses components
        = (pairs.map fun p => (components.get p.1, clauses.get p.2), free.map components.get) ∧
      matchByName id id clauses components = ([("Card", "Card"), ("Card", "Card")], ["Icon"]) ∧
      (2, 2) ∈ pairs ∧ ∀ c, (c, 3) ∉ pairs := by
  intro clauses components
  have hsecond : IsKth id clauses "Card" 1 2 := by decide
  have hthird : IsKth id clauses "Card" 2 3 := by decide
  obtain ⟨pairs, free, hmatch, -, -, -, hkth⟩ := matched_kth_to_kth id id clauses components
  refine ⟨hsecond, hthird, pairs, free, hmatch, by decide, ?_, fun c hc => ?_⟩
  · exact (hkth "Card" 1 2 hsecond 2).mpr (by decide)
  · have hnone : ∀ c, ¬ IsKth id components "Card" 2 c := by decide
    exact hnone c ((hkth "Card" 2 3 hthird c).mp hc)

end PropCheck.Check
