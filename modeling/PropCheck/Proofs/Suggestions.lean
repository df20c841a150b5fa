import PropCheck.Proofs.DistanceTable
import PropCheck.Text.Suggestion

/-!
# The suggestion is the best one

A candidate that differs from the name in the case of letters only is suggested at once, and the
first such candidate is.  If there is none, the suggestion is the first of the candidates that are
as near to the name as any, unless even these are too far away.  The name itself never counts.
Lengths that differ too much are no more than a quick way to see that a candidate is too far away.

* `Text.FirstWith`: the first of a list with some property.
* `Text.CaseVariant`, `Text.Nearest`: the two reasons to suggest a candidate.
* `Text.nearDistance?_eq`: the look at the lengths changes nothing.
* `Text.Best`: the best of the candidates so far; `Text.Best.nearer` is one step of a
  run, and `Text.suggestFrom_of_no_variant` the run.
* `Text.suggestion_optimal`: which candidate is suggested.
-/

namespace PropCheck.Text

/-- A candidate is the first of a list with some property. -/
def FirstWith (property : String → Prop) (candidates : List String) (candidate : String) : Prop :=
  ∃ before after, candidates = before ++ candidate :: after ∧ property candidate ∧
    ∀ other ∈ before, ¬ property other

/-- A candidate differs from a name, but only in the case of ASCII letters. -/
def CaseVariant (name candidate : String) : Prop :=
  candidate ≠ name ∧ candidate.toList.map Char.toLower = name.toList.map Char.toLower

/-- A candidate other than the name can be reached from it with so many edits, and no candidate
other than the name, this one included, can be reached with fewer. -/
structure Nearest (name : String) (candidates : List String) (distance : Nat)
    (candidate : String) : Prop where
  differs : candidate ≠ name
  reached : Edits distance name.toList candidate.toList
  least : ∀ other ∈ candidates, other ≠ name →
    ∀ n, Edits n name.toList other.toList → distance ≤ n

theorem FirstWith.unique {property : String → Prop} {candidates : List String} {c d : String}
    (hc : FirstWith property candidates c) (hd : FirstWith property candidates d) : c = d := by
  obtain ⟨before, after, rfl, hproperty, hbefore⟩ := hc
  obtain ⟨before', after', hsplit, hproperty', hbefore'⟩ := hd
  rcases List.append_eq_append_iff.mp hsplit with ⟨between, rfl, hrest⟩ | ⟨between, rfl, hrest⟩
  · cases between with
    | nil => exact (List.cons.inj hrest).1
    | cons x between =>
      cases hrest
      exact absurd hproperty (hbefore' c (by simp))
  · cases between with
    | nil => exact (List.cons.inj hrest).1.symm
    | cons x between =>
      cases hrest
      exact absurd hproperty' (hbefore d (by simp))

theorem exists_firstWith {property : String → Prop} {candidates : List String}
    (h : ∃ candidate ∈ candidates, property candidate) :
    ∃ candidate, FirstWith property candidates candidate := by
  induction candidates with
  | nil =>
    obtain ⟨candidate, hmem, -⟩ := h
    cases hmem
  | cons c cs ih =>
    by_cases hc : property c
    · exact ⟨c, [], cs, rfl, hc, fun _ hmem => absurd hmem List.not_mem_nil⟩
    · have hrest : ∃ candidate ∈ cs, property candidate := by
        obtain ⟨candidate, hmem, hproperty⟩ := h
        rcases List.mem_cons.mp hmem with rfl | hmem
        · exact absurd hproperty hc
        · exact ⟨candidate, hmem, hproperty⟩
      obtain ⟨candidate, before, after, rfl, hproperty, hbefore⟩ := ih hrest
      exact ⟨candidate, c :: before, after, rfl, hproperty, List.forall_mem_cons.mpr ⟨hc, hbefore⟩⟩

/-! ### Near candidates -/

/-- **The look at the lengths changes nothing**: it only leaves out what is too far away. -/
theorem nearDistance?_eq (bound : Nat) (name candidate : List Char) :
    nearDistance? bound name candidate
      = if editDistance name candidate ≤ bound then some (editDistance name candidate)
        else none := by
  rw [nearDistance?]
  split
  · rename_i hgap
    have hedits := (edits_levenshtein name candidate).length_le
    rw [← editDistance_eq_levenshtein] at hedits
    simp only [Bool.or_eq_true, decide_eq_true_eq] at hgap
    rw [if_neg (by omega)]
  · rfl

/-- The best of the candidates that were looked at: none is near enough, or it is the first of those
that are as near as any. -/
def Best (name : String) (seen : List String) : Option (String × Nat) → Prop
  | none => ∀ other ∈ seen, other ≠ name →
      maxDistance name.length < levenshtein name.toList other.toList
  | some (candidate, distance) => candidate ≠ name ∧ distance ≤ maxDistance name.length ∧
      distance = levenshtein name.toList candidate.toList ∧
      ∃ before after, seen = before ++ candidate :: after ∧
        (∀ other ∈ before, other ≠ name → distance < levenshtein name.toList other.toList) ∧
        ∀ other ∈ after, other ≠ name → distance ≤ levenshtein name.toList other.toList

/-- A candidate is too far away to take the place of the best one. -/
def NoBetter (name candidate : String) : Option (String × Nat) → Prop
  | none => maxDistance name.length < levenshtein name.toList candidate.toList
  | some (_, distance) => distance ≤ levenshtein name.toList candidate.toList

section

variable {name candidate : String} {seen : List String} {best : Option (String × Nat)}

/-- No candidate that was looked at is nearer than the best one. -/
theorem Best.least {distance : Nat} (h : Best name seen (some (candidate, distance))) :
    ∀ other ∈ seen, other ≠ name → distance ≤ levenshtein name.toList other.toList := by
  obtain ⟨-, -, hdistance, before, after, rfl, hbefore, hafter⟩ := h
  intro other hother hne
  rcases List.mem_append.mp hother with hmem | hmem
  · exact Nat.le_of_lt (hbefore other hmem hne)
  · rcases List.mem_cons.mp hmem with rfl | hmem
    · exact Nat.le_of_eq hdistance
    · exact hafter other hmem hne

/-- The best one stays the best if the next candidate is the name, or too far away. -/
theorem Best.keep (h : Best name seen best)
    (hkeep : candidate ≠ name → NoBetter name candidate best) :
    Best name (seen ++ [candidate]) best := by
  cases best with
  | none =>
    intro other hother hne
    rcases List.mem_append.mp hother with hmem | hmem
    · exact h other hmem hne
    · cases List.mem_singleton.mp hmem
      exact hkeep hne
  | some pair =>
    obtain ⟨hne, hbound, hdistance, before, after, rfl, hbefore, hafter⟩ := h
    refine ⟨hne, hbound, hdistance, before, after ++ [candidate], by simp, hbefore, ?_⟩
    intro other hother hne
    rcases List.mem_append.mp hother with hmem | hmem
    · exact hafter other hmem hne
    · cases List.mem_singleton.mp hmem
      exact hkeep hne

/-- The next candidate is the best one if it is near enough and strictly nearer than the others. -/
theorem Best.take (hne : candidate ≠ name)
    (hbound : levenshtein name.toList candidate.toList ≤ maxDistance name.length)
    (hless : ∀ other ∈ seen, other ≠ name →
      levenshtein name.toList candidate.toList < levenshtein name.toList other.toList) :
    Best name (seen ++ [candidate])
      (some (candidate, levenshtein name.toList candidate.toList)) :=
  ⟨hne, hbound, rfl, seen, [], rfl, hless, fun _ hmem => absurd hmem List.not_mem_nil⟩

/-- **One step**: a candidate that is strictly nearer takes the place of the best one. -/
theorem Best.nearer (h : Best name seen best) (hne : candidate ≠ name) :
    Best name (seen ++ [candidate]) (nearer best candidate
      (nearDistance? (maxDistance name.length) name.toList candidate.toList)) := by
  rw [nearDistance?_eq, editDistance_eq_levenshtein]
  split
  · rename_i hbound
    cases best with
    | none =>
      refine Best.take hne hbound fun other hother hne => ?_
      exact Nat.lt_of_le_of_lt hbound (h other hother hne)
    | some pair =>
      rw [Text.nearer]
      split
      · rename_i hless
        refine Best.take hne hbound fun other hother hne => ?_
        exact Nat.lt_of_lt_of_le hless (h.least other hother hne)
      · rename_i hnot
        exact h.keep fun _ => Nat.le_of_not_lt hnot
  · rename_i hfar
    refine h.keep fun _ => ?_
    cases best with
    | none => exact Nat.lt_of_not_le hfar
    | some pair =>
      have := h.2.1
      show pair.2 ≤ levenshtein name.toList candidate.toList
      omega

/-! ### A run over the candidates -/

theorem sameIgnoringCase_iff {a b : String} :
    sameIgnoringCase a b = true ↔ a.toList.map Char.toLower = b.toList.map Char.toLower :=
  beq_iff_eq

/-- **A run without case variants** ends with the best of the candidates. -/
theorem suggestFrom_of_no_variant {candidates : List String} (h : Best name seen best)
    (hnone : ∀ candidate ∈ candidates, ¬ CaseVariant name candidate) :
    ∃ best', Best name (seen ++ candidates) best' ∧
      suggestFrom name best candidates = best'.map (·.1) := by
  induction candidates generalizing seen best with
  | nil => exact ⟨best, by rwa [List.append_nil], rfl⟩
  | cons candidate candidates ih =>
    have hrest := fun other hother => hnone other (List.mem_cons_of_mem candidate hother)
    rw [suggestFrom, List.append_cons]
    split
    · rename_i hname
      exact ih (h.keep fun hne => absurd (eq_of_beq hname) hne) hrest
    · rename_i hname
      have hne : candidate ≠ name := fun heq => hname (beq_iff_eq.mpr heq)
      rw [if_neg fun hsame => hnone candidate List.mem_cons_self
        ⟨hne, sameIgnoringCase_iff.mp hsame⟩]
      exact ih (h.nearer hne) hrest

/-- **A run stops at the first case variant.** -/
theorem suggestFrom_of_variant {candidates : List String}
    (h : FirstWith (CaseVariant name) candidates candidate) (best : Option (String × Nat)) :
    suggestFrom name best candidates = some candidate := by
  obtain ⟨before, after, rfl, hvariant, hbefore⟩ := h
  induction before generalizing best with
  | nil =>
    rw [List.nil_append, suggestFrom, if_neg fun hname => hvariant.1 (eq_of_beq hname),
      if_pos (sameIgnoringCase_iff.mpr hvariant.2)]
  | cons other before ih =>
    have hrest := fun best => ih best fun x hx => hbefore x (List.mem_cons_of_mem other hx)
    rw [List.cons_append, suggestFrom]
    split
    · exact hrest best
    · rename_i hname
      have hne : other ≠ name := fun heq => hname (beq_iff_eq.mpr heq)
      rw [if_neg fun hsame => hbefore other List.mem_cons_self
        ⟨hne, sameIgnoringCase_iff.mp hsame⟩]
      exact hrest _

/-- The best of all candidates is the first of the nearest ones. -/
theorem Best.firstWith {candidates : List String} {distance : Nat}
    (h : Best name candidates (some (candidate, distance))) :
    FirstWith (Nearest name candidates distance) candidates candidate := by
  have hleast := h.least
  obtain ⟨hne, -, rfl, before, after, hsplit, hbefore, -⟩ := h
  refine ⟨before, after, hsplit, ⟨hne, edits_levenshtein _ _, ?_⟩, ?_⟩
  · intro other hother hne n hedits
    exact Nat.le_trans (hleast other hother hne) (levenshtein_le_of_edits hedits)
  · intro other hother hnearest
    have hless := hbefore other hother hnearest.differs
    have hle := levenshtein_le_of_edits hnearest.reached
    omega

/-- **The best of all candidates is the first of the nearest ones, if these are near enough.** -/
theorem Best.map_eq_some_iff {candidates : List String} (h : Best name candidates best) :
    best.map (·.1) = some candidate ↔ ∃ distance ≤ maxDistance name.length,
      FirstWith (Nearest name candidates distance) candidates candidate := by
  constructor
  · intro hbest
    obtain ⟨⟨_, distance⟩, rfl, rfl⟩ := Option.map_eq_some_iff.mp hbest
    exact ⟨distance, h.2.1, h.firstWith⟩
  · intro ⟨distance, hbound, hfirst⟩
    obtain ⟨before, after, hsplit, hnearest, -⟩ := id hfirst
    have hmem : candidate ∈ candidates := hsplit ▸ List.mem_append_right _ List.mem_cons_self
    have hle := levenshtein_le_of_edits hnearest.reached
    cases best with
    | none =>
      have hfar := h candidate hmem hnearest.differs
      omega
    | some pair =>
      -- both distances are the least ones
      obtain ⟨other, least⟩ := pair
      obtain ⟨_, _, hsplit', hnearest', -⟩ := h.firstWith
      have hmem' : other ∈ candidates := hsplit' ▸ List.mem_append_right _ List.mem_cons_self
      have hsame : least = distance := Nat.le_antisymm
        (hnearest'.least candidate hmem hnearest.differs distance hnearest.reached)
        (hnearest.least other hmem' hnearest'.differs least hnearest'.reached)
      rw [← hsame] at hfirst
      exact congrArg some (h.firstWith.unique hfirst)

end

/-- **The suggestion is the best candidate.** A candidate is suggested exactly if it is the first
one that differs from the name in the case of letters only, or if there is no such candidate, and it
is the first of those other than the name that are the least number of edits away from it, and this
number is within the bound.  In particular the look at the lengths changes nothing. -/
theorem suggestion_optimal (name : String) (candidates : List String) :
    (∀ candidate, suggestion? name candidates = some candidate ↔
      FirstWith (CaseVariant name) candidates candidate ∨
      (¬ ∃ variant ∈ candidates, CaseVariant name variant) ∧
        ∃ distance ≤ maxDistance name.length,
          FirstWith (Nearest name candidates distance) candidates candidate) ∧
    ∀ bound text other, nearDistance? bound text other
      = if editDistance text other ≤ bound then some (editDistance text other) else none := by
  refine ⟨fun candidate => ?_, nearDistance?_eq⟩
  rw [suggestion?]
  by_cases hvariant : ∃ variant ∈ candidates, CaseVariant name variant
  · obtain ⟨first, hfirst⟩ := exists_firstWith hvariant
    rw [suggestFrom_of_variant hfirst]
    constructor
    · intro heq
      cases heq
      exact .inl hfirst
    · intro h
      rcases h with hfirst' | ⟨hnone, -⟩
      · rw [hfirst.unique hfirst']
      · exact absurd hvariant hnone
  · have hnothing : Best name [] none := fun _ hmem => absurd hmem List.not_mem_nil
    have hnone : ∀ candidate ∈ candidates, ¬ CaseVariant name candidate :=
      fun candidate hmem hcase => hvariant ⟨candidate, hmem, hcase⟩
    obtain ⟨best, hbest, hrun⟩ := suggestFrom_of_no_variant hnothing hnone
    rw [hrun, hbest.map_eq_some_iff]
    constructor
    · exact fun h => .inr ⟨hvariant, h⟩
    · intro h
      rcases h with ⟨before, after, rfl, hcase, -⟩ | ⟨-, h⟩
      · exact absurd ⟨candidate, List.mem_append_right _ List.mem_cons_self, hcase⟩ hvariant
      · exact h

example : suggestion? "value" ["valu", "value", "Value"] = some "Value" := by decide

example : suggestion? "usr" ["count", "usrs", "user"] = some "usrs" := by decide +kernel

end PropCheck.Text
