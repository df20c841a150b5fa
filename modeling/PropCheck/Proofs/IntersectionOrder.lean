import PropCheck.Proofs.MergedObjects
import PropCheck.Proofs.Pieces

/-!
# The order and the grouping of intersections

An intersection of objects is related through one of them, or through the object that they amount
to.  That object has the first property of each name, so a name that two objects declare differently
goes to the one that stands first.  It takes objects only: an intersection inside the intersection
keeps it from being made.

* `Slot.Disputed`: a name that two lists of properties declare differently.
* `Ty.AsksBoth`: a target asks one object for names of two kinds.
* `Assign.relates_intersection_swap`: two objects may change places, unless the target asks one
  object both for a name in dispute and for one that only one of them has.
* `Assign.relates_intersection_flatten`: two of three objects may be grouped, unless the target asks
  one object both for a name of the group and for one that only the third has.
* `Assign.intersection_order_and_grouping`: the same for assignability.
* `Assign.intersection_order_and_grouping_matter`: the exceptions are met.
-/

namespace PropCheck

/-! ### Names that two lists have -/

namespace Slot

variable {ps qs : List (Slot Ty)} {name : String}

/-- Both lists have the name and declare it differently. -/
def Disputed (ps qs : List (Slot Ty)) (name : String) : Prop :=
  ∃ p q, Slot.find? ps name = some p ∧ Slot.find? qs name = some q ∧ p ≠ q

theorem find?_eq_none (h : name ∉ ps.map (·.name)) : Slot.find? ps name = none := by
  rw [← isSome_find?] at h
  exact Option.not_isSome_iff_eq_none.mp h

/-- What follows a list does not count if it brings no new name. -/
theorem find?_append_left (h : name ∈ qs.map (·.name) → name ∈ ps.map (·.name)) :
    Slot.find? (ps ++ qs) name = Slot.find? ps name := by
  rw [find?_append]
  by_cases hps : name ∈ ps.map (·.name)
  · obtain ⟨p, hp⟩ := Option.isSome_iff_exists.mp (isSome_find?.mpr hps)
    rw [hp, Option.some_or]
  · rw [find?_eq_none hps, find?_eq_none fun hqs => hps (h hqs), Option.or_none]

theorem find?_append_right (h : name ∉ ps.map (·.name)) :
    Slot.find? (ps ++ qs) name = Slot.find? qs name := by
  rw [find?_append, find?_eq_none h, Option.none_or]

/-- A name that is not in dispute is found the same in either order. -/
theorem find?_append_comm (h : ¬ Disputed ps qs name) :
    Slot.find? (ps ++ qs) name = Slot.find? (qs ++ ps) name := by
  rw [find?_append, find?_append]
  cases hp : Slot.find? ps name with
  | none => rw [Option.none_or, Option.or_none]
  | some p =>
    cases hq : Slot.find? qs name with
    | none => rfl
    | some q =>
      have heq : p = q := Classical.byContradiction fun hne => h ⟨p, q, hp, hq, hne⟩
      rw [heq]

end Slot

/-- The target is taken apart into an object, among others, that has names of both kinds. -/
def Ty.AsksBoth (t : Ty) (kind kind' : String → Prop) : Prop :=
  ∃ name ps, Ty.object name ps ∈ t.reach ∧ (∃ p ∈ ps, kind p.name) ∧ ∃ p ∈ ps, kind' p.name

/-- A plain piece asks only for what the target does. -/
theorem Ty.AsksBoth.of_mem_reach {t u : Ty} {kind kind' : String → Prop} (hu : u ∈ t.reach)
    (hplain : u.Plain) (h : u.AsksBoth kind kind') : t.AsksBoth kind kind' := by
  obtain ⟨name, ps, hmem, hnames⟩ := h
  rw [Ty.reach_plain hplain, List.mem_singleton] at hmem
  exact ⟨name, ps, hmem ▸ hu, hnames⟩

namespace Assign

variable {options : Options} {u : Ty}

/-! ### Two and three objects -/

section

variable {a b c : Option String} {ps qs rs : List (Slot Ty)}

theorem relates_intersection_pair (hu : u.Plain) :
    relates options (.intersection [.object a ps, .object b qs]) u
      = (relates options (.object a ps) u || relates options (.object b qs) u
        || relates options (.object none (ps ++ qs)) u) := by
  have h := relates_intersection_objects options hu [(a, ps), (b, qs)]
  simpa using h

theorem relates_intersection_triple (hu : u.Plain) :
    relates options (.intersection [.object a ps, .object b qs, .object c rs]) u
      = (relates options (.object a ps) u || relates options (.object b qs) u
        || relates options (.object c rs) u
        || relates options (.object none (ps ++ qs ++ rs)) u) := by
  have h := relates_intersection_objects options hu [(a, ps), (b, qs), (c, rs)]
  simpa [Bool.or_assoc] using h

/-- An intersection inside an intersection keeps the objects from being put together. -/
theorem relates_intersection_group (hu : u.Plain) (ss : List Ty) :
    relates options (.intersection [.intersection ss, .object c rs]) u
      = (relates options (.intersection ss) u || relates options (.object c rs) u) := by
  rw [relates_intersection_source hu]
  show ([_, _].any _ || false) = _
  rw [List.any_cons, List.any_cons, List.any_nil, Bool.or_false, Bool.or_false]

/-! ### Changing places -/

theorem relates_intersection_swap (hu : u.Plain)
    (h : ¬ u.AsksBoth (Slot.Disputed ps qs)
      (fun n => ¬ (n ∈ ps.map (·.name) ↔ n ∈ qs.map (·.name)))) :
    relates options (.intersection [.object a ps, .object b qs]) u
      = relates options (.intersection [.object b qs, .object a ps]) u := by
  rw [relates_intersection_pair hu, relates_intersection_pair hu]
  by_cases hdisputed : ∃ d ts, u = .object d ts ∧ ∃ q ∈ ts, Slot.Disputed ps qs q.name
  · -- all names that are asked for are in both objects or in none, so each object stands for both
    obtain ⟨d, ts, rfl, hts⟩ := hdisputed
    have hshared : ∀ q ∈ ts, q.name ∈ ps.map (·.name) ↔ q.name ∈ qs.map (·.name) := by
      intro q hq
      apply Classical.byContradiction
      intro honly
      exact h ⟨d, ts, Ty.self_mem_reach _, hts, q, hq, honly⟩
    have hfirst : relates options (.object none (ps ++ qs)) (.object d ts)
        = relates options (.object a ps) (.object d ts) := by
      apply relates_object_congr hu
      rintro _ _ ⟨rfl, rfl⟩ q hq
      exact Slot.find?_append_left (hshared q hq).mpr
    have hsecond : relates options (.object none (qs ++ ps)) (.object d ts)
        = relates options (.object b qs) (.object d ts) := by
      apply relates_object_congr hu
      rintro _ _ ⟨rfl, rfl⟩ q hq
      exact Slot.find?_append_left (hshared q hq).mp
    rw [hfirst, hsecond]
    cases relates options (.object a ps) (.object d ts) <;>
      cases relates options (.object b qs) (.object d ts) <;> rfl
  · have hboth : relates options (.object none (ps ++ qs)) u
        = relates options (.object none (qs ++ ps)) u := by
      apply relates_object_congr hu
      intro d ts hobject q hq
      exact Slot.find?_append_comm fun hq' => hdisputed ⟨d, ts, hobject, q, hq, hq'⟩
    rw [hboth, Bool.or_comm (relates options (.object a ps) u)]

/-! ### Grouping -/

theorem relates_intersection_flatten (hu : u.Plain)
    (h : ¬ u.AsksBoth (· ∈ (ps ++ qs).map (·.name))
      (fun n => n ∈ rs.map (·.name) ∧ n ∉ (ps ++ qs).map (·.name))) :
    relates options (.intersection [.intersection [.object a ps, .object b qs], .object c rs]) u
      = relates options (.intersection [.object a ps, .object b qs, .object c rs]) u := by
  rw [relates_intersection_group hu, relates_intersection_pair hu, relates_intersection_triple hu]
  by_cases hgroup : ∃ d ts, u = .object d ts ∧ ∃ q ∈ ts, q.name ∈ (ps ++ qs).map (·.name)
  · -- the third object brings no name that is asked for, so it adds nothing to the group
    obtain ⟨d, ts, rfl, hts⟩ := hgroup
    have hnothing : relates options (.object none (ps ++ qs ++ rs)) (.object d ts)
        = relates options (.object none (ps ++ qs)) (.object d ts) := by
      apply relates_object_congr hu
      rintro _ _ ⟨rfl, rfl⟩ q hq
      apply Slot.find?_append_left
      intro hrs
      apply Classical.byContradiction
      intro hnot
      exact h ⟨d, ts, Ty.self_mem_reach _, hts, q, hq, hrs, hnot⟩
    rw [hnothing]
    exact Bool.or_right_comm _ _ _
  · -- the group has no name that is asked for, so it stands for its first object
    have hnames : ∀ d ts, u = .object d ts → ∀ q ∈ ts, q.name ∉ (ps ++ qs).map (·.name) :=
      fun d ts hobject q hq hq' => hgroup ⟨d, ts, hobject, q, hq, hq'⟩
    have hfirst : relates options (.object none (ps ++ qs)) u
        = relates options (.object a ps) u := by
      apply relates_object_congr hu
      intro d ts hobject q hq
      have hnot := hnames d ts hobject q hq
      rw [List.map_append, List.mem_append, not_or] at hnot
      exact Slot.find?_append_left fun hqs => absurd hqs hnot.2
    have hthird : relates options (.object none (ps ++ qs ++ rs)) u
        = relates options (.object c rs) u := by
      apply relates_object_congr hu
      intro d ts hobject q hq
      exact Slot.find?_append_right (hnames d ts hobject q hq)
    rw [hfirst, hthird]
    cases relates options (.object a ps) u <;> cases relates options (.object b qs) u <;>
      cases relates options (.object c rs) u <;> rfl

end

/-! ### Assignability -/

/-- The properties of two objects together are lower than the intersection of the objects. -/
theorem height_append_lt (a b : Option String) (ps qs : List (Slot Ty)) :
    (Ty.object none (ps ++ qs)).height < (Ty.intersection [.object a ps, .object b qs]).height := by
  simp only [Ty.height, Ty.heights, Ty.propertyHeights_append]
  omega

/-- **Where order and grouping of an intersection matter.**  An intersection of two objects is
assignable piece by piece: as one of them, or as the object with their properties one after the
other, of which the first of a name counts.  So the objects may change places, unless the target
asks one object both for a name that they declare differently and for a name that only one of them
has.  And two of three objects may be grouped, unless the target asks one object both for a name of
the group and for a name that only the third has. -/
theorem intersection_order_and_grouping (options : Options) (a b c : Option String)
    (ps qs rs : List (Slot Ty)) (t : Ty) :
    let first : Ty := .object a ps
    let second : Ty := .object b qs
    let third : Ty := .object c rs
    ((Ty.intersection [first, second]).height + t.height ≤ 66 →
      assignable options t (.intersection [first, second])
        = t.metBy fun u => assignable options u first || assignable options u second
          || assignable options u (.object none (ps ++ qs))) ∧
    ((Ty.intersection [first, second]).height + t.height ≤ 66 →
      ¬ t.AsksBoth (Slot.Disputed ps qs)
        (fun n => ¬ (n ∈ ps.map (·.name) ↔ n ∈ qs.map (·.name))) →
      assignable options t (.intersection [first, second])
        = assignable options t (.intersection [second, first])) ∧
    ((Ty.intersection [.intersection [first, second], third]).height + t.height ≤ 66 →
      ¬ t.AsksBoth (· ∈ (ps ++ qs).map (·.name))
        (fun n => n ∈ rs.map (·.name) ∧ n ∉ (ps ++ qs).map (·.name)) →
      assignable options t (.intersection [.intersection [first, second], third])
        = assignable options t (.intersection [first, second, third])) := by
  dsimp only
  have hfirst : (Ty.object a ps).height < (Ty.intersection [.object a ps, .object b qs]).height :=
    Ty.height_lt_intersection List.mem_cons_self
  have hsecond : (Ty.object b qs).height < (Ty.intersection [.object a ps, .object b qs]).height :=
    Ty.height_lt_intersection (List.mem_cons_of_mem _ List.mem_cons_self)
  refine ⟨fun hheight => ?_, fun hheight h => ?_, fun hheight h => ?_⟩
  · have hboth := height_append_lt a b ps qs
    rw [assignable_eq_relates hheight, relates_intersection_pieces]
    apply Ty.metBy_congr
    intro u hu hplain
    have hlower := Ty.height_le_of_mem_reach hu
    rw [relates_intersection_pair hplain, assignable_eq_relates (by omega),
      assignable_eq_relates (by omega), assignable_eq_relates (by omega)]
  · have hswapped : (Ty.intersection [.object b qs, .object a ps]).height
        = (Ty.intersection [.object a ps, .object b qs]).height := by
      simp only [Ty.height, Ty.heights]
      omega
    rw [assignable_eq_relates hheight, assignable_eq_relates (by omega)]
    apply relates_intersection_congr
    intro u hu hplain
    exact relates_intersection_swap hplain fun hasks => h (hasks.of_mem_reach hu hplain)
  · have hflat : (Ty.intersection [.object a ps, .object b qs, .object c rs]).height
        ≤ (Ty.intersection [.intersection [.object a ps, .object b qs], .object c rs]).height := by
      simp only [Ty.height, Ty.heights]
      omega
    rw [assignable_eq_relates hheight, assignable_eq_relates (by omega)]
    apply relates_intersection_congr
    intro u hu hplain
    exact relates_intersection_flatten hplain fun hasks => h (hasks.of_mem_reach hu hplain)

/-- Two objects that declare `x` differently, for a target that asks for `x` alone, and a third that
brings a name which the target does not ask for. -/
theorem intersection_order_and_grouping_point :
    let x (t : Ty) : Slot Ty := ⟨"x", t, false⟩
    let y : Slot Ty := ⟨"y", .keyword .number, true⟩
    let z : Slot Ty := ⟨"z", .keyword .number, false⟩
    let first : Ty := .object (some "First") [x (.keyword .string), y]
    let second : Ty := .object none [x (.keyword .number)]
    let third : Ty := .object none [z]
    let t : Ty := .union [.null, .object none [x (.keyword .number)]]
    assignable .strictest t (.intersection [first, second])
        = t.metBy (fun u => assignable .strictest u first || assignable .strictest u second
          || assignable .strictest u (.object none [x (.keyword .string), y, x (.keyword .number)]))
      ∧ assignable .strictest t (.intersection [first, second])
        = assignable .strictest t (.intersection [second, first])
      ∧ assignable .strictest t (.intersection [.intersection [first, second], third])
        = assignable .strictest t (.intersection [first, second, third])
      ∧ assignable .strictest t (.intersection [first, second, third]) = true := by
  intro x y z first second third t
  -- the only object that the target is taken apart into asks for `x`
  have hreach : ∀ name ps, Ty.object name ps ∈ t.reach → ∀ p ∈ ps, p.name = "x" := by
    intro name ps hmem p hp
    simp only [t, Ty.reach, Ty.reachAll, List.append_nil, List.cons_append, List.nil_append,
      List.mem_cons, List.not_mem_nil, or_false, reduceCtorEq, false_or, Ty.object.injEq] at hmem
    rw [hmem.2, List.mem_singleton] at hp
    rw [hp]
  have h := intersection_order_and_grouping .strictest (some "First") none none
    [x (.keyword .string), y] [x (.keyword .number)] [z] t
  refine ⟨h.1 (by decide), h.2.1 (by decide) ?_, h.2.2 (by decide) ?_, by decide⟩
  · rintro ⟨name, ps, hmem, -, p, hp, honly⟩
    rw [hreach name ps hmem p hp] at honly
    exact honly (by simp [x, y])
  · rintro ⟨name, ps, hmem, -, p, hp, hthird, -⟩
    rw [hreach name ps hmem p hp] at hthird
    simp [z] at hthird

/-- The exceptions are met.  Two objects declare `x` differently and the second has `y`: a target
that asks for both is satisfied in one order only.  Three objects have a name each: a target that
asks for the first and the third is satisfied without a group only. -/
theorem intersection_order_and_grouping_matter :
    (¬ ∀ (options : Options) (a b : Option String) (ps qs : List (Slot Ty)) (t : Ty),
      (ps.map (·.name)).Nodup → (qs.map (·.name)).Nodup →
      (Ty.intersection [.object a ps, .object b qs]).height + t.height ≤ 66 →
      (assignable options t (.intersection [.object a ps, .object b qs]) = true
        ↔ assignable options t (.intersection [.object b qs, .object a ps]) = true)) ∧
    ¬ ∀ (options : Options) (a b c : Option String) (ps qs rs : List (Slot Ty)) (t : Ty),
      (ps.map (·.name)).Nodup → (qs.map (·.name)).Nodup → (rs.map (·.name)).Nodup →
      (Ty.intersection [.intersection [.object a ps, .object b qs], .object c rs]).height
        + t.height ≤ 66 →
      (assignable options t
          (.intersection [.intersection [.object a ps, .object b qs], .object c rs]) = true
        ↔ assignable options t
          (.intersection [.object a ps, .object b qs, .object c rs]) = true) := by
  constructor
  · intro h
    have hswap := h .strictest none none [⟨"x", .keyword .string, false⟩]
      [⟨"x", .keyword .number, false⟩, ⟨"y", .keyword .number, false⟩]
      (.object none [⟨"x", .keyword .string, false⟩, ⟨"y", .keyword .number, false⟩])
      (by decide) (by decide) (by decide)
    revert hswap
    decide
  · intro h
    have hgroup := h .strictest none none none [⟨"x", .keyword .string, false⟩]
      [⟨"y", .keyword .number, false⟩] [⟨"z", .keyword .number, false⟩]
      (.object none [⟨"x", .keyword .string, false⟩, ⟨"z", .keyword .number, false⟩])
      (by decide) (by decide) (by decide) (by decide)
    revert hgroup
    decide

end Assign

end PropCheck
