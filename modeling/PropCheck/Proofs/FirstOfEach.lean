/-!
# The first of each name

Tables of named things are filled one thing after the other, and a thing whose name is taken is left
out.  What such a table ends up with can be said by the places alone: it has the things that no
earlier thing shares the name of.

* `firstOfEach`: the things of a list that are the first of their name, some names being taken.
* `firstOfEach_cons`, `firstOfEach_append`, `firstOfEach_map`, `mem_firstOfEach_iff`,
  `nodup_names_firstOfEach`: its laws.
* `foldl_eq_append_firstOfEach`: adding things one by one, unless their names are taken, keeps the
  first of each name.
-/

namespace PropCheck

variable {α β : Type} {name : α → String}

/-- The things of a list whose names are not taken and are those of no earlier thing, in their
order. -/
def firstOfEach (name : α → String) (taken : List String) (things : List α) : List α :=
  (things.zipIdx.filter fun (thing, place) =>
    name thing ∉ taken ∧ name thing ∉ (things.take place).map name).map Prod.fst

/-- The first thing stays unless its name is taken, and from there on its name is taken. -/
theorem firstOfEach_cons (taken : List String) (thing : α) (things : List α) :
    firstOfEach name taken (thing :: things)
      = (if name thing ∈ taken then [] else [thing])
        ++ firstOfEach name (name thing :: taken) things := by
  have hlater : ∀ later : α × Nat,
      (name later.1 ∉ taken ∧ name later.1 ∉ ((thing :: things).take (later.2 + 1)).map name)
        ↔ name later.1 ∉ name thing :: taken ∧ name later.1 ∉ (things.take later.2).map name := by
    intro later
    rw [List.take_succ_cons, List.map_cons, List.mem_cons, List.mem_cons, not_or, not_or]
    exact ⟨fun ⟨h₁, h₂, h₃⟩ => ⟨⟨h₂, h₁⟩, h₃⟩, fun ⟨⟨h₂, h₁⟩, h₃⟩ => ⟨h₁, h₂, h₃⟩⟩
  unfold firstOfEach
  rw [List.zipIdx_cons, List.zipIdx_succ, List.filter_cons, List.filter_map]
  simp only [Function.comp_def, hlater]
  by_cases h : name thing ∈ taken
  · simp [h]
  · simp [h]

/-- Which names are taken counts, not in which order. -/
theorem firstOfEach_congr {taken taken' : List String} (h : ∀ n, n ∈ taken ↔ n ∈ taken')
    (things : List α) : firstOfEach name taken things = firstOfEach name taken' things := by
  unfold firstOfEach
  simp only [h]

theorem firstOfEach_append (taken : List String) (first second : List α) :
    firstOfEach name taken (first ++ second)
      = firstOfEach name taken first ++ firstOfEach name (taken ++ first.map name) second := by
  induction first generalizing taken with
  | nil => simp [firstOfEach]
  | cons thing first ih =>
    have hnames : ∀ n, n ∈ (name thing :: taken) ++ first.map name
        ↔ n ∈ taken ++ (thing :: first).map name := by
      intro n
      rw [List.cons_append, List.map_cons, List.mem_append, List.mem_cons, List.mem_append,
        List.mem_cons, or_left_comm]
    rw [List.cons_append, firstOfEach_cons, firstOfEach_cons, ih, List.append_assoc,
      firstOfEach_congr hnames]

theorem firstOfEach_map (f : β → α) (taken : List String) (things : List β) :
    firstOfEach name taken (things.map f)
      = (firstOfEach (fun thing => name (f thing)) taken things).map f := by
  induction things generalizing taken with
  | nil => rfl
  | cons thing things ih =>
    rw [List.map_cons, firstOfEach_cons, firstOfEach_cons, List.map_append, ih]
    split <;> rfl

/-- **A thing is the first of its name** if the name is neither taken nor that of a thing before. -/
theorem mem_firstOfEach_iff {taken : List String} {thing : α} {things : List α} :
    thing ∈ firstOfEach name taken things ↔ name thing ∉ taken ∧
      ∃ before after, things = before ++ thing :: after ∧ name thing ∉ before.map name := by
  induction things generalizing taken with
  | nil => simp [firstOfEach]
  | cons head things ih =>
    rw [firstOfEach_cons, List.mem_append, ih, List.mem_cons, not_or]
    constructor
    · rintro (h | ⟨⟨hhead, htaken⟩, before, after, rfl, hbefore⟩)
      · split at h
        · cases h
        · rename_i htaken
          obtain rfl := List.mem_singleton.mp h
          exact ⟨htaken, [], things, rfl, List.not_mem_nil⟩
      · refine ⟨htaken, head :: before, after, rfl, ?_⟩
        rw [List.map_cons, List.mem_cons, not_or]
        exact ⟨hhead, hbefore⟩
    · rintro ⟨htaken, before, after, hsplit, hbefore⟩
      cases before with
      | nil =>
        obtain ⟨rfl, rfl⟩ := List.cons.inj hsplit
        rw [if_neg htaken]
        exact Or.inl (List.mem_singleton_self head)
      | cons b before =>
        obtain ⟨rfl, rfl⟩ := List.cons.inj hsplit
        rw [List.map_cons, List.mem_cons, not_or] at hbefore
        exact Or.inr ⟨⟨hbefore.1, htaken⟩, before, after, rfl, hbefore.2⟩

theorem mem_of_mem_firstOfEach {taken : List String} {thing : α} {things : List α}
    (h : thing ∈ firstOfEach name taken things) : thing ∈ things := by
  obtain ⟨-, before, after, rfl, -⟩ := mem_firstOfEach_iff.mp h
  exact List.mem_append_right before (List.mem_cons_self ..)

theorem mem_names_firstOfEach_iff {taken : List String} {things : List α} {n : String} :
    n ∈ (firstOfEach name taken things).map name ↔ n ∉ taken ∧ n ∈ things.map name := by
  induction things generalizing taken with
  | nil => simp [firstOfEach]
  | cons thing things ih =>
    rw [firstOfEach_cons, List.map_append, List.mem_append, ih, List.map_cons, List.mem_cons,
      List.mem_cons]
    by_cases htaken : name thing ∈ taken
    · rw [if_pos htaken]
      grind
    · rw [if_neg htaken]
      grind

/-- **The first things of each name have distinct names.** -/
theorem nodup_names_firstOfEach (taken : List String) (things : List α) :
    ((firstOfEach name taken things).map name).Nodup := by
  induction things generalizing taken with
  | nil => exact List.nodup_nil
  | cons thing things ih =>
    rw [firstOfEach_cons]
    split
    · exact ih (name thing :: taken)
    · refine List.nodup_cons.mpr ⟨fun hmem => ?_, ih (name thing :: taken)⟩
      exact (mem_names_firstOfEach_iff.mp hmem).1 (List.mem_cons_self ..)

/-- **Adding things one by one, unless their names are taken**, keeps the first of each name that
was not taken before. -/
theorem foldl_eq_append_firstOfEach {add : List α → α → List α}
    (hadd : ∀ kept thing,
      add kept thing = if name thing ∈ kept.map name then kept else kept ++ [thing])
    (kept things : List α) :
    things.foldl add kept = kept ++ firstOfEach name (kept.map name) things := by
  induction things generalizing kept with
  | nil => exact (List.append_nil kept).symm
  | cons thing things ih =>
    rw [List.foldl_cons, ih, firstOfEach_cons, hadd]
    by_cases h : name thing ∈ kept.map name
    · have hnames : ∀ n, n ∈ kept.map name ↔ n ∈ name thing :: kept.map name := by
        intro n
        rw [List.mem_cons]
        exact ⟨Or.inr, fun hn => hn.elim (fun heq => heq ▸ h) id⟩
      rw [if_pos h, if_pos h, List.nil_append, firstOfEach_congr hnames]
    · have hnames : ∀ n, n ∈ (kept ++ [thing]).map name ↔ n ∈ name thing :: kept.map name := by
        intro n
        rw [List.map_append, List.mem_append, List.mem_cons, or_comm]
        exact or_congr_left List.mem_singleton
      rw [if_neg h, if_neg h, List.append_assoc, firstOfEach_congr hnames]

end PropCheck
