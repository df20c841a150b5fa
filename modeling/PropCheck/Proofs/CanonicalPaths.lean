import PropCheck.Proofs.Places

/-!
# Canonical paths

A path is canonical if it says nothing twice: no segment after the slash at its start is empty or
stays where it is, and going back up comes first, or not at all from the root.  These are exactly
the texts of places, so they are the paths that normalizing leaves alone, and every path is
normalized to one of them.

* `Path.steps`: the segments of a path after the slash at its start.
* `Path.Canonical`: nothing can be left out of a path.
* `Path.steps_text`, `Path.canonical_iff_text`: the canonical paths are the texts of places.
* `Path.normalizeChars_eq_self_iff`: normalizing leaves exactly the canonical paths alone.
* `Path.normalize_join`: a path that goes on is followed from the place of its first part.
* `Path.normalize_canonical_form`: normalizing gives a canonical form that starts where the path
  starts, and the first part of a path may be normalized before the rest.
-/

namespace PropCheck.Path

/-- A path after the slash at its start. -/
def afterStart : List Char → List Char
  | '/' :: path => path
  | path => path

/-- The segments of a path after the slash at its start; there are none if nothing stands there. -/
def steps (path : List Char) : List (List Char) :=
  if afterStart path = [] then [] else segments (afterStart path)

/-- Nothing can be left out of a path: each step leads somewhere, the steps up come before all
others, and there are none from the root. -/
structure Canonical (path : List Char) : Prop where
  moves : ∀ s ∈ steps path, s ≠ [] ∧ s ≠ here
  ups_first : up ∉ (steps path).dropWhile (· == up)
  none_above_root : isAbsolute path = true → up ∉ steps path

/-! ### A path and its steps -/

theorem afterStart_of_relative {path : List Char} (h : isAbsolute path = false) :
    afterStart path = path := by
  unfold afterStart
  split
  · cases h
  · rfl

theorem eq_start_append (path : List Char) :
    path = (if isAbsolute path then ['/'] else []) ++ afterStart path := by
  cases h : isAbsolute path with
  | false => exact (afterStart_of_relative h).symm
  | true =>
    unfold isAbsolute at h
    split at h
    · rfl
    · cases h

theorem slash_not_mem_of_mem_steps {path s : List Char} (h : s ∈ steps path) : '/' ∉ s := by
  unfold steps at h
  split at h
  · cases h
  · exact slash_not_mem_of_mem_segments h

/-- A path is made of its steps and the slash at its start. -/
theorem eq_start_append_steps (path : List Char) :
    path = (if isAbsolute path then ['/'] else []) ++ ofSegments (steps path) := by
  have hsteps : ofSegments (steps path) = afterStart path := by
    unfold steps
    split
    · rename_i hnil
      rw [hnil]
      rfl
    · exact ofSegments_segments _
  rw [hsteps]
  exact eq_start_append path

/-! ### The steps of a place -/

theorem afterStart_text (p : Place) : afterStart p.text = ofSegments p.segments := by
  unfold Place.text
  split
  · rfl
  · exact afterStart_of_relative (isAbsolute_ofSegments fun _ hs => Place.mem_segments hs)

/-- **The steps of the text of a place are the segments that lead to it.** -/
theorem steps_text (p : Place) : steps p.text = p.segments := by
  rw [steps, afterStart_text]
  by_cases hnil : p.segments = []
  · rw [hnil]
    rfl
  · have hsegments : segments (ofSegments p.segments) = p.segments :=
      segments_ofSegments hnil fun _ hs => (Place.mem_segments hs).2
    have hne : ofSegments p.segments ≠ [] := by
      intro hempty
      rw [hempty] at hsegments
      -- a place is never reached through an empty segment
      have hmem : [] ∈ p.segments := hsegments ▸ List.mem_singleton_self []
      exact (Place.mem_segments hmem).1 rfl
    rw [if_neg hne, hsegments]

theorem isName_of_mem_names {names : List Name} {s : List Char}
    (h : s ∈ (names.map Subtype.val).reverse) : IsName s := by
  obtain ⟨name, -, rfl⟩ := List.mem_map.mp (List.mem_reverse.mp h)
  exact name.2

theorem up_not_mem_names (names : List Name) : up ∉ (names.map Subtype.val).reverse :=
  fun h => (isName_of_mem_names h).2.2.1 rfl

theorem ne_here_of_mem_start {start : Start} {s : List Char} (h : s ∈ start.segments) :
    s ≠ here := by
  cases start with
  | root => cases h
  | above levels =>
    rw [List.eq_of_mem_replicate h]
    decide

theorem dropWhile_start_append (start : Start) (ss : List (List Char)) :
    (start.segments ++ ss).dropWhile (· == up) = ss.dropWhile (· == up) := by
  cases start with
  | root => rfl
  | above levels =>
    refine List.dropWhile_append_of_pos fun s hs => ?_
    rw [List.eq_of_mem_replicate hs]
    decide

/-- The text of a place is canonical. -/
theorem canonical_text (p : Place) : Canonical p.text where
  moves s hs := by
    rw [steps_text] at hs
    refine ⟨(Place.mem_segments hs).1, ?_⟩
    rcases List.mem_append.mp hs with hs | hs
    · exact ne_here_of_mem_start hs
    · exact (isName_of_mem_names hs).2.1
  ups_first := by
    rw [steps_text, Place.segments, dropWhile_start_append]
    exact fun hmem => up_not_mem_names p.names ((List.dropWhile_sublist _).mem hmem)
  none_above_root habsolute := by
    rw [steps_text, Place.segments, p.isAbsolute_text.mp habsolute]
    exact up_not_mem_names p.names

/-! ### Canonical paths are texts of places -/

theorem exists_names {ss : List (List Char)} (h : ∀ s ∈ ss, IsName s) :
    ∃ names : List Name, (names.map Subtype.val).reverse = ss := by
  refine ⟨(ss.pmap Subtype.mk h).reverse, ?_⟩
  rw [List.map_reverse, List.reverse_reverse, List.map_pmap]
  exact List.pmap_eq_self.mpr fun _ _ => rfl

/-- The steps up come first, so they are counted. -/
theorem exists_replicate_append (ss : List (List Char)) :
    ∃ levels, ss = List.replicate levels up ++ ss.dropWhile (· == up) := by
  have hups : ∀ s ∈ ss.takeWhile (· == up), s = up :=
    fun s hs => eq_of_beq (List.all_eq_true.mp List.all_takeWhile s hs)
  exact ⟨(ss.takeWhile (· == up)).length, by
    rw [← List.eq_replicate_of_mem hups, List.takeWhile_append_dropWhile]⟩

/-- A canonical path starts at the root, or goes up as far as it goes at all. -/
theorem Canonical.exists_start {path : List Char} (h : Canonical path) :
    ∃ start : Start, (start = .root ↔ isAbsolute path = true) ∧
      steps path = start.segments ++ (steps path).dropWhile (· == up) := by
  obtain ⟨levels, hlevels⟩ := exists_replicate_append (steps path)
  cases habsolute : isAbsolute path with
  | false => exact ⟨.above levels, iff_of_false Start.noConfusion Bool.noConfusion, hlevels⟩
  | true =>
    refine ⟨.root, iff_of_true rfl rfl, ?_⟩
    cases levels with
    | zero => exact hlevels
    | succ levels =>
      have hup : up ∈ steps path := hlevels ▸ List.mem_cons_self ..
      exact absurd hup (h.none_above_root habsolute)

/-- **The canonical paths are the texts of places.** -/
theorem canonical_iff_text {path : List Char} : Canonical path ↔ ∃ p : Place, path = p.text := by
  constructor
  · intro h
    obtain ⟨start, hroot, hsteps⟩ := h.exists_start
    have hnames : ∀ s ∈ (steps path).dropWhile (· == up), IsName s := by
      intro s hs
      have hmem : s ∈ steps path := (List.dropWhile_sublist _).mem hs
      have hup : s ≠ up := fun heq => h.ups_first (heq ▸ hs)
      exact ⟨(h.moves s hmem).1, (h.moves s hmem).2, hup, slash_not_mem_of_mem_steps hmem⟩
    obtain ⟨names, hnames⟩ := exists_names hnames
    refine ⟨⟨start, names⟩, ?_⟩
    have hsegments : (Place.mk start names).segments = steps path := by
      rw [Place.segments, hnames]
      exact hsteps.symm
    have hstart : (if start = .root then ['/'] else [])
        = if isAbsolute path then ['/'] else [] := by
      simp only [hroot]
    rw [Place.text, hsegments, hstart]
    exact eq_start_append_steps path
  · rintro ⟨p, rfl⟩
    exact canonical_text p

/-! ### Normalizing -/

/-- **Normalizing leaves exactly the canonical paths alone.** -/
theorem normalizeChars_eq_self_iff {path : List Char} :
    normalizeChars path = path ↔ Canonical path := by
  rw [normalizeChars_eq_text, canonical_iff_text]
  constructor
  · exact fun h => ⟨place path, h.symm⟩
  · rintro ⟨p, rfl⟩
    rw [p.place_text]

theorem normalize_eq_self_iff {path : String} :
    normalize path = path ↔ Canonical path.toList := by
  rw [← normalizeChars_eq_self_iff, ← String.toList_inj, normalize, String.toList_ofList]

/-- A path that goes on is followed from the place of its first part. -/
theorem normalize_join {first : String} (hfirst : first ≠ "") (second : String) :
    normalize (first ++ "/" ++ second)
      = ((place first.toList).follow (segments second.toList)).path := by
  have hlist : (first ++ "/" ++ second).toList = first.toList ++ '/' :: second.toList := by
    simp
  have hne : first.toList ≠ [] := by
    simpa using hfirst
  rw [normalize_eq_path, hlist, place_join hne]

/-- **Normalizing gives a canonical form.** Normalizing twice is normalizing once, the result starts
at the root exactly if the path does, and it is canonical; indeed the canonical paths are the only
ones that normalizing leaves alone.  And in a path that goes on the first part may be normalized
first, unless that leaves nothing of it. -/
theorem normalize_canonical_form :
    (∀ path : String, normalize (normalize path) = normalize path ∧
      (isAbsolute (normalize path).toList = true ↔ isAbsolute path.toList = true) ∧
      Canonical (normalize path).toList ∧
      (normalize path = path ↔ Canonical path.toList)) ∧
    ∀ first second : String, normalize first ≠ "" →
      normalize (first ++ "/" ++ second) = normalize (normalize first ++ "/" ++ second) := by
  constructor
  · intro path
    have hagain : normalize (normalize path) = normalize path := by
      rw [normalize_eq_path path, normalize_path]
    refine ⟨hagain, ?_, normalize_eq_self_iff.mp hagain, normalize_eq_self_iff⟩
    rw [normalize_eq_path, Place.toList_path, Place.isAbsolute_text, place, Place.start_follow,
      start_startOf]
  · intro first second hne
    have hfirst : first ≠ "" := by
      rintro rfl
      exact hne (by decide)
    rw [normalize_join hfirst, normalize_join hne, normalize_eq_path first, Place.toList_path,
      Place.place_text]

/-- A path that goes up too far for its first part, and goes on. -/
theorem normalize_canonical_form_parents :
    Canonical (normalize "./lib//../../ui/").toList ∧ normalize "./lib//../../ui/" = "../ui" ∧
    normalize ("./lib//../../ui/" ++ "/" ++ "../../x.ts") = "../../x.ts" := by
  have hcanonical := (normalize_canonical_form.1 "./lib//../../ui/").2.2.1
  have hjoin := normalize_canonical_form.2 "./lib//../../ui/" "../../x.ts" (by decide)
  refine ⟨hcanonical, by decide, ?_⟩
  rw [hjoin]
  decide

end PropCheck.Path
