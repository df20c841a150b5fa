import PropCheck.Program.Path

/-!
# Where paths lead

A path leads from where it starts, the root or the current directory, to a place: some directories
up from the start, which the root has none of, and then down through names.  A place has one text,
and normalizing a path gives the text of the place that the path leads to.

* `Path.segments_append`, `Path.ofSegments_segments`, `Path.segments_ofSegments`: a path and its
  segments.
* `Path.IsName`, `Path.Place`: the segments that go down, and the places they lead to.
* `Path.Place.enter`, `Path.Place.follow`: one segment further, and some segments further.
* `Path.Place.text`, `Path.Place.path`: the text of a place.
* `Path.normalizeChars_eq_text`: what normalizing does.
* `Path.place_join`: a path that goes on leads on from the place of its first part.
* `Path.Place.place_text`: the text of a place leads to the place, so it is normalized.
* `Path.Place.directory_text_down`: a file lies in the directory that its text says.
-/

namespace PropCheck.Path

/-! ### Segments -/

theorem segments_slash (path : List Char) : segments ('/' :: path) = [] :: segments path :=
  if_pos rfl

theorem segments_cons {c : Char} (hc : c ≠ '/') {path s : List Char} {ss : List (List Char)}
    (h : segments path = s :: ss) : segments (c :: path) = (c :: s) :: ss := by
  rw [segments, if_neg hc, h]

/-- A path has at least one segment. -/
theorem exists_segments (path : List Char) : ∃ s ss, segments path = s :: ss := by
  induction path with
  | nil => exact ⟨[], [], rfl⟩
  | cons c path ih =>
    obtain ⟨s, ss, h⟩ := ih
    by_cases hc : c = '/'
    · subst hc
      exact ⟨[], segments path, segments_slash path⟩
    · exact ⟨c :: s, ss, segments_cons hc h⟩

theorem segments_ne_nil (path : List Char) : segments path ≠ [] := by
  obtain ⟨s, ss, h⟩ := exists_segments path
  rw [h]
  exact List.cons_ne_nil s ss

/-- The segments of two paths with a slash between them are those of the one and of the other. -/
theorem segments_append (first second : List Char) :
    segments (first ++ '/' :: second) = segments first ++ segments second := by
  induction first with
  | nil => exact segments_slash second
  | cons c first ih =>
    rw [List.cons_append]
    by_cases hc : c = '/'
    · subst hc
      rw [segments_slash, segments_slash, ih, List.cons_append]
    · obtain ⟨s, ss, h⟩ := exists_segments first
      rw [h, List.cons_append] at ih
      rw [segments_cons hc ih, segments_cons hc h, List.cons_append]

theorem segments_eq_singleton {segment : List Char} (h : '/' ∉ segment) :
    segments segment = [segment] := by
  induction segment with
  | nil => rfl
  | cons c segment ih =>
    rw [List.mem_cons, not_or] at h
    exact segments_cons (Ne.symm h.1) (ih h.2)

theorem slash_not_mem_of_mem_segments {path segment : List Char} (h : segment ∈ segments path) :
    '/' ∉ segment := by
  induction path generalizing segment with
  | nil =>
    rw [List.mem_singleton.mp h]
    exact List.not_mem_nil
  | cons c path ih =>
    by_cases hc : c = '/'
    · subst hc
      rw [segments_slash] at h
      rcases List.mem_cons.mp h with rfl | h
      · exact List.not_mem_nil
      · exact ih h
    · obtain ⟨s, ss, hpath⟩ := exists_segments path
      rw [segments_cons hc hpath] at h
      rw [hpath] at ih
      rcases List.mem_cons.mp h with rfl | h
      · rw [List.mem_cons, not_or]
        exact ⟨Ne.symm hc, ih (List.mem_cons_self ..)⟩
      · exact ih (List.mem_cons_of_mem s h)

theorem ofSegments_cons {ss : List (List Char)} (hss : ss ≠ []) (s : List Char) :
    ofSegments (s :: ss) = s ++ '/' :: ofSegments ss := by
  cases ss with
  | nil => exact absurd rfl hss
  | cons _ _ => rfl

theorem ofSegments_append {ss : List (List Char)} (hss : ss ≠ []) (s : List Char) :
    ofSegments (ss ++ [s]) = ofSegments ss ++ '/' :: s := by
  induction ss with
  | nil => exact absurd rfl hss
  | cons t ss ih =>
    rw [List.cons_append, ofSegments_cons (by simp)]
    by_cases hnil : ss = []
    · subst hnil
      rfl
    · rw [ih hnil, ofSegments_cons hnil, List.append_assoc, List.cons_append]

/-- A path is made of its segments. -/
theorem ofSegments_segments (path : List Char) : ofSegments (segments path) = path := by
  induction path with
  | nil => rfl
  | cons c path ih =>
    by_cases hc : c = '/'
    · subst hc
      rw [segments_slash, ofSegments_cons (segments_ne_nil path), ih]
      rfl
    · obtain ⟨s, ss, h⟩ := exists_segments path
      rw [segments_cons hc h]
      rw [h] at ih
      by_cases hss : ss = []
      · subst hss
        exact congrArg (c :: ·) ih
      · rw [ofSegments_cons hss] at ih ⊢
        exact congrArg (c :: ·) ih

/-- Segments make a path with these segments. -/
theorem segments_ofSegments {ss : List (List Char)} (hss : ss ≠ []) (h : ∀ s ∈ ss, '/' ∉ s) :
    segments (ofSegments ss) = ss := by
  induction ss with
  | nil => exact absurd rfl hss
  | cons s ss ih =>
    have hs : segments s = [s] := segments_eq_singleton (h s (List.mem_cons_self ..))
    by_cases hnil : ss = []
    · subst hnil
      exact hs
    · rw [ofSegments_cons hnil, segments_append, hs,
        ih hnil fun t ht => h t (List.mem_cons_of_mem s ht), List.singleton_append]

/-! ### Places -/

/-- A segment that goes down: it is not empty and neither stays nor goes back up. -/
def IsName (segment : List Char) : Prop :=
  segment ≠ [] ∧ segment ≠ here ∧ segment ≠ up ∧ '/' ∉ segment

instance (segment : List Char) : Decidable (IsName segment) :=
  inferInstanceAs (Decidable (_ ∧ _))

/-- The names of directories and files. -/
abbrev Name := { segment : List Char // IsName segment }

/-- Where a place is counted from: the root, or a number of directories above the current one. -/
inductive Start where
  | root
  | above (levels : Nat)
deriving DecidableEq

/-- The segments that go up from the start of a path. -/
def Start.segments : Start → List (List Char)
  | root => []
  | above levels => List.replicate levels up

/-- A place: where it is counted from, and the names from there on, the last one first. -/
structure Place where
  start : Start
  names : List Name
deriving DecidableEq

/-- The start of a path. -/
def startOf (path : List Char) : Place :=
  ⟨if isAbsolute path then .root else .above 0, []⟩

namespace Place

/-- The directory around a place; there is nothing above the root. -/
def parent : Place → Place
  | ⟨start, _ :: names⟩ => ⟨start, names⟩
  | ⟨.root, []⟩ => ⟨.root, []⟩
  | ⟨.above levels, []⟩ => ⟨.above (levels + 1), []⟩

/-- A name in a directory. -/
def down (p : Place) (name : Name) : Place :=
  ⟨p.start, name :: p.names⟩

/-- One segment further: down to a name, up to the parent, and nowhere by any other segment. -/
def enter (p : Place) (segment : List Char) : Place :=
  if h : IsName segment then p.down ⟨segment, h⟩
  else if segment = up then p.parent
  else p

/-- Some segments further. -/
def follow (p : Place) (segments : List (List Char)) : Place :=
  segments.foldl enter p

/-- The segments that lead from the start of a path to a place. -/
def segments (p : Place) : List (List Char) :=
  p.start.segments ++ (p.names.map Subtype.val).reverse

def text (p : Place) : List Char :=
  (if p.start = .root then ['/'] else []) ++ ofSegments p.segments

/-- The path of a place. -/
def path (p : Place) : String :=
  String.ofList p.text

theorem toList_path (p : Place) : p.path.toList = p.text :=
  String.toList_ofList

def root : Place :=
  ⟨.root, []⟩

def current : Place :=
  ⟨.above 0, []⟩

end Place

/-- The place that a path leads to. -/
def place (path : List Char) : Place :=
  (startOf path).follow (segments path)

/-- The directory that a file lies in: where all segments of its path but the last lead to. -/
def directory (file : List Char) : Place :=
  (startOf file).follow (segments file).dropLast

/-! ### Following segments -/

namespace Place

theorem enter_name (p : Place) (name : Name) : p.enter name.1 = p.down name :=
  dif_pos name.2

theorem enter_up (p : Place) : p.enter up = p.parent := by
  rw [enter, dif_neg (by decide), if_pos rfl]

theorem enter_empty (p : Place) : p.enter [] = p := by
  rw [enter, dif_neg (by decide), if_neg (by decide)]

theorem follow_append (p : Place) (first second : List (List Char)) :
    p.follow (first ++ second) = (p.follow first).follow second :=
  List.foldl_append

theorem start_parent (p : Place) : p.parent.start = .root ↔ p.start = .root := by
  obtain ⟨start, names⟩ := p
  cases names with
  | cons name names => exact Iff.rfl
  | nil =>
    cases start with
    | root => exact Iff.rfl
    | above levels => exact iff_of_false Start.noConfusion Start.noConfusion

/-- Whether a place is counted from the root does not change on the way. -/
theorem start_enter (p : Place) (segment : List Char) :
    (p.enter segment).start = .root ↔ p.start = .root := by
  unfold enter
  split
  · exact Iff.rfl
  · split
    · exact p.start_parent
    · exact Iff.rfl

theorem start_follow (p : Place) (segments : List (List Char)) :
    (p.follow segments).start = .root ↔ p.start = .root := by
  induction segments generalizing p with
  | nil => exact Iff.rfl
  | cons segment segments ih => exact (ih (p.enter segment)).trans (p.start_enter segment)

end Place

/-! ### Normalizing -/

/-- The segments that have been walked at a place, the last one first. -/
def Place.walked (p : Place) : List (List Char) :=
  p.names.map Subtype.val ++ p.start.segments

theorem Place.reverse_walked (p : Place) : p.walked.reverse = p.segments := by
  have hups : p.start.segments.reverse = p.start.segments := by
    cases p.start with
    | root => rfl
    | above levels => exact List.reverse_replicate
  rw [walked, List.reverse_append, hups, segments]

/-- **Walking one segment further is entering it.** -/
theorem walk_walked (p : Place) {segment : List Char} (hsegment : '/' ∉ segment) :
    walk (decide (p.start = .root)) p.walked segment = (p.enter segment).walked := by
  unfold walk
  by_cases hname : IsName segment
  · rw [p.enter_name ⟨segment, hname⟩, if_neg (not_or.mpr ⟨hname.1, hname.2.1⟩),
      if_neg hname.2.2.1]
    rfl
  by_cases hup : segment = up
  · subst hup
    rw [p.enter_up, if_neg (by decide), if_pos rfl]
    obtain ⟨start, names⟩ := p
    cases names with
    | cons name names => exact if_pos name.2.2.2.1
    | nil =>
      cases start with
      | root => rfl
      | above levels => cases levels <;> rfl
  · have hstay : segment = [] ∨ segment = here := by
      apply Classical.byContradiction
      intro hnot
      exact hname ⟨fun h => hnot (Or.inl h), fun h => hnot (Or.inr h), hup, hsegment⟩
    rw [if_pos hstay, Place.enter, dif_neg hname, if_neg hup]

theorem foldl_walk_walked (p : Place) {ss : List (List Char)} (h : ∀ s ∈ ss, '/' ∉ s) :
    ss.foldl (walk (decide (p.start = .root))) p.walked = (p.follow ss).walked := by
  induction ss generalizing p with
  | nil => rfl
  | cons s ss ih =>
    have hstart : decide (p.start = .root) = decide ((p.enter s).start = .root) :=
      decide_eq_decide.mpr (p.start_enter s).symm
    rw [List.foldl_cons, walk_walked p (h s (List.mem_cons_self ..)), hstart]
    exact ih (p.enter s) fun t ht => h t (List.mem_cons_of_mem s ht)

theorem startOf_of_relative {path : List Char} (h : isAbsolute path = false) :
    startOf path = .current := by
  rw [startOf, h]
  rfl

theorem startOf_of_absolute {path : List Char} (h : isAbsolute path = true) :
    startOf path = .root := by
  rw [startOf, h]
  rfl

theorem start_startOf (path : List Char) :
    (startOf path).start = .root ↔ isAbsolute path = true := by
  unfold startOf
  split
  · exact iff_of_true rfl ‹_›
  · exact iff_of_false Start.noConfusion ‹_›

/-- **Normalizing a path gives the text of the place it leads to.** -/
theorem normalizeChars_eq_text (path : List Char) : normalizeChars path = (place path).text := by
  have habsolute : isAbsolute path = decide ((startOf path).start = .root) := by
    rw [Bool.eq_iff_iff, decide_eq_true_iff]
    exact (start_startOf path).symm
  have hwalked : (startOf path).walked = [] := by
    unfold startOf
    split <;> rfl
  have hall : walkAll path = (place path).segments := by
    rw [walkAll, habsolute, ← hwalked,
      foldl_walk_walked _ fun s hs => slash_not_mem_of_mem_segments hs]
    exact Place.reverse_walked _
  have hstart : (place path).start = .root ↔ isAbsolute path = true :=
    ((startOf path).start_follow (segments path)).trans (start_startOf path)
  rw [normalizeChars, hall, Place.text]
  simp only [hstart]

/-! ### Paths that go on -/

theorem isAbsolute_append {first : List Char} (hfirst : first ≠ []) (second : List Char) :
    isAbsolute (first ++ second) = isAbsolute first := by
  obtain ⟨c, first, rfl⟩ := List.exists_cons_of_ne_nil hfirst
  by_cases hc : c = '/' <;> simp [isAbsolute, hc]

/-- **A path that goes on leads on from the place of its first part.** -/
theorem place_join {first : List Char} (hfirst : first ≠ []) (second : List Char) :
    place (first ++ '/' :: second) = (place first).follow (segments second) := by
  have hstart : startOf (first ++ '/' :: second) = startOf first := by
    rw [startOf, startOf, isAbsolute_append hfirst]
  rw [place, hstart, segments_append, Place.follow_append]
  rfl

/-! ### The text of a place -/

theorem isAbsolute_ofSegments {ss : List (List Char)} (h : ∀ s ∈ ss, s ≠ [] ∧ '/' ∉ s) :
    isAbsolute (ofSegments ss) = false := by
  match ss, h with
  | [], _ => rfl
  | s :: ss, h =>
    obtain ⟨hne, hslash⟩ := h s (List.mem_cons_self ..)
    obtain ⟨c, s', rfl⟩ := List.exists_cons_of_ne_nil hne
    have hc : c ≠ '/' := fun heq => hslash (heq ▸ List.mem_cons_self ..)
    cases ss with
    | nil => simp [ofSegments, isAbsolute, hc]
    | cons t ss => simp [ofSegments, isAbsolute, hc]

namespace Place

theorem mem_segments {p : Place} {s : List Char} (h : s ∈ p.segments) : s ≠ [] ∧ '/' ∉ s := by
  rcases List.mem_append.mp h with h | h
  · cases hstart : p.start with
    | root =>
      rw [hstart] at h
      cases h
    | above levels =>
      rw [hstart] at h
      rw [List.eq_of_mem_replicate h]
      decide
  · obtain ⟨name, -, rfl⟩ := List.mem_map.mp (List.mem_reverse.mp h)
    exact ⟨name.2.1, name.2.2.2.2⟩

/-- Only the places where paths start have no segments. -/
theorem segments_eq_nil_iff {p : Place} : p.segments = [] ↔ p = root ∨ p = current := by
  obtain ⟨start, names⟩ := p
  unfold segments
  rw [List.append_eq_nil_iff, List.reverse_eq_nil_iff, List.map_eq_nil_iff]
  cases start with
  | root => simp [Start.segments, root, current]
  | above levels => simp [Start.segments, root, current]

theorem segments_down (p : Place) (name : Name) :
    (p.down name).segments = p.segments ++ [name.1] := by
  simp [segments, down]

theorem startOf_text (p : Place) :
    startOf p.text = ⟨if p.start = .root then .root else .above 0, []⟩ := by
  unfold startOf text
  split
  · rfl
  · rw [List.nil_append, isAbsolute_ofSegments fun _ hs => mem_segments hs]
    rfl

theorem isAbsolute_text (p : Place) : isAbsolute p.text = true ↔ p.start = .root := by
  rw [← start_startOf, startOf_text]
  by_cases h : p.start = .root
  · simp [h]
  · simp [h]

/-- Empty segments lead nowhere. -/
theorem follow_segments_ofSegments (p : Place) {ss : List (List Char)} (h : ∀ s ∈ ss, '/' ∉ s) :
    p.follow (Path.segments (ofSegments ss)) = p.follow ss := by
  by_cases hss : ss = []
  · subst hss
    exact p.enter_empty
  · rw [segments_ofSegments hss h]

theorem follow_names (start : Start) (names : List Name) :
    (Place.mk start []).follow (names.map Subtype.val).reverse = ⟨start, names⟩ := by
  induction names with
  | nil => rfl
  | cons name names ih =>
    rw [List.map_cons, List.reverse_cons, follow_append, ih]
    exact enter_name ⟨start, names⟩ name

theorem follow_ups (levels more : Nat) :
    (Place.mk (.above levels) []).follow (List.replicate more up)
      = ⟨.above (levels + more), []⟩ := by
  induction more generalizing levels with
  | zero => rfl
  | succ more ih =>
    show ((Place.mk (.above levels) []).enter up).follow (List.replicate more up) = _
    rw [enter_up]
    refine (ih (levels + 1)).trans ?_
    rw [Nat.add_right_comm]
    rfl

/-- The segments of a place lead to it from the start. -/
theorem follow_segments (p : Place) : (startOf p.text).follow p.segments = p := by
  obtain ⟨start, names⟩ := p
  rw [startOf_text, segments, follow_append]
  cases start with
  | root => exact follow_names .root names
  | above levels =>
    show ((Place.mk (.above 0) []).follow (List.replicate levels up)).follow _ = _
    rw [follow_ups, Nat.zero_add]
    exact follow_names (.above levels) names

/-- The leading slash of an absolute text is an empty segment. -/
theorem segments_text {p : Place} (h : p.segments ≠ []) :
    Path.segments p.text = (if p.start = .root then [[]] else []) ++ p.segments := by
  have hsegments : Path.segments (ofSegments p.segments) = p.segments :=
    segments_ofSegments h fun _ hs => (mem_segments hs).2
  unfold text
  split
  · exact (segments_slash _).trans (congrArg ([] :: ·) hsegments)
  · exact hsegments

theorem follow_slash (p : Place) (q : Place) :
    q.follow (if p.start = .root then [[]] else []) = q := by
  split
  · exact q.enter_empty
  · rfl

theorem follow_segments_text (p q : Place) :
    q.follow (Path.segments p.text) = q.follow p.segments := by
  have hsegments : q.follow (Path.segments (ofSegments p.segments)) = q.follow p.segments :=
    q.follow_segments_ofSegments fun _ hs => (mem_segments hs).2
  unfold text
  split
  · show q.follow (Path.segments ('/' :: ofSegments p.segments)) = _
    rw [segments_slash, ← hsegments]
    exact congrArg (follow · _) q.enter_empty
  · exact hsegments

/-- **The text of a place leads to the place.** -/
theorem place_text (p : Place) : place p.text = p :=
  (follow_segments_text p _).trans p.follow_segments

/-- **A file lies in the directory that its text says.** -/
theorem directory_text_down (p : Place) (name : Name) : directory (p.down name).text = p := by
  have hsegments : (p.down name).segments ≠ [] := by
    rw [segments_down]
    simp
  have hstart : startOf (p.down name).text = startOf p.text := by
    rw [startOf_text, startOf_text]
    rfl
  rw [directory, hstart, segments_text hsegments, segments_down, ← List.append_assoc,
    List.dropLast_concat, follow_append, follow_slash]
  exact p.follow_segments

/-- The text of a name in a directory: a slash stands between the two unless the directory is where
paths start. -/
theorem text_down {p : Place} (h : p.segments ≠ []) (name : Name) :
    (p.down name).text = p.text ++ '/' :: name.1 := by
  show (if p.start = .root then ['/'] else []) ++ ofSegments (p.down name).segments = _
  rw [segments_down, ofSegments_append h, ← List.append_assoc]
  rfl

end Place

/-- Normalizing a path gives the path of the place it leads to. -/
theorem normalize_eq_path (path : String) : normalize path = (place path.toList).path := by
  rw [normalize, normalizeChars_eq_text]
  rfl

/-- The path of a place is normalized. -/
theorem normalize_path (p : Place) : normalize p.path = p.path := by
  rw [normalize_eq_path, p.toList_path, p.place_text]

end PropCheck.Path
