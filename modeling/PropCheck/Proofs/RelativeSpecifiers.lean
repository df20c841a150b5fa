import PropCheck.Proofs.Places
import PropCheck.Proofs.Resolution

/-!
# Relative specifiers

A relative specifier is followed from the directory of the importing file.  The place it leads to
stands for one of five files: that of its own path, with one of two endings, or an index file in the
directory of the path.  The module that is looked up is the first of these, with two exceptions that
come from joining texts.  A file that is written directly below the root has nothing before its last
slash, so its specifiers are followed from the current directory and not from the root; and a slash
before the name of an index file is one too many where the directory is the root or the current one.

* `Path.resolve`: the place that a path means in a file.
* `Path.Place.candidates`: the files that a place may stand for.
* `Path.AtRoot`: a file is written directly below the root.
* `Program.basePath_eq_path`, `Program.basePath_of_atRoot`: the path that a specifier means.
* `Program.relative_specifiers_iff`: the first of the five files is looked up for exactly the
  specifiers and files without the exceptions, and normalizing the file changes nothing unless it
  brings the file to the root.
* `Program.relative_specifiers_miss_root`: the exceptions are met.
-/

namespace PropCheck

namespace Path

namespace Place

/-- The files that a place may stand for, the best one first: its own path, with an ending, and the
index files in it. -/
def candidates (p : Place) : List String :=
  [p.path, p.path ++ ".d.ts", p.path ++ ".ts",
    (p.down ⟨"index.d.ts".toList, by decide⟩).path, (p.down ⟨"index.ts".toList, by decide⟩).path]

end Place

theorem isAbsolute_join {path : String} (h : isAbsolute path.toList = true) (ending : String) :
    isAbsolute (path ++ ending).toList = true := by
  have hne : path.toList ≠ [] := by
    intro hnil
    rw [hnil] at h
    cases h
  rw [String.toList_append, isAbsolute_append hne]
  exact h

/-- The place that a path means in a file. -/
def resolve (file path : List Char) : Place :=
  (directory file).follow (segments path)

/-- The last segment of a path. -/
def lastSegment (path : List Char) : List Char :=
  (segments path).getLast (segments_ne_nil path)

/-- The file is written directly below the root: nothing stands before its last slash. -/
def AtRoot (file : List Char) : Prop :=
  (segments file).dropLast = [[]]

instance (file : List Char) : Decidable (AtRoot file) :=
  inferInstanceAs (Decidable (_ = _))

theorem segments_eq_dropLast_append (file : List Char) :
    segments file = (segments file).dropLast ++ [lastSegment file] :=
  (List.dropLast_concat_getLast (segments_ne_nil file)).symm

/-- A path with a slash is what stands before its last slash, and its last segment. -/
theorem eq_directoryChars_append {file : List Char} (h : (segments file).dropLast ≠ []) :
    file = directoryChars file ++ '/' :: lastSegment file :=
  calc file = ofSegments (segments file) := (ofSegments_segments file).symm
    _ = ofSegments ((segments file).dropLast ++ [lastSegment file]) :=
      congrArg ofSegments (segments_eq_dropLast_append file)
    _ = directoryChars file ++ '/' :: lastSegment file := ofSegments_append h _

theorem segments_directoryChars {file : List Char} (h : (segments file).dropLast ≠ []) :
    segments (directoryChars file) = (segments file).dropLast :=
  segments_ofSegments h fun _ hs => slash_not_mem_of_mem_segments (List.dropLast_subset _ hs)

/-- Nothing stands before the last slash of a path that has no slash or starts with its only one. -/
theorem directoryChars_eq_nil_iff {file : List Char} :
    directoryChars file = [] ↔ (segments file).dropLast = [] ∨ AtRoot file := by
  constructor
  · intro h
    by_cases hnil : (segments file).dropLast = []
    · exact Or.inl hnil
    · have hsegments := segments_directoryChars hnil
      rw [h] at hsegments
      exact Or.inr hsegments.symm
  · rintro (h | h)
    · rw [directoryChars, h]
      rfl
    · rw [directoryChars, h]
      rfl

/-- What stands before the last slash of a path leads to its directory. -/
theorem place_directoryChars {file : List Char} (h : directoryChars file ≠ []) :
    place (directoryChars file) = directory file := by
  have hsegments : (segments file).dropLast ≠ [] :=
    fun hnil => h (directoryChars_eq_nil_iff.mpr (Or.inl hnil))
  have habsolute := isAbsolute_append h ('/' :: lastSegment file)
  rw [← eq_directoryChars_append hsegments] at habsolute
  rw [place, startOf, ← habsolute, segments_directoryChars hsegments]
  rfl

theorem isAbsolute_of_dropLast_eq_nil {file : List Char} (h : (segments file).dropLast = []) :
    isAbsolute file = false := by
  match file with
  | [] => rfl
  | c :: file =>
    by_cases hc : c = '/'
    · subst hc
      rw [segments_slash, List.dropLast_cons_of_ne_nil (segments_ne_nil file)] at h
      cases h
    · simp [isAbsolute, hc]

theorem isAbsolute_of_atRoot {file : List Char} (h : AtRoot file) : isAbsolute file = true := by
  have hne : (segments file).dropLast ≠ [] := by
    rw [h]
    exact List.cons_ne_nil _ _
  rw [eq_directoryChars_append hne, directoryChars_eq_nil_iff.mpr (Or.inr h)]
  rfl

theorem directory_of_atRoot {file : List Char} (h : AtRoot file) : directory file = .root := by
  rw [directory, h, startOf_of_absolute (isAbsolute_of_atRoot h)]
  exact Place.root.enter_empty

/-! ### Normalized files -/

theorem place_eq_down {file : List Char} (h : IsName (lastSegment file)) :
    place file = (directory file).down ⟨lastSegment file, h⟩ := by
  rw [place, segments_eq_dropLast_append, Place.follow_append]
  exact (directory file).enter_name ⟨lastSegment file, h⟩

theorem atRoot_text_down (p : Place) (name : Name) : AtRoot (p.down name).text ↔ p = .root := by
  have hsegments : (p.down name).segments ≠ [] := by
    rw [p.segments_down]
    simp
  rw [AtRoot, Place.segments_text hsegments, p.segments_down, ← List.append_assoc,
    List.dropLast_concat]
  show (if p.start = .root then [[]] else []) ++ p.segments = [[]] ↔ p = .root
  split
  · rename_i hstart
    have hcurrent : p ≠ .current := by
      rintro rfl
      cases hstart
    rw [List.singleton_append, List.cons.injEq, Place.segments_eq_nil_iff]
    simp [hcurrent]
  · rename_i hstart
    rw [List.nil_append]
    refine iff_of_false (fun h => ?_) (fun h => hstart (h ▸ rfl))
    have hmem : [] ∈ p.segments := h ▸ List.mem_singleton_self []
    exact (Place.mem_segments hmem).1 rfl

/-- Normalizing a file keeps its directory. -/
theorem directory_normalize {file : String} (h : IsName (lastSegment file.toList)) :
    directory (normalize file).toList = directory file.toList := by
  rw [normalize_eq_path, Place.toList_path, place_eq_down h, Place.directory_text_down]

/-- A normalized file is written directly below the root exactly if its directory is the root. -/
theorem atRoot_normalize {file : String} (h : IsName (lastSegment file.toList)) :
    AtRoot (normalize file).toList ↔ directory file.toList = .root := by
  rw [normalize_eq_path, Place.toList_path, place_eq_down h, atRoot_text_down]

end Path

namespace Program

/-! ### The files that a path may stand for -/

/-- Joining the texts gives the five files unless the place is the root or the current directory. -/
theorem candidates_path {p : Path.Place} (hroot : p ≠ .root) (hcurrent : p ≠ .current) :
    candidates p.path = p.candidates := by
  have hsegments : p.segments ≠ [] := by
    rw [Ne, Path.Place.segments_eq_nil_iff, not_or]
    exact ⟨hroot, hcurrent⟩
  have hdown : ∀ name : Path.Name,
      (p.down name).path = p.path ++ String.ofList ('/' :: name.1) := by
    intro name
    rw [Path.Place.path, Path.Place.text_down hsegments, String.ofList_append]
    rfl
  unfold candidates Path.Place.candidates
  rw [hdown, hdown]
  rfl

/-- All files that an absolute path may stand for are absolute. -/
theorem isAbsolute_of_mem_candidates {path file : String}
    (hpath : Path.isAbsolute path.toList = true) (h : file ∈ candidates path) :
    Path.isAbsolute file.toList = true := by
  simp only [candidates, List.mem_cons, List.not_mem_nil, or_false] at h
  rcases h with rfl | rfl | rfl | rfl | rfl
  · exact hpath
  all_goals exact Path.isAbsolute_join hpath _

theorem isAbsolute_of_mem_place_candidates {p : Path.Place} (hp : p.start = .root) {file : String}
    (h : file ∈ p.candidates) : Path.isAbsolute file.toList = true := by
  have hplace : ∀ q : Path.Place, q.start = .root → Path.isAbsolute q.path.toList = true := by
    intro q hq
    rw [q.toList_path]
    exact q.isAbsolute_text.mpr hq
  simp only [Path.Place.candidates, List.mem_cons, List.not_mem_nil, or_false] at h
  rcases h with rfl | rfl | rfl | rfl | rfl
  · exact hplace p hp
  · exact Path.isAbsolute_join (hplace p hp) _
  · exact Path.isAbsolute_join (hplace p hp) _
  · exact hplace _ hp
  · exact hplace _ hp

/-! ### The path that a specifier means -/

theorem isAbsolute_of_isRelative {specifier : String} (h : isRelative specifier = true) :
    Path.isAbsolute specifier.toList = false := by
  rw [isRelative, Bool.or_eq_true, List.isPrefixOf_iff_prefix, List.isPrefixOf_iff_prefix] at h
  rcases h with ⟨rest, hrest⟩ | ⟨rest, hrest⟩
  · rw [← hrest]
    rfl
  · rw [← hrest]
    rfl

section

variable {specifier file : String}

/-- **A relative specifier is followed from the directory of the file**, unless the file is written
directly below the root. -/
theorem basePath_eq_path (hrelative : isRelative specifier = true)
    (hroot : ¬ Path.AtRoot file.toList) :
    basePath specifier file = (Path.resolve file.toList specifier.toList).path := by
  rw [basePath, if_pos hrelative]
  by_cases hdirectory : (Path.segments file.toList).dropLast = []
  · -- a file without a slash is in the current directory, where its specifiers start too
    have hchars : Path.directoryChars file.toList = [] :=
      Path.directoryChars_eq_nil_iff.mpr (Or.inl hdirectory)
    rw [Path.beside, hchars, Path.resolve, Path.directory, hdirectory,
      Path.startOf_of_relative (Path.isAbsolute_of_dropLast_eq_nil hdirectory),
      ← Path.startOf_of_relative (isAbsolute_of_isRelative hrelative)]
    exact Path.normalize_eq_path specifier
  · have hchars : Path.directoryChars file.toList ≠ [] := by
      rw [Ne, Path.directoryChars_eq_nil_iff, not_or]
      exact ⟨hdirectory, hroot⟩
    have hplace : Path.place (Path.directoryChars file.toList ++ '/' :: specifier.toList)
        = Path.resolve file.toList specifier.toList := by
      rw [Path.place_join hchars, Path.place_directoryChars hchars]
      rfl
    rw [Path.beside]
    split
    · rename_i hnil
      exact absurd hnil hchars
    · rw [Path.normalizeChars_eq_text, hplace]
      rfl

/-- In a file that is written directly below the root, a relative specifier is followed from the
current directory. -/
theorem basePath_of_atRoot (hrelative : isRelative specifier = true)
    (hroot : Path.AtRoot file.toList) : basePath specifier file
      = (Path.Place.current.follow (Path.segments specifier.toList)).path := by
  rw [basePath, if_pos hrelative, Path.beside, Path.directoryChars_eq_nil_iff.mpr (Or.inr hroot),
    ← Path.startOf_of_relative (isAbsolute_of_isRelative hrelative)]
  exact Path.normalize_eq_path specifier

end

/-! ### Programs with one module -/

/-- A program with one module has no other. -/
theorem contains_addModule_empty (p : Path.Place) (text file : String) :
    (empty.addModule p.path text).modules.contains file = (file == p.path) := by
  show ([(Path.normalize p.path, _)].lookup file).isSome = _
  rw [Path.normalize_path, List.lookup_cons]
  cases file == p.path <;> rfl

section

variable {specifier file : String}

/-- The file at the path that a specifier means is looked up first. -/
theorem moduleFile?_base {p : Path.Place} (h : basePath specifier file = p.path) :
    (empty.addModule p.path "").moduleFile? specifier file = some p.path := by
  rw [moduleFile?, h]
  apply List.find?_cons_of_pos
  rw [contains_addModule_empty, beq_self_eq_true]

/-- What is looked up from the current directory is no absolute file. -/
theorem isAbsolute_path_follow_current (ss : List (List Char)) :
    Path.isAbsolute (Path.Place.current.follow ss).path.toList = false := by
  rw [Path.Place.toList_path, Bool.eq_false_iff, Ne, Path.Place.isAbsolute_text,
    Path.Place.start_follow]
  exact Path.Start.noConfusion

/-- In a file that is written directly below the root, a module in the current directory is found
that the specifier does not mean. -/
theorem exists_found_of_atRoot (hrelative : isRelative specifier = true)
    (hroot : Path.AtRoot file.toList) : ∃ program : Program, program.moduleFile? specifier file
      ≠ (Path.resolve file.toList specifier.toList).candidates.find? program.modules.contains := by
  have hfound := moduleFile?_base (basePath_of_atRoot hrelative hroot)
  refine ⟨empty.addModule (Path.Place.current.follow (Path.segments specifier.toList)).path "",
    fun hlaw => ?_⟩
  rw [hfound] at hlaw
  have hstart : (Path.resolve file.toList specifier.toList).start = .root := by
    rw [Path.resolve, Path.Place.start_follow, Path.directory_of_atRoot hroot]
    rfl
  have habsolute := isAbsolute_of_mem_place_candidates hstart
    (List.mem_of_find?_eq_some hlaw.symm)
  rw [isAbsolute_path_follow_current] at habsolute
  cases habsolute

/-- The index file of the root or of the current directory is missed by joining texts. -/
theorem exists_missed_index {p : Path.Place} (hp : p = .root ∨ p = .current) :
    ∃ program : Program, (candidates p.path).find? program.modules.contains
      ≠ p.candidates.find? program.modules.contains := by
  refine ⟨empty.addModule (p.down ⟨"index.ts".toList, by decide⟩).path "", ?_⟩
  rw [funext (contains_addModule_empty (p.down ⟨"index.ts".toList, by decide⟩) "")]
  rcases hp with rfl | rfl
  · decide +kernel
  · decide +kernel

/-- Where a file is normalized to one directly below the root, a module is found that was not found
before. -/
theorem exists_found_of_normalize (hrelative : isRelative specifier = true)
    (hname : Path.IsName (Path.lastSegment file.toList))
    (hdirectory : Path.directory file.toList = .root) (hroot : ¬ Path.AtRoot file.toList) :
    ∃ program : Program, program.moduleFile? specifier (Path.normalize file)
      ≠ program.moduleFile? specifier file := by
  have hfound := moduleFile?_base
    (basePath_of_atRoot hrelative ((Path.atRoot_normalize hname).mpr hdirectory))
  refine ⟨empty.addModule (Path.Place.current.follow (Path.segments specifier.toList)).path "",
    fun hsame => ?_⟩
  rw [hfound] at hsame
  have hpath : Path.isAbsolute (basePath specifier file).toList = true := by
    rw [basePath_eq_path hrelative hroot, Path.Place.toList_path, Path.Place.isAbsolute_text,
      Path.resolve, Path.Place.start_follow, hdirectory]
    rfl
  have habsolute := isAbsolute_of_mem_candidates hpath (List.mem_of_find?_eq_some hsame.symm)
  rw [isAbsolute_path_follow_current] at habsolute
  cases habsolute

/-- A file gives the same path as the normalized file, unless only that stands directly below the
root. -/
theorem basePath_normalize (hrelative : isRelative specifier = true)
    (hname : Path.IsName (Path.lastSegment file.toList))
    (hroot : Path.directory file.toList = .root → Path.AtRoot file.toList) :
    basePath specifier (Path.normalize file) = basePath specifier file := by
  by_cases hdirectory : Path.directory file.toList = .root
  · rw [basePath_of_atRoot hrelative ((Path.atRoot_normalize hname).mpr hdirectory),
      basePath_of_atRoot hrelative (hroot hdirectory)]
  · have hnot : ¬ Path.AtRoot file.toList := fun h => hdirectory (Path.directory_of_atRoot h)
    have hnot' : ¬ Path.AtRoot (Path.normalize file).toList :=
      fun h => hdirectory ((Path.atRoot_normalize hname).mp h)
    rw [basePath_eq_path hrelative hnot', basePath_eq_path hrelative hnot, Path.resolve,
      Path.directory_normalize hname]
    rfl

end

/-- **Relative specifiers are followed from the directory of the file, the root apart.**  For a file
whose last segment is a name and a relative specifier, let `p` be the place that the specifier means
in the file.  In every program the module looked up is the first of the files that `p` may stand
for, exactly if the file is not written directly below the root and `p` is neither the root nor the
current directory.  And in every program the normalized file gives the same module as the file,
exactly if it is not only the normalized file that stands directly below the root. -/
theorem relative_specifiers_iff (specifier file : String) (hrelative : isRelative specifier = true)
    (hname : Path.IsName (Path.lastSegment file.toList)) :
    ((∀ program : Program, program.moduleFile? specifier file
        = (Path.resolve file.toList specifier.toList).candidates.find? program.modules.contains)
      ↔ ¬ Path.AtRoot file.toList ∧ Path.resolve file.toList specifier.toList ≠ .root ∧
        Path.resolve file.toList specifier.toList ≠ .current) ∧
    ((∀ program : Program,
        program.moduleFile? specifier (Path.normalize file) = program.moduleFile? specifier file)
      ↔ (Path.directory file.toList = .root → Path.AtRoot file.toList)) := by
  constructor
  · constructor
    · intro hlaw
      have hroot : ¬ Path.AtRoot file.toList := by
        intro hroot
        obtain ⟨program, hfound⟩ := exists_found_of_atRoot hrelative hroot
        exact hfound (hlaw program)
      have hplace : ¬ (Path.resolve file.toList specifier.toList = .root
          ∨ Path.resolve file.toList specifier.toList = .current) := by
        intro hp
        obtain ⟨program, hmissed⟩ := exists_missed_index hp
        rw [← basePath_eq_path hrelative hroot] at hmissed
        exact hmissed (hlaw program)
      exact ⟨hroot, not_or.mp hplace⟩
    · rintro ⟨hroot, hp⟩ program
      rw [moduleFile?, basePath_eq_path hrelative hroot, candidates_path hp.1 hp.2]
  · constructor
    · intro hsame hdirectory
      apply Classical.byContradiction
      intro hroot
      obtain ⟨program, hfound⟩ := exists_found_of_normalize hrelative hname hdirectory hroot
      exact hfound (hsame program)
    · intro hroot program
      rw [moduleFile?, moduleFile?, basePath_normalize hrelative hname hroot]

/-- A file whose path goes down and up again, a specifier that goes up, and a module that is an
index file. -/
theorem relative_specifiers_iff_button :
    let program := (empty.addModule "ui/Button/index.ts" "").addModule "src/ui/Button.ts" ""
    let file := "src/pages/../App.svelte.ts"
    Path.normalize file = "src/App.svelte.ts" ∧
    program.moduleFile? "../ui/Button" file
      = (Path.resolve file.toList "../ui/Button".toList).candidates.find?
          program.modules.contains ∧
    program.moduleFile? "../ui/Button" (Path.normalize file)
      = program.moduleFile? "../ui/Button" file ∧
    program.moduleFile? "../ui/Button" file = some "ui/Button/index.ts" := by
  intro program file
  obtain ⟨hlaw, hsame⟩ := relative_specifiers_iff "../ui/Button" file (by decide) (by decide)
  refine ⟨by decide +kernel, hlaw.mpr (by decide) program, hsame.mpr (by decide) program, ?_⟩
  decide +kernel

/-- The exceptions are met: a file directly below the root does not see the modules beside it. -/
theorem relative_specifiers_miss_root :
    ¬ ∀ (program : Program) (specifier file : String), isRelative specifier = true →
      Path.IsName (Path.lastSegment file.toList) →
      program.moduleFile? specifier file
          = (Path.resolve file.toList specifier.toList).candidates.find? program.modules.contains ∧
        program.moduleFile? specifier (Path.normalize file)
          = program.moduleFile? specifier file := by
  intro h
  have hroot := (h (empty.addModule "/Counter.ts" "") "./Counter" "/App.svelte.ts" (by decide)
    (by decide)).1
  revert hroot
  decide +kernel

end Program

end PropCheck
