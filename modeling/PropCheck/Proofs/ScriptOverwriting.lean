import PropCheck.Proofs.ScriptRegion

/-!
# Replacing a script twice

The script that is put into a template becomes part of the text that is searched when another script
is put there.  It may hold tags of its own, but the region that is found is that of the first
script: no opening tag can start before it, since such a tag would end no later than the one that
starts the region of the template, and the closing tag that ends it is the last one.

* `Source.StandsAt.exists_mark`, `Source.StandsAt.opening_stop_le`: an opening tag ends with the
  first end mark, so tags that start earlier end no later.
* `Source.OpeningHead`: how an opening tag starts, up to the first character after its name.
* `Source.IsRegion.not_opening_before`: no opening tag starts before a region.
* `Source.IsRegion.not_closing_behind`: no closing tag stands behind a region.
* `Source.IsRegion.replaced`: the region of a template with its script replaced.
* `Source.replaceScript_overwrites`: the script that is put in last is the one that counts.
-/

namespace PropCheck.Source

/-! ### Where an opening tag ends -/

theorem Spells.not_mem {word text : List Char} {c : Char} (h : Spells word text)
    (hc : simpleFold c ∉ word) : c ∉ text := by
  intro hmem
  have hfold : simpleFold c ∈ text.map simpleFold := List.mem_map_of_mem hmem
  rw [h] at hfold
  exact hc hfold

/-- The only end mark of an opening tag is its last character. -/
theorem OpeningTag.exists_inner {tag : List Char} (h : OpeningTag tag) :
    ∃ inner, tag = inner ++ ['>'] ∧ '>' ∉ inner := by
  cases h with
  | @plain word hword => exact ⟨word, rfl, hword.not_mem (by decide)⟩
  | @withAttributes word attributes blank hword hblank hnone =>
    have hne : '>' ≠ blank := by
      rintro rfl
      cases hblank
    refine ⟨word ++ blank :: attributes, rfl, ?_⟩
    simpa using ⟨hword.not_mem (by decide), hne, hnone⟩

section

variable {text : List Char} {start stop : Nat}

theorem StandsAt.exists_mark (h : StandsAt OpeningTag text start stop) :
    ∃ mark, stop = mark + 1 ∧ start ≤ mark ∧ text[mark]? = some '>' ∧
      ∀ k, start ≤ k → k < mark → text[k]? ≠ some '>' := by
  obtain ⟨tag, htag, ⟨rest, hrest⟩, rfl⟩ := h
  obtain ⟨inner, rfl, hnone⟩ := htag.exists_inner
  rw [List.append_assoc] at hrest
  refine ⟨start + inner.length, by simp [Nat.add_assoc], Nat.le_add_right _ _, ?_, ?_⟩
  · rw [← List.getElem?_drop, ← hrest, List.getElem?_append_right (Nat.le_refl _), Nat.sub_self]
    rfl
  · intro k hstart hmark hk
    obtain ⟨d, rfl⟩ := Nat.exists_eq_add_of_le hstart
    rw [← List.getElem?_drop, ← hrest, List.getElem?_append_left (by omega)] at hk
    exact hnone (List.mem_of_getElem? hk)

/-- **Of two opening tags the one that starts first ends no later.** -/
theorem StandsAt.opening_stop_le {start' stop' : Nat} (h : StandsAt OpeningTag text start stop)
    (h' : StandsAt OpeningTag text start' stop') (hle : start ≤ start') : stop ≤ stop' := by
  obtain ⟨mark, rfl, -, -, hnone⟩ := h.exists_mark
  obtain ⟨mark', rfl, hle', hmark', -⟩ := h'.exists_mark
  refine Nat.succ_le_succ (Nat.le_of_not_lt fun hlt => ?_)
  exact hnone mark' (Nat.le_trans hle hle') hlt hmark'

end

/-! ### How an opening tag starts -/

/-- The start of an opening tag: its name, and the end mark or a blank after it. -/
def OpeningHead (head : List Char) : Prop :=
  ∃ word next, head = word ++ [next] ∧ Spells openingStart word ∧
    (next = '>' ∨ Text.isBlank next = true)

theorem OpeningTag.exists_head {tag : List Char} (h : OpeningTag tag) :
    ∃ head, OpeningHead head ∧ head <+: tag := by
  cases h with
  | @plain word hword => exact ⟨_, ⟨word, '>', rfl, hword, .inl rfl⟩, List.prefix_rfl⟩
  | @withAttributes word attributes blank hword hblank hnone =>
    refine ⟨_, ⟨word, blank, rfl, hword, .inr hblank⟩, attributes ++ ['>'], ?_⟩
    simp

/-- A text that starts like an opening tag has one there if there is an end mark at all. -/
theorem OpeningHead.exists_standsAt {head text : List Char} {start : Nat} (h : OpeningHead head)
    (hhead : head <+: text.drop start) (hmark : '>' ∈ text.drop start) :
    ∃ stop, StandsAt OpeningTag text start stop := by
  obtain ⟨word, next, rfl, hword, hnext⟩ := h
  obtain ⟨rest, hrest⟩ := hhead
  by_cases hplain : next = '>'
  · subst hplain
    exact ⟨_, _, .plain hword, ⟨rest, hrest⟩, rfl⟩
  · have hblank := hnext.resolve_left hplain
    have hmem : '>' ∈ rest := by
      rw [← hrest] at hmark
      simpa [hword.not_mem (by decide : simpleFold '>' ∉ openingStart), Ne.symm hplain] using hmark
    obtain ⟨attributes, after, rfl, hnone⟩ := List.eq_append_cons_of_mem hmem
    refine ⟨_, _, .withAttributes hword hblank hnone, ⟨after, ?_⟩, rfl⟩
    rw [← hrest]
    simp

/-- No other tag starts inside the start of an opening tag. -/
theorem OpeningHead.not_mem_tail {head : List Char} (h : OpeningHead head) : '<' ∉ head.tail := by
  obtain ⟨word, next, rfl, hword, hnext⟩ := h
  obtain ⟨c, rest, rfl, -, hrest⟩ := List.map_eq_cons_iff.mp hword
  have hne : '<' ≠ next := by
    rintro rfl
    rcases hnext with h | h <;> cases h
  have hrest : '<' ∉ rest := Spells.not_mem hrest (by decide)
  simpa using ⟨hrest, hne⟩

theorem isPrefix_of_not_mem_tail {head as bs : List Char} {x : Char} (hne : as ≠ [])
    (h : head <+: as ++ x :: bs) (hx : x ∉ head.tail) : head <+: as := by
  obtain ⟨rest, hrest⟩ := h
  rcases List.append_eq_append_iff.mp hrest with ⟨more, rfl, -⟩ | ⟨more, rfl, hmore⟩
  · exact List.prefix_append head more
  · cases more with
    | nil => exact ⟨[], by simp⟩
    | cons y more =>
      cases hmore
      obtain ⟨a, as', rfl⟩ := List.exists_cons_of_ne_nil hne
      exact absurd (by simp) hx

/-- No other closing tag starts inside a closing tag. -/
theorem eq_zero_of_closing_inside {rest : List Char} {start stop : Nat}
    (h : StandsAt ClosingTag (closing ++ rest) start stop) (hinside : start < closing.length) :
    start = 0 := by
  obtain ⟨tag, htag, ⟨after, hafter⟩, -⟩ := h
  obtain ⟨c, tag', rfl, hc, -⟩ := List.map_eq_cons_iff.mp htag
  have hthere : closing[start]? = some c := by
    have hhead := congrArg (·[0]?) hafter
    simpa [List.getElem?_append_left hinside] using hhead.symm
  cases start with
  | zero => rfl
  | succ start =>
    -- behind its first character a closing tag has nothing that starts a tag
    have hmem : c ∈ closing.tail := List.mem_of_getElem? (i := start) hthere
    have hfold := List.mem_map_of_mem (f := simpleFold) hmem
    rw [hc] at hfold
    exact absurd hfold (by decide)

/-! ### The region of a template with its script replaced -/

namespace IsRegion

variable {text : List Char} {start stop : Nat}

theorem start_le_length (h : IsRegion text start stop) : start ≤ text.length := by
  obtain ⟨_, hopens, -⟩ := h.viable
  obtain ⟨mark, -, hle, hmark, -⟩ := hopens.exists_mark
  have hlt : mark < text.length := (List.getElem?_eq_some_iff.mp hmark).1
  omega

/-- **No opening tag starts before a region**, whatever stands there from its first character on. -/
theorem not_opening_before (h : IsRegion text start stop) {other stop' : Nat} (rest : List Char)
    (hlt : other < start) : ¬ StandsAt OpeningTag (text.take start ++ '<' :: rest) other stop' := by
  rintro ⟨tag, htag, htext, -⟩
  obtain ⟨head, hhead, hstarts⟩ := htag.exists_head
  have hlength : (text.take start).length = start := List.length_take_of_le h.start_le_length
  -- the start of the tag has no room for the first character of the region
  have hbefore : head <+: (text.take start).drop other := by
    have hne : (text.take start).drop other ≠ [] := by
      intro hnil
      have := List.drop_eq_nil_iff.mp hnil
      omega
    rw [List.drop_append_of_le_length (by omega)] at htext
    exact isPrefix_of_not_mem_tail hne (hstarts.trans htext) hhead.not_mem_tail
  have hthere : head <+: text.drop other := by
    rw [List.drop_take] at hbefore
    exact hbefore.trans (List.take_prefix _ _)
  -- so the tag stands in the old text as well, and ends where the region's own opening tag ends
  obtain ⟨stop₀, hopens, next, last, hcloses, hle⟩ := h.viable
  obtain ⟨mark, -, hfrom, hmark, -⟩ := hopens.exists_mark
  have hmem : '>' ∈ text.drop other := by
    refine List.mem_of_getElem? (i := mark - other) ?_
    rw [List.getElem?_drop, Nat.add_sub_cancel' (by omega), hmark]
  obtain ⟨stop₁, hopens₁⟩ := hhead.exists_standsAt hthere hmem
  have hstop : stop₁ ≤ stop₀ := hopens₁.opening_stop_le hopens (Nat.le_of_lt hlt)
  have hfirst := h.first other ⟨stop₁, hopens₁, next, last, hcloses, Nat.le_trans hstop hle⟩
  omega

/-- **No closing tag stands behind a region.** -/
theorem not_closing_behind (h : IsRegion text start stop) (other stop' : Nat) :
    ¬ StandsAt ClosingTag (text.drop stop) other stop' := by
  rintro ⟨tag, htag, hbehind, -⟩
  obtain ⟨closes, hlast⟩ := h.last
  rw [List.drop_drop] at hbehind
  have hle := hlast.last _ _ ⟨tag, htag, hbehind, rfl⟩
  obtain ⟨last, hspells, -, rfl⟩ := hlast.closes
  have hlength := ClosingTag.length_eq hspells
  simp only [closing, List.length_cons] at hlength
  omega

/-- A closing tag that is put before what stands behind a region is the last one. -/
theorem lastClosing (h : IsRegion text start stop) (before : List Char) :
    LastClosing (before ++ (closing ++ text.drop stop)) before.length
      (before.length + closing.length) := by
  have hlast : LastClosing (closing ++ text.drop stop) 0 closing.length := by
    refine ⟨standsAt_zero.mpr ⟨closing, _, (by decide : Spells closing closing), rfl, rfl⟩, ?_⟩
    intro other stop' hother
    by_cases hinside : other < closing.length
    · exact Nat.le_of_eq (eq_zero_of_closing_inside hother hinside)
    · obtain ⟨_, _, -, -, hbehind⟩ := hother.behind closing (Nat.le_of_not_lt hinside)
      exact absurd hbehind (h.not_closing_behind _ _)
  exact hlast.append before

/-- **The region of a template with its script replaced** starts where it started before, and ends
with the closing tag that was put there. -/
theorem replaced (h : IsRegion text start stop) (script : List Char) :
    IsRegion (text.take start ++ tagged script ++ text.drop stop) start
      (start + (tagged script).length) := by
  have hlength : (text.take start).length = start := List.length_take_of_le h.start_le_length
  have hsplit : text.take start ++ tagged script ++ text.drop stop
      = text.take start ++ (openingStart ++ ['>']) ++ script ++ (closing ++ text.drop stop) := by
    simp [tagged, openingStart]
  have hlast := h.lastClosing (text.take start ++ (openingStart ++ ['>']) ++ script)
  have hopens : StandsAt OpeningTag (text.take start ++ tagged script ++ text.drop stop) start
      (start + (openingStart ++ ['>']).length) := by
    refine ⟨openingStart ++ ['>'], .plain (by decide), ?_, rfl⟩
    rw [hsplit, List.append_assoc, List.append_assoc, List.drop_left' hlength]
    exact List.prefix_append _ _
  have hstop : (text.take start ++ (openingStart ++ ['>']) ++ script).length + closing.length
      = start + (tagged script).length := by
    simp only [List.length_append, hlength, tagged, openingStart, List.length_cons,
      List.length_nil]
    omega
  rw [← hsplit, hstop] at hlast
  refine ⟨⟨_, hopens, _, _, hlast.closes, ?_⟩, fun other hother => ?_, _, hlast⟩
  · simp only [List.length_append, hlength]
    omega
  · obtain ⟨_, hother, -⟩ := hother
    rw [List.append_assoc] at hother
    exact Nat.le_of_not_lt fun hlt => h.not_opening_before _ hlt hother

end IsRegion

theorem replaceRegion_overwrites (first second text : List Char) :
    replaceRegion second (replaceRegion first text) = replaceRegion second text := by
  rcases replaceRegion_cases first text with ⟨hsame, -⟩ | ⟨start, stop, hregion, hreplaced⟩
  · rw [hsame]
  · have hlength := List.length_take_of_le hregion.start_le_length
    have htake : (text.take start ++ tagged first ++ text.drop stop).take start
        = text.take start := by
      rw [List.append_assoc, List.take_left' hlength]
    have hdrop : (text.take start ++ tagged first ++ text.drop stop).drop
        (start + (tagged first).length) = text.drop stop := by
      rw [List.drop_left' (by rw [List.length_append, hlength])]
    rw [hreplaced, replaceRegion_of_isRegion second hregion,
      replaceRegion_of_isRegion second (hregion.replaced first), htake, hdrop]

/-- **The script that is put in last is the one that counts.** It does not matter which script was
put into a template before, also if that one holds tags of its own. -/
theorem replaceScript_overwrites (template first second : String) :
    replaceScript (replaceScript template first) second = replaceScript template second := by
  rw [replaceScript, replaceScript, String.toList_ofList, replaceRegion_overwrites]
  rfl

end PropCheck.Source
