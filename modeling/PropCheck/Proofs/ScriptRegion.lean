import PropCheck.Source.ScriptTag

/-!
# Which part of a template is replaced

A tag is looked for whatever the case of its letters.  The region that is replaced starts with the
first opening tag that some closing tag follows, and it ends with the last closing tag of the whole
template.  All positions here count characters.

* `Source.simpleFold`: case folding, as far as a tag can tell.
* `Source.OpeningTag`, `Source.ClosingTag`: the texts that are tags.
* `Source.Viable`: an opening tag that a closing tag follows.
* `Source.IsRegion`: the part of a template from the first viable opening to the last closing tag.
* `Source.replaceRegion_cases`: such a part is replaced, or there is none and nothing is.
* `Source.replaceRegion_of_isRegion`: a text has only one such part.
* `Source.script_region_replaced`: what a template becomes.
-/

namespace PropCheck.Source

/-! ### Tags -/

/-- Simple case folding of Unicode, as far as its results are ASCII: the long s and the Kelvin sign
are the only characters from outside that are folded to letters of a tag or of any ASCII word. -/
def simpleFold (c : Char) : Char :=
  if c = 'ſ' then 's' else if c = 'K' then 'k' else c.toLower

/-- A text is a word in small letters, whatever the case of its own letters. -/
def Spells (word text : List Char) : Prop :=
  text.map simpleFold = word

instance (word text : List Char) : Decidable (Spells word text) :=
  inferInstanceAs (Decidable (_ = _))

/-- An opening tag: it ends at once, or attributes follow after a blank and last up to the end. -/
inductive OpeningTag : List Char → Prop
  | plain {word : List Char} : Spells openingStart word → OpeningTag (word ++ ['>'])
  | withAttributes {word attributes : List Char} {blank : Char} : Spells openingStart word →
      Text.isBlank blank = true → '>' ∉ attributes →
      OpeningTag (word ++ blank :: attributes ++ ['>'])

def ClosingTag (tag : List Char) : Prop :=
  Spells closing tag

/-- A tag of some kind starts at a position of a text and ends before another. -/
def StandsAt (kind : List Char → Prop) (text : List Char) (start stop : Nat) : Prop :=
  ∃ tag, kind tag ∧ tag <+: text.drop start ∧ stop = start + tag.length

/-- An opening tag starts at a position, and a closing tag follows it. -/
def Viable (text : List Char) (start : Nat) : Prop :=
  ∃ stop, StandsAt OpeningTag text start stop ∧
    ∃ next last, StandsAt ClosingTag text next last ∧ stop ≤ next

/-- The last closing tag of a text starts at a position and ends before another. -/
structure LastClosing (text : List Char) (start stop : Nat) : Prop where
  closes : StandsAt ClosingTag text start stop
  last : ∀ other stop', StandsAt ClosingTag text other stop' → other ≤ start

/-- The part of a text from the first viable opening tag to the end of the last closing tag. -/
structure IsRegion (text : List Char) (start stop : Nat) : Prop where
  viable : Viable text start
  first : ∀ other, Viable text other → start ≤ other
  last : ∃ closes, LastClosing text closes stop

/-! ### Letters -/

theorem toUpper_toLower {c : Char} (h : 'A' ≤ c ∧ c ≤ 'Z') : c.toLower.toUpper = c := by
  have hall : ∀ n < 26, (Char.ofNat (65 + n)).toLower.toUpper = Char.ofNat (65 + n) := by decide
  have hlow : 65 ≤ c.toNat := h.1
  have hhigh : c.toNat ≤ 90 := h.2
  have hc := hall (c.toNat - 65) (by omega)
  rwa [Nat.add_sub_cancel' hlow, Char.ofNat_toNat] at hc

/-- **The letters that are tried for a letter of a tag are those that are folded to it.** -/
theorem isLetter_iff {w c : Char} (hw : w ∈ closing) :
    isLetter w c = true ↔ simpleFold c = w := by
  have hlower : simpleFold w = w :=
    List.map_inj_left.mp (by decide : closing.map simpleFold = closing.map id) w hw
  have hupper : simpleFold w.toUpper = w :=
    List.map_inj_left.mp
      (by decide : closing.map (fun w => simpleFold w.toUpper) = closing.map id) w hw
  rw [isLetter, Bool.or_eq_true, Bool.or_eq_true, Bool.and_eq_true, beq_iff_eq, beq_iff_eq,
    beq_iff_eq, beq_iff_eq]
  constructor
  · rintro ((rfl | rfl) | ⟨rfl, rfl⟩)
    · exact hlower
    · exact hupper
    · rfl
  · intro h
    rw [simpleFold] at h
    split at h
    · exact .inr ⟨h.symm, ‹_›⟩
    · split at h
      · -- no letter of a tag is a k
        exact absurd (h ▸ hw) (by decide : 'k' ∉ closing)
      · left
        by_cases hrange : 'A' ≤ c ∧ c ≤ 'Z'
        · right
          rw [← h, toUpper_toLower hrange]
        · left
          have hsame : c.toLower = c := dif_neg hrange
          exact hsame.symm.trans h

theorem dropWord?_eq_some_iff {word cs rest : List Char} (hword : ∀ w ∈ word, w ∈ closing) :
    dropWord? word cs = some rest ↔ ∃ text, Spells word text ∧ cs = text ++ rest := by
  induction word generalizing cs with
  | nil => simp [dropWord?, Spells]
  | cons w word ih =>
    have ihword := fun {cs} => @ih cs fun v hv => hword v (List.mem_cons_of_mem w hv)
    have hletter := fun {c} => @isLetter_iff w c (hword w List.mem_cons_self)
    constructor
    · intro h
      cases cs with
      | nil => cases h
      | cons c cs =>
        rw [dropWord?] at h
        split at h
        · rename_i hc
          obtain ⟨text, htext, rfl⟩ := ihword.mp h
          exact ⟨c :: text, List.cons_eq_cons.mpr ⟨hletter.mp hc, htext⟩, rfl⟩
        · cases h
    · rintro ⟨text, htext, rfl⟩
      obtain ⟨c, text, rfl, hc, hrest⟩ := List.map_eq_cons_iff.mp htext
      rw [List.cons_append, dropWord?, if_pos (hletter.mpr hc)]
      exact ihword.mpr ⟨text, hrest, rfl⟩

theorem openingStart_sublist_closing : openingStart.Sublist closing := by
  decide

/-- What is left from the first end mark on. -/
theorem dropWhile_mark_iff {cs rest : List Char} {mark : Char} :
    cs.dropWhile (· != '>') = mark :: rest
      ↔ mark = '>' ∧ ∃ attributes, '>' ∉ attributes ∧ cs = attributes ++ '>' :: rest := by
  induction cs with
  | nil => simp
  | cons c cs ih =>
    by_cases hc : c = '>'
    · subst hc
      rw [List.dropWhile_cons_of_neg (by simp)]
      constructor
      · intro h
        cases h
        exact ⟨rfl, [], List.not_mem_nil, rfl⟩
      · rintro ⟨rfl, attributes, hnone, heq⟩
        cases attributes with
        | nil => exact heq
        | cons a attributes =>
          cases heq
          exact absurd List.mem_cons_self hnone
    · rw [List.dropWhile_cons_of_pos (by simpa using hc), ih]
      refine and_congr_right fun _ => ?_
      constructor
      · rintro ⟨attributes, hnone, rfl⟩
        refine ⟨c :: attributes, ?_, rfl⟩
        simpa using ⟨Ne.symm hc, hnone⟩
      · rintro ⟨attributes, hnone, heq⟩
        cases attributes with
        | nil =>
          cases heq
          exact absurd rfl hc
        | cons a attributes =>
          cases heq
          exact ⟨attributes, fun hmem => hnone (List.mem_cons_of_mem c hmem), rfl⟩

/-- **What follows an opening tag at the start** is found exactly if there is one. -/
theorem afterOpening?_eq_some_iff {cs rest : List Char} :
    afterOpening? cs = some rest ↔ ∃ tag, OpeningTag tag ∧ cs = tag ++ rest := by
  have hdrop := fun {rest} => @dropWord?_eq_some_iff openingStart cs rest
    openingStart_sublist_closing.subset
  constructor
  · intro h
    unfold afterOpening? at h
    split at h
    · rename_i after hafter
      cases h
      obtain ⟨word, hword, rfl⟩ := hdrop.mp hafter
      exact ⟨word ++ ['>'], .plain hword, by simp⟩
    · rename_i blank after _ hafter
      obtain ⟨word, hword, rfl⟩ := hdrop.mp hafter
      split at h
      · rename_i hblank
        split at h
        · rename_i hmark
          cases h
          obtain ⟨-, attributes, hnone, rfl⟩ := dropWhile_mark_iff.mp hmark
          exact ⟨_, .withAttributes hword hblank hnone, by simp⟩
        · cases h
      · cases h
    · cases h
  · rintro ⟨tag, htag, rfl⟩
    cases htag with
    | @plain word hword =>
      have hafter := hdrop.mpr ⟨word, hword, List.append_assoc word ['>'] rest⟩
      unfold afterOpening?
      rw [hafter]
      rfl
    | @withAttributes word attributes blank hword hblank hnone =>
      have hafter : dropWord? openingStart (word ++ blank :: attributes ++ ['>'] ++ rest)
          = some (blank :: (attributes ++ '>' :: rest)) :=
        hdrop.mpr ⟨word, hword, by simp⟩
      have hends : (attributes ++ '>' :: rest).dropWhile (· != '>') = '>' :: rest :=
        dropWhile_mark_iff.mpr ⟨rfl, attributes, hnone, rfl⟩
      unfold afterOpening?
      rw [hafter]
      split
      · rename_i hplain
        -- the end mark is no blank
        cases hplain
        cases hblank
      · rename_i hblanks
        cases hblanks
        rw [if_pos hblank, hends]
      · rename_i hneither
        exact absurd rfl (hneither _ _)

/-! ### Positions -/

section

variable {kind : List Char → Prop} {text : List Char} {start stop : Nat} (before : List Char)

/-- A text before another moves all the positions. -/
theorem standsAt_append : StandsAt kind (before ++ text) (before.length + start)
    (before.length + stop) ↔ StandsAt kind text start stop := by
  simp only [StandsAt, List.drop_length_add_append, Nat.add_assoc, Nat.add_left_cancel_iff]

theorem standsAt_zero : StandsAt kind text 0 stop
    ↔ ∃ tag rest, kind tag ∧ text = tag ++ rest ∧ stop = tag.length := by
  constructor
  · rintro ⟨tag, hkind, ⟨rest, hrest⟩, rfl⟩
    exact ⟨tag, rest, hkind, hrest.symm, Nat.zero_add _⟩
  · rintro ⟨tag, rest, hkind, rfl, rfl⟩
    exact ⟨tag, hkind, List.prefix_append tag rest, (Nat.zero_add _).symm⟩

theorem StandsAt.start_le (h : StandsAt kind text start stop) : start ≤ stop := by
  obtain ⟨tag, -, -, rfl⟩ := h
  exact Nat.le_add_right start tag.length

/-- A tag that does not start in the first part of a text stands in the second. -/
theorem StandsAt.behind (h : StandsAt kind (before ++ text) start stop)
    (hle : before.length ≤ start) : ∃ start' stop', start = before.length + start' ∧
      stop = before.length + stop' ∧ StandsAt kind text start' stop' := by
  have hstart : start = before.length + (start - before.length) := by omega
  have hstop : stop = before.length + (stop - before.length) := by
    have := h.start_le
    omega
  rw [hstart, hstop] at h
  exact ⟨_, _, hstart, hstop, (standsAt_append before).mp h⟩

theorem viable_append : Viable (before ++ text) (before.length + start) ↔ Viable text start := by
  constructor
  · rintro ⟨stop, hopens, next, last, hcloses, hle⟩
    obtain ⟨start', stop', hstart, rfl, hopens'⟩ := hopens.behind before (Nat.le_add_right _ _)
    cases Nat.add_left_cancel hstart
    obtain ⟨next', last', rfl, rfl, hcloses'⟩ := hcloses.behind before (by omega)
    exact ⟨stop', hopens', next', last', hcloses', by omega⟩
  · rintro ⟨stop, hopens, next, last, hcloses, hle⟩
    exact ⟨_, (standsAt_append before).mpr hopens, _, _, (standsAt_append before).mpr hcloses,
      Nat.add_le_add_left hle before.length⟩

theorem LastClosing.append (h : LastClosing text start stop) :
    LastClosing (before ++ text) (before.length + start) (before.length + stop) where
  closes := (standsAt_append before).mpr h.closes
  last other stop' hother := by
    by_cases hle : before.length ≤ other
    · obtain ⟨other', stop'', rfl, -, hbehind⟩ := hother.behind before hle
      have := h.last _ _ hbehind
      omega
    · omega

end

/-- **What follows the last closing tag** is found exactly if there is a closing tag. -/
theorem afterLastClosing?_cases (text : List Char) :
    (afterLastClosing? text = none ∧ ∀ start stop, ¬ StandsAt ClosingTag text start stop) ∨
    ∃ start stop, LastClosing text start stop ∧ afterLastClosing? text = some (text.drop stop) := by
  induction text with
  | nil =>
    refine .inl ⟨rfl, ?_⟩
    rintro start stop ⟨tag, htag, hpre, -⟩
    rw [List.drop_nil, List.prefix_nil] at hpre
    subst hpre
    cases htag
  | cons c cs ih =>
    rw [afterLastClosing?]
    rcases ih with ⟨hnone, hno⟩ | ⟨start, stop, hlast, hsome⟩
    · rw [hnone, Option.none_or]
      have hhead : ∀ start stop, StandsAt ClosingTag (c :: cs) start stop → start = 0 := by
        intro start stop h
        cases start with
        | zero => rfl
        | succ start =>
          obtain ⟨_, _, -, -, hbehind⟩ := h.behind [c] (Nat.le_add_left 1 start)
          exact absurd hbehind (hno _ _)
      cases hword : dropWord? closing (c :: cs) with
      | none =>
        refine .inl ⟨rfl, fun start stop h => ?_⟩
        cases hhead start stop h
        obtain ⟨tag, rest, htag, hsplit, -⟩ := standsAt_zero.mp h
        have := (dropWord?_eq_some_iff fun _ hw => hw).mpr ⟨tag, htag, hsplit⟩
        rw [hword] at this
        cases this
      | some rest =>
        obtain ⟨tag, htag, hsplit⟩ := (dropWord?_eq_some_iff fun _ hw => hw).mp hword
        refine .inr ⟨0, tag.length, ⟨standsAt_zero.mpr ⟨tag, rest, htag, hsplit, rfl⟩, ?_⟩, ?_⟩
        · intro other stop' h
          exact Nat.le_of_eq (hhead other stop' h)
        · rw [hsplit, List.drop_left]
    · rw [hsome, Option.some_or]
      refine .inr ⟨1 + start, 1 + stop, hlast.append [c], ?_⟩
      rw [Nat.add_comm 1 stop, List.drop_succ_cons]

/-! ### The region -/

/-- What follows a region that starts with the text is found exactly if there is one. -/
theorem regionAtStart_cases (text : List Char) :
    ((afterOpening? text).bind afterLastClosing? = none ∧ ¬ Viable text 0) ∨
    ∃ closes stop, Viable text 0 ∧ LastClosing text closes stop ∧
      (afterOpening? text).bind afterLastClosing? = some (text.drop stop) := by
  cases hafter : afterOpening? text with
  | none =>
    refine .inl ⟨rfl, ?_⟩
    rintro ⟨stop, hopens, -⟩
    obtain ⟨tag, rest, htag, hsplit, -⟩ := standsAt_zero.mp hopens
    have := afterOpening?_eq_some_iff.mpr ⟨tag, htag, hsplit⟩
    rw [hafter] at this
    cases this
  | some rest =>
    obtain ⟨tag, htag, rfl⟩ := afterOpening?_eq_some_iff.mp hafter
    rw [Option.bind_some]
    rcases afterLastClosing?_cases rest with ⟨hnone, hno⟩ | ⟨closes, stop, hlast, hsome⟩
    · refine .inl ⟨hnone, ?_⟩
      rintro ⟨stop, hopens, next, last, hcloses, hle⟩
      obtain ⟨tag', rest', htag', hsplit, rfl⟩ := standsAt_zero.mp hopens
      -- an opening tag has only one end
      have hrest := afterOpening?_eq_some_iff.mpr ⟨tag', htag', hsplit⟩
      cases hafter.symm.trans hrest
      cases List.append_cancel_right hsplit
      obtain ⟨_, _, -, -, hbehind⟩ := hcloses.behind tag hle
      exact hno _ _ hbehind
    · refine .inr ⟨tag.length + closes, tag.length + stop, ?_, hlast.append tag, ?_⟩
      · exact ⟨tag.length, standsAt_zero.mpr ⟨tag, rest, htag, rfl, rfl⟩, _, _,
          (hlast.append tag).closes, Nat.le_add_right _ _⟩
      · rw [hsome, List.drop_length_add_append]

/-- A region of a text that starts behind its first character. -/
theorem IsRegion.cons {c : Char} {cs : List Char} {start stop : Nat} (h : IsRegion cs start stop)
    (hnot : ¬ Viable (c :: cs) 0) : IsRegion (c :: cs) (1 + start) (1 + stop) where
  viable := (viable_append [c]).mpr h.viable
  first other hother := by
    cases other with
    | zero => exact absurd hother hnot
    | succ other =>
      rw [Nat.add_comm other 1] at hother ⊢
      exact Nat.add_le_add_left (h.first other ((viable_append [c]).mp hother)) 1
  last := by
    obtain ⟨closes, hlast⟩ := h.last
    exact ⟨1 + closes, hlast.append [c]⟩

/-- **A region is replaced exactly if there is one.** -/
theorem replaceRegion_cases (script text : List Char) :
    (replaceRegion script text = text ∧ ∀ start, ¬ Viable text start) ∨
    ∃ start stop, IsRegion text start stop ∧
      replaceRegion script text = text.take start ++ tagged script ++ text.drop stop := by
  induction text with
  | nil =>
    refine .inl ⟨rfl, ?_⟩
    rintro start ⟨stop, -, next, last, hcloses, -⟩
    rcases afterLastClosing?_cases [] with ⟨-, hno⟩ | ⟨_, _, -, hsome⟩
    · exact hno _ _ hcloses
    · cases hsome
  | cons c cs ih =>
    rw [replaceRegion]
    rcases regionAtStart_cases (c :: cs) with ⟨hnone, hnot⟩ | ⟨closes, stop, hviable, hlast, hsome⟩
    · rw [hnone]
      rcases ih with ⟨hsame, hno⟩ | ⟨start, stop, hregion, hreplaced⟩
      · refine .inl ⟨congrArg (List.cons c) hsame, fun start hviable => ?_⟩
        cases start with
        | zero => exact hnot hviable
        | succ start =>
          rw [Nat.add_comm] at hviable
          exact hno start ((viable_append [c]).mp hviable)
      · refine .inr ⟨1 + start, 1 + stop, hregion.cons hnot, ?_⟩
        rw [Nat.add_comm 1 start, Nat.add_comm 1 stop, List.take_succ_cons, List.drop_succ_cons]
        exact congrArg (List.cons c) hreplaced
    · rw [hsome]
      exact .inr ⟨0, stop, ⟨hviable, fun _ _ => Nat.zero_le _, closes, hlast⟩, rfl⟩

theorem ClosingTag.length_eq {tag : List Char} (h : ClosingTag tag) :
    tag.length = closing.length := by
  rw [← List.length_map simpleFold]
  exact congrArg List.length h

/-- A text has at most one region. -/
theorem IsRegion.unique {text : List Char} {start stop start' stop' : Nat}
    (h : IsRegion text start stop) (h' : IsRegion text start' stop') :
    start = start' ∧ stop = stop' := by
  obtain ⟨closes, hlast⟩ := h.last
  obtain ⟨closes', hlast'⟩ := h'.last
  have hcloses : closes = closes' :=
    Nat.le_antisymm (hlast'.last _ _ hlast.closes) (hlast.last _ _ hlast'.closes)
  obtain ⟨tag, htag, -, rfl⟩ := hlast.closes
  obtain ⟨tag', htag', -, rfl⟩ := hlast'.closes
  refine ⟨Nat.le_antisymm (h.first _ h'.viable) (h'.first _ h.viable), ?_⟩
  rw [hcloses, htag.length_eq, htag'.length_eq]

theorem replaceRegion_of_isRegion {text : List Char} {start stop : Nat} (script : List Char)
    (h : IsRegion text start stop) :
    replaceRegion script text = text.take start ++ tagged script ++ text.drop stop := by
  rcases replaceRegion_cases script text with ⟨-, hno⟩ | ⟨start', stop', h', hreplaced⟩
  · exact absurd h.viable (hno start)
  · obtain ⟨rfl, rfl⟩ := h.unique h'
    exact hreplaced

/-- **Exactly the script region is replaced.** A template without an opening tag that some closing
tag follows stays as it is.  In any other template the part from the first such opening tag to the
end of the last closing tag becomes the script between plain tags, just as it is written. -/
theorem script_region_replaced (template script : String) :
    ((¬ ∃ start, Viable template.toList start) → replaceScript template script = template) ∧
    ((∃ start, Viable template.toList start) → ∃ start stop,
      IsRegion template.toList start stop ∧
      replaceScript template script = String.ofList (template.toList.take start) ++ "<script>"
        ++ script ++ "</script>" ++ String.ofList (template.toList.drop stop)) := by
  rcases replaceRegion_cases script.toList template.toList with
    ⟨hsame, hno⟩ | ⟨start, stop, hregion, hreplaced⟩
  · refine ⟨fun _ => ?_, fun ⟨start, hviable⟩ => absurd hviable (hno start)⟩
    rw [replaceScript, hsame, String.ofList_toList]
  · refine ⟨fun hnone => absurd ⟨start, hregion.viable⟩ hnone, fun _ => ?_⟩
    refine ⟨start, stop, hregion, ?_⟩
    rw [replaceScript, hreplaced, ← String.toList_inj]
    simp [tagged, closing]

/-- The attributes of the first opening tag hold another one, and two closing tags follow; the long
s is an s. -/
theorem script_region_replaced_attributes :
    let template := "<p><ſcript a=<script>x</script>y</SCRIPT>\n"
    let script := "let $a = '</script>';"
    Viable template.toList 3 ∧ ∃ start stop, IsRegion template.toList start stop ∧
      replaceScript template script = String.ofList (template.toList.take start) ++ "<script>"
        ++ script ++ "</script>" ++ String.ofList (template.toList.drop stop) ∧
      replaceScript template script = "<p><script>let $a = '</script>';</script>\n" := by
  intro template script
  have hword : Spells openingStart "<ſcript".toList := by decide
  have hattributes : '>' ∉ "a=<script".toList := by decide
  have hblank : Text.isBlank ' ' = true := by decide
  have hopens : StandsAt OpeningTag template.toList 3 21 :=
    ⟨_, .withAttributes hword hblank hattributes, by decide, by decide⟩
  have hcloses : StandsAt ClosingTag template.toList 32 41 :=
    ⟨"</SCRIPT>".toList, (by decide : Spells closing _), by decide, by decide⟩
  have hviable : Viable template.toList 3 := ⟨21, hopens, 32, 41, hcloses, by decide⟩
  obtain ⟨start, stop, hregion, hreplaced⟩ :=
    (script_region_replaced template script).2 ⟨3, hviable⟩
  exact ⟨hviable, start, stop, hregion, hreplaced, by decide⟩

end PropCheck.Source
