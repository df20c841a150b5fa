import Mathlib.Data.List.Basic
import PropCheck.Proofs.Walk
import PropCheck.Workspace

/-!
# What the options can change

The options decide how strictly types are compared, and nothing else: under any two options the
findings of a file are the same, in the same order, but for those about types that do not fit.

* `Check.apartFromMismatches`: the findings that are not about types that do not fit.
* `Check.AgreeApart`: two checks agree apart from such findings, and remember the same.
* `Check.apart_findings`: the findings of an attribute under two options.  After a type that does
  not fit the check goes on as after one that does.
* `Check.agreeApart_checkNode`: so it is for a whole walk.
* `Workspace.options_touch_mismatches_only`: the findings of a file under two options.
-/

namespace PropCheck

namespace Check

/-- The findings that are not about types that do not fit. -/
def apartFromMismatches (ds : List Diagnostic) : List Diagnostic :=
  ds.filter (·.code != 2322)

theorem apart_append (ds es : List Diagnostic) :
    apartFromMismatches (ds ++ es) = apartFromMismatches ds ++ apartFromMismatches es :=
  List.filter_append ..

theorem apart_flatMap {α : Type} (f : α → List Diagnostic) (xs : List α) :
    apartFromMismatches (xs.flatMap f) = xs.flatMap fun x => apartFromMismatches (f x) :=
  List.filter_flatMap

/-- A finding about a type that does not fit, or none, is none apart from mismatches. -/
theorem apart_mismatch (fits : Bool) (source : SourceFile) (node : Node) (message : String) :
    apartFromMismatches
      (if fits then none else some (Diagnostic.error source node .notAssignable message)).toList
        = [] := by
  cases fits <;> rfl

/-! ### The attributes of a component -/

section Attributes

variable (usage : Usage) (options : Options)

theorem apart_identifierFinding? (parent : Node) (attr : Option Node) (node : Node) :
    apartFromMismatches (identifierFinding? { usage with options } parent attr node).toList
      = apartFromMismatches (identifierFinding? usage parent attr node).toList := by
  unfold identifierFinding?
  dsimp only
  cases usage.scope.find? node.name with
  | none => rfl
  | some declaration =>
    dsimp only
    split
    · exact (apart_mismatch _ _ _ _).trans (apart_mismatch _ _ _ _).symm
    · cases usage.component.member? (attr.getD node).name with
      | none => rfl
      | some m => exact (apart_mismatch _ _ _ _).trans (apart_mismatch _ _ _ _).symm

/-- **Under any two options a node has the same findings apart from mismatches.**  After a type that
does not fit the check goes on as after one that does. -/
theorem apart_findings (parent : Node) (attr : Option Node) (node : Node) :
    apartFromMismatches (findings { usage with options } parent attr node)
      = apartFromMismatches (findings usage parent attr node) := by
  induction parent, attr, node using findings_induction usage with
  | identifier parent attr node hidentifier =>
    rw [findings_identifier _ _ _ hidentifier, findings_identifier _ _ _ hidentifier]
    exact apart_identifierFinding? usage options parent attr node
  | knownAttribute parent attr node hattribute hmember ih =>
    rw [findings_attribute _ _ _ hattribute, findings_attribute _ _ _ hattribute, if_pos hmember,
      if_pos hmember, apart_flatMap, apart_flatMap]
    exact List.flatMap_congr ih
  | unknownAttribute parent attr node hattribute hmember =>
    rw [findings_attribute _ _ _ hattribute, findings_attribute _ _ _ hattribute, if_neg hmember,
      if_neg hmember]
  | wrapper parent attr node hwrapper ih =>
    rw [findings_wrapper _ _ _ hwrapper, findings_wrapper _ _ _ hwrapper, apart_flatMap,
      apart_flatMap]
    exact List.flatMap_congr fun expression hexpression =>
      ih expression (Option.mem_toList.mp hexpression)
  | other parent attr node hidentifier hattribute hwrapper =>
    rw [findings_other _ _ _ hidentifier hattribute hwrapper,
      findings_other _ _ _ hidentifier hattribute hwrapper]

theorem apart_attributeFindings (node : Node) :
    apartFromMismatches (attributeFindings { usage with options } node)
      = apartFromMismatches (attributeFindings usage node) := by
  unfold attributeFindings
  rw [apart_flatMap, apart_flatMap]
  exact List.flatMap_congr fun attr _ => apart_findings usage options node none attr

end Attributes

/-! ### The walk -/

/-- Two checks agree apart from findings about types that do not fit, and remember the same. -/
structure AgreeApart (x y : List Diagnostic × MemberCache) : Prop where
  findings : apartFromMismatches x.1 = apartFromMismatches y.1
  cache : x.2 = y.2

section Walk

variable (run : Run) (options : Options)

theorem agreeApart_checkUsage (cache : MemberCache) (component : Component) (node : Node) :
    AgreeApart (checkUsage { run with options } cache component node)
      (checkUsage run cache component node) where
  findings := apart_attributeFindings
    ⟨run.options, run.scope, run.source, component, (memberNames cache component).1⟩ options node
  cache := rfl

theorem agreeApart_checkMatched (cache : MemberCache)
    (matched : List (Node × Script.ImportClause)) :
    AgreeApart (checkMatched { run with options } cache matched)
      (checkMatched run cache matched) := by
  induction matched generalizing cache with
  | nil => exact ⟨rfl, rfl⟩
  | cons pair matched ih =>
    obtain ⟨node, clause⟩ := pair
    rw [checkMatched, checkMatched]
    cases run.program.resolveImport? clause run.file with
    | none => exact ih cache
    | some component =>
      have hown := agreeApart_checkUsage run options cache component node
      dsimp only
      rw [hown.cache]
      have hothers := ih (checkUsage run cache component node).2
      exact ⟨by rw [apart_append, apart_append, hown.findings, hothers.findings], hothers.cache⟩

theorem agreeApart_checkComponent (cache : MemberCache) (node : Node) :
    AgreeApart (checkComponent { run with options } cache node)
      (checkComponent run cache node) := by
  unfold checkComponent
  split
  · exact ⟨rfl, rfl⟩
  · dsimp only
    have hmatched := agreeApart_checkMatched run options cache
      (matchByName (fun (c : Script.ImportClause) => c.name.text) Node.name run.scope.imports
        [node]).1
    exact ⟨by rw [apart_append, apart_append, hmatched.findings], hmatched.cache⟩

theorem agreeApart_checkEach (cache : MemberCache) (nodes : List Node) :
    AgreeApart (checkEach { run with options } cache nodes) (checkEach run cache nodes) := by
  induction nodes generalizing cache with
  | nil => exact ⟨rfl, rfl⟩
  | cons node nodes ih =>
    have hown := agreeApart_checkComponent run options cache node
    rw [checkEach, checkEach]
    dsimp only
    rw [hown.cache]
    have hothers := ih (checkComponent run cache node).2
    exact ⟨by rw [apart_append, apart_append, hown.findings, hothers.findings], hothers.cache⟩

/-- **Under any two options a walk has the same findings apart from mismatches.** -/
theorem agreeApart_checkNode (cache : MemberCache) (node : Node) :
    AgreeApart (checkNode { run with options } cache node) (checkNode run cache node) := by
  rw [checkNode_eq_checkEach, checkNode_eq_checkEach]
  exact agreeApart_checkEach run options cache node.components

end Walk

-- the options do change what is reported: with null checks `null` is no string
example :
    let name : Node := ⟨.identifier, 16, 21, some "label", [], [], .absent, none, none⟩
    let tag : Node := ⟨.mustacheTag, 15, 22, none, [], [], .absent, some name, none⟩
    let label : Node := ⟨.attr, 9, 22, some "label", [], [], .nodes [tag], none, none⟩
    let step : Node := ⟨.attr, 23, 27, some "step", [], [], .flag true, none, none⟩
    let component : Component := ⟨"Counter", "Counter.ts", ⟨15, 44⟩,
      [⟨"label", .property, .keyword .string, false⟩]⟩
    let usage : Usage := ⟨.default, ⟨"App.svelte.ts", [⟨⟨"label", ⟨4, 9⟩⟩, .lex, .null⟩], []⟩,
      ⟨"App.svelte", "<Counter label={label} step />"⟩, component, ["label"]⟩
    let host : Node :=
      ⟨.inlineComponent, 0, 30, some "Counter", [], [label, step], .absent, none, none⟩
    (attributeFindings { usage with options := .strictest } host).map (·.code) = [2322, 2339] ∧
      (attributeFindings usage host).map (·.code) = [2339] := by
  decide +kernel

end Check

namespace Workspace

theorem check_apart (w : Workspace) (options : Options) (file : String) :
    ({ w with options }.check file).map Check.apartFromMismatches
      = (w.check file).map Check.apartFromMismatches := by
  unfold check
  dsimp only
  cases w.compilations.find? file with
  | none => rfl
  | some compilation =>
    dsimp only
    cases w.sources.find? (templateName file) with
    | none => rfl
    | some text =>
      have hrun := Check.agreeApart_checkNode
        (w.runOf file compilation.script (templateName file) text) options [] compilation.html
      exact congrArg Except.ok hrun.findings

/-- **The options touch mismatches only.**  Whether a file can be checked, and why not, does not
depend on the options; and under any two options its findings are the same, in the same order, once
those about types that do not fit are removed. -/
theorem options_touch_mismatches_only (w : Workspace) (first second : Options) (file : String) :
    (∀ e, { w with options := first }.check file = .error e
      ↔ { w with options := second }.check file = .error e) ∧
    ∀ ds es, { w with options := first }.check file = .ok ds →
      { w with options := second }.check file = .ok es →
        ds.filter (·.code != 2322) = es.filter (·.code != 2322) := by
  have heq : ({ w with options := first }.check file).map Check.apartFromMismatches
      = ({ w with options := second }.check file).map Check.apartFromMismatches :=
    (w.check_apart first file).trans (w.check_apart second file).symm
  cases hfirst : { w with options := first }.check file with
  | error e =>
    cases hsecond : { w with options := second }.check file with
    | error e' =>
      rw [hfirst, hsecond] at heq
      cases heq
      exact ⟨fun _ => Iff.rfl, fun ds es h => by cases h⟩
    | ok es =>
      rw [hfirst, hsecond] at heq
      cases heq
  | ok ds =>
    cases hsecond : { w with options := second }.check file with
    | error e =>
      rw [hfirst, hsecond] at heq
      cases heq
    | ok es =>
      rw [hfirst, hsecond] at heq
      refine ⟨fun e => ⟨nofun, nofun⟩, ?_⟩
      rintro _ _ ⟨⟩ ⟨⟩
      exact Except.ok.inj heq

/-- A value that may be `null` for a member of type `string`, and an attribute that is no member. -/
theorem options_touch_mismatches_only_null :
    let name : Node := ⟨.identifier, 16, 21, some "label", [], [], .absent, none, none⟩
    let tag : Node := ⟨.mustacheTag, 15, 22, none, [], [], .absent, some name, none⟩
    let label : Node := ⟨.attr, 9, 22, some "label", [], [], .nodes [tag], none, none⟩
    let step : Node := ⟨.attr, 23, 27, some "step", [], [], .flag true, none, none⟩
    let root : Node :=
      ⟨.inlineComponent, 0, 30, some "Counter", [], [label, step], .absent, none, none⟩
    let w : Workspace :=
      { options := .default
        compilations := Registry.empty.insert "App.svelte.ts"
          ⟨"import Counter from './Counter'; let label: string | null;", root⟩
        sources := Registry.empty.insert "App.svelte" "<Counter label={label} step />"
        program := Program.empty.addModule "Counter.ts"
          "export default class Counter { label: string }" }
    ∃ ds es, { w with options := .strictest }.check "App.svelte.ts" = .ok ds ∧
      { w with options := .default }.check "App.svelte.ts" = .ok es ∧
      ds.filter (·.code != 2322) = es.filter (·.code != 2322) := by
  intro name tag label step root w
  have hsame := (options_touch_mismatches_only w .strictest .default "App.svelte.ts").2
  exact ⟨_, _, rfl, rfl, hsame _ _ rfl rfl⟩

end Workspace

end PropCheck
