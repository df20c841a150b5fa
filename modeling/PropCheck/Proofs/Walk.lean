import PropCheck.Check.Run
import PropCheck.Proofs.Resolution

/-!
# The walk of a template, one component after the other

The walk of a template carries the member names of the classes met so far, told by file and name.
Since resolved components are told by these two, what is remembered is always what would be
computed, and every component has the findings that it has when it is checked alone.

* `Node.walked`, `Node.components`: the nodes that the walk comes to, and the components among them.
* `Check.checkEach`: the findings of some components, one after the other.
* `Check.checkNode_eq_checkEach`: walking a template is checking its components one after the other.
* `Check.SoundCache`: what is remembered is what would be computed.
* `Check.usageFindings`: the findings of a component, without anything that is remembered.
* `Check.template_findings_compositional`: the findings of a template are those of its components,
  each checked alone.
-/

namespace PropCheck

/-! ### The nodes of the walk -/

namespace Node

mutual

/-- The nodes that the walk comes to: a node, its children in order, its else branch. -/
def walked : Node → List Node
  | ⟨kind, start, stop, name, children, attributes, value, expression, otherwise⟩ =>
    ⟨kind, start, stop, name, children, attributes, value, expression, otherwise⟩
      :: (walkedAll children ++ walkedOptional otherwise)

def walkedAll : List Node → List Node
  | [] => []
  | node :: nodes => walked node ++ walkedAll nodes

def walkedOptional : Option Node → List Node
  | none => []
  | some node => walked node

end

/-- The components that the walk comes to. -/
def components (node : Node) : List Node :=
  node.walked.filter isComponent

end Node

namespace Check

/-- The findings of some components, one after the other. -/
def checkEach (run : Run) (cache : MemberCache) : List Node → List Diagnostic × MemberCache
  | [] => ([], cache)
  | usage :: usages =>
    let (own, cache) := checkComponent run cache usage
    let (others, cache) := checkEach run cache usages
    (own ++ others, cache)

theorem checkEach_append (run : Run) (cache : MemberCache) (before after : List Node) :
    checkEach run cache (before ++ after)
      = ((checkEach run cache before).1
          ++ (checkEach run (checkEach run cache before).2 after).1,
        (checkEach run (checkEach run cache before).2 after).2) := by
  induction before generalizing cache with
  | nil => rfl
  | cons usage before ih => simp only [List.cons_append, checkEach, ih, List.append_assoc]

mutual

/-- **Walking a template is checking its components one after the other.** -/
theorem checkNode_eq_checkEach (run : Run) : ∀ (cache : MemberCache) (node : Node),
    checkNode run cache node = checkEach run cache node.components
  | cache, ⟨kind, start, stop, name, children, attributes, value, expression, otherwise⟩ => by
    have hchildren := fun cache => checkNodes_eq_checkEach run cache children
    have hotherwise := fun cache => checkOptional_eq_checkEach run cache otherwise
    simp only [checkNode, Node.components, Node.walked, List.filter_cons, List.filter_append]
    split
    · rename_i hcomponent
      simp only [checkEach, checkEach_append, hchildren, hotherwise, List.append_assoc]
    · simp only [checkEach_append, hchildren, hotherwise, List.nil_append]

theorem checkNodes_eq_checkEach (run : Run) : ∀ (cache : MemberCache) (nodes : List Node),
    checkNodes run cache nodes
      = checkEach run cache ((Node.walkedAll nodes).filter Node.isComponent)
  | _, [] => rfl
  | cache, node :: nodes => by
    have hnode := checkNode_eq_checkEach run cache node
    have hnodes := fun cache => checkNodes_eq_checkEach run cache nodes
    simp only [checkNodes, Node.walkedAll, List.filter_append, checkEach_append, hnode, hnodes]
    rfl

theorem checkOptional_eq_checkEach (run : Run) : ∀ (cache : MemberCache) (node : Option Node),
    checkOptional run cache node
      = checkEach run cache ((Node.walkedOptional node).filter Node.isComponent)
  | _, none => rfl
  | cache, some node => checkNode_eq_checkEach run cache node

end

/-! ### What is remembered -/

/-- What is remembered under the file and the name of a component of the program are the names of
its members. -/
def SoundCache (program : Program) (cache : MemberCache) : Prop :=
  ∀ component names, program.Records component →
    cache.lookup (component.file, component.name) = some names → names = component.memberNames

theorem soundCache_nil (program : Program) : SoundCache program [] := by
  intro component names _ h
  cases h

/-- The names that are used are those of the members, and remembering them is sound. -/
theorem SoundCache.memberNames {program : Program} {cache : MemberCache} {component : Component}
    (h : SoundCache program cache) (hc : program.Records component) :
    (memberNames cache component).1 = component.memberNames ∧
      SoundCache program (memberNames cache component).2 := by
  unfold Check.memberNames
  split
  · rename_i names hnames
    exact ⟨h component names hc hnames, h⟩
  · refine ⟨rfl, ?_⟩
    intro other names hother hlookup
    rw [List.lookup_cons] at hlookup
    split at hlookup
    · -- the same file and name, hence the same component
      rename_i hkey
      obtain ⟨hfile, hname⟩ := Prod.mk.inj (beq_iff_eq.mp hkey)
      rw [Program.eq_of_records hother hc hfile hname]
      exact (Option.some.inj hlookup).symm
    · exact h other names hother hlookup

/-! ### Findings without anything remembered -/

/-- The findings of a component that is matched with an import. -/
def matchedFindings (run : Run) (pair : Node × Script.ImportClause) : List Diagnostic :=
  match run.program.resolveImport? pair.2 run.file with
  | none => []
  | some component =>
    attributeFindings ⟨run.options, run.scope, run.source, component, component.memberNames⟩ pair.1

/-- The findings of one component. -/
def usageFindings (run : Run) (node : Node) : List Diagnostic :=
  if isSpecial node then []
  else
    let (matched, unmatched) :=
      matchByName (fun (c : Script.ImportClause) => c.name.text) Node.name run.scope.imports [node]
    unmatched.map (.importNotFound run.source) ++ matched.flatMap (matchedFindings run)

section Sound

variable {run : Run} {cache : MemberCache}

theorem checkMatched_of_sound (hbuilt : run.program.Built) (h : SoundCache run.program cache)
    (matched : List (Node × Script.ImportClause)) :
    (checkMatched run cache matched).1 = matched.flatMap (matchedFindings run) ∧
      SoundCache run.program (checkMatched run cache matched).2 := by
  induction matched generalizing cache with
  | nil => exact ⟨rfl, h⟩
  | cons pair matched ih =>
    obtain ⟨node, clause⟩ := pair
    rw [List.flatMap_cons, matchedFindings, checkMatched]
    cases hresolve : run.program.resolveImport? clause run.file with
    | none => exact ih h
    | some component =>
      obtain ⟨hnames, hsound⟩ := h.memberNames (hbuilt.records_of_resolveImport? hresolve)
      obtain ⟨hrest, hsound'⟩ := ih hsound
      refine ⟨?_, hsound'⟩
      simp only [checkUsage, hnames, hrest]

/-- **A component has the same findings whatever is remembered.** -/
theorem checkComponent_of_sound (hbuilt : run.program.Built) (h : SoundCache run.program cache)
    (node : Node) :
    (checkComponent run cache node).1 = usageFindings run node ∧
      SoundCache run.program (checkComponent run cache node).2 := by
  unfold checkComponent usageFindings
  split
  · exact ⟨rfl, h⟩
  · obtain ⟨hfound, hsound⟩ := checkMatched_of_sound hbuilt h
      (matchByName (fun (c : Script.ImportClause) => c.name.text) Node.name run.scope.imports
        [node]).1
    refine ⟨?_, hsound⟩
    simp only [hfound]

theorem checkEach_of_sound (hbuilt : run.program.Built) (h : SoundCache run.program cache)
    (usages : List Node) :
    (checkEach run cache usages).1 = usages.flatMap (usageFindings run) ∧
      SoundCache run.program (checkEach run cache usages).2 := by
  induction usages generalizing cache with
  | nil => exact ⟨rfl, h⟩
  | cons usage usages ih =>
    obtain ⟨hown, hsound⟩ := checkComponent_of_sound hbuilt h usage
    obtain ⟨hrest, hsound'⟩ := ih hsound
    refine ⟨?_, hsound'⟩
    simp only [checkEach, hown, hrest, List.flatMap_cons]

theorem checkTemplate_eq_flatMap (hbuilt : run.program.Built) (root : Node) :
    checkTemplate run root = root.components.flatMap (usageFindings run) := by
  rw [checkTemplate, checkNode_eq_checkEach]
  exact (checkEach_of_sound hbuilt (soundCache_nil _) root.components).1

/-- **The findings of a template are those of its components, each checked alone.**  The walk is one
check after the other of the components it comes to, each with what is remembered of those before;
this gives the findings that each of them has with nothing remembered, and whatever the walk has
remembered for a component when it comes to it are the names of its members. -/
theorem template_findings_compositional (hbuilt : run.program.Built) (root : Node) :
    checkTemplate run root
      = root.components.flatMap (fun usage => (checkComponent run [] usage).1) ∧
    checkTemplate run root = (checkEach run [] root.components).1 ∧
    ∀ before usage after, root.components = before ++ usage :: after →
      ∀ clause component names, run.program.resolveImport? clause run.file = some component →
        (checkEach run [] before).2.lookup (component.file, component.name) = some names →
          names = component.memberNames := by
  have hempty := soundCache_nil run.program
  refine ⟨?_, ?_, ?_⟩
  · rw [checkTemplate_eq_flatMap hbuilt]
    congr 1
    funext usage
    exact (checkComponent_of_sound hbuilt hempty usage).1.symm
  · rw [checkTemplate, checkNode_eq_checkEach]
  · intro before usage after _ clause component names hresolve hlookup
    have hsound := (checkEach_of_sound hbuilt hempty before).2
    exact hsound component names (hbuilt.records_of_resolveImport? hresolve) hlookup

end Sound

/-- The walk of a template next to a component `Counter`, which is imported and has one member. -/
def counterRun (template : String) : Run :=
  { options := .strictest
    program := Program.empty.addModule "src/Counter.svelte.d.ts"
      "export default class Counter { count: number }"
    file := "src/App.svelte.ts"
    scope := ⟨"src/App.svelte.ts", [], [⟨⟨"Counter", ⟨7, 14⟩⟩, .default, "./Counter.svelte"⟩]⟩
    source := ⟨"src/App.svelte", template⟩ }

theorem built_counterRun (template : String) : (counterRun template).program.Built :=
  Program.Built.addModule .empty _ _

/-- Two uses of one component: the second finds the names that the first has left. -/
theorem template_findings_compositional_two_counters :
    let run := counterRun "<Counter count /><Counter step />"
    let count : Node := ⟨.attr, 9, 14, some "count", [], [], .flag true, none, none⟩
    let step : Node := ⟨.attr, 26, 30, some "step", [], [], .flag true, none, none⟩
    let first : Node := ⟨.inlineComponent, 0, 17, some "Counter", [], [count], .absent, none, none⟩
    let second : Node := ⟨.inlineComponent, 17, 33, some "Counter", [], [step], .absent, none, none⟩
    let root : Node := ⟨.fragment, 0, 33, none, [first, second], [], .absent, none, none⟩
    (checkTemplate run root).map (·.start) = [26] ∧
    checkTemplate run root
      = (checkComponent run [] first).1 ++ (checkComponent run [] second).1 ∧
    ∀ clause component names, run.program.resolveImport? clause run.file = some component →
      (checkComponent run [] first).2.lookup (component.file, component.name) = some names →
        names = component.memberNames := by
  intro run count step first second root
  obtain ⟨hfindings, -, hnames⟩ := template_findings_compositional (built_counterRun _) root
  refine ⟨by decide +kernel, ?_, hnames [first] second [] rfl⟩
  rw [hfindings]
  show _ ++ (_ ++ []) = _
  rw [List.append_nil]

end Check

end PropCheck
