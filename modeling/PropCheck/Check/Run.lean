import PropCheck.Check.Imports
import PropCheck.Check.Property
import PropCheck.Program.Basic

/-!
# Checking a template

A template is walked in document order, and every component in it is checked against the class that
its import leads to.  The member names of a class are remembered during the walk.

* `Check.Run`: what the walk of one template looks at.
* `Check.MemberCache`: the member names of the classes met so far.
* `Check.checkComponent`: the findings of one component.
* `Check.checkNode`: the findings of a node and all that is inside it.
-/

namespace PropCheck.Check

/-- What the walk of one template looks at. -/
structure Run where
  options : Options
  program : Program
  file : String
  scope : Script.Scope
  source : SourceFile

/-- The member names of classes, each told by its file and its name. -/
abbrev MemberCache := List ((String × String) × List String)

/-- The member names of a component, remembered from the first time it was met. -/
def memberNames (cache : MemberCache) (component : Component) : List String × MemberCache :=
  match cache.lookup (component.file, component.name) with
  | some names => (names, cache)
  | none =>
    (component.memberNames,
      ((component.file, component.name), component.memberNames) :: cache)

/-- The findings of a component in a template, given the class it stands for. -/
def checkUsage (run : Run) (cache : MemberCache) (component : Component) (node : Node) :
    List Diagnostic × MemberCache :=
  let (names, cache) := memberNames cache component
  (attributeFindings ⟨run.options, run.scope, run.source, component, names⟩ node, cache)

/-- The findings of components that are matched with their imports. -/
def checkMatched (run : Run) (cache : MemberCache) :
    List (Node × Script.ImportClause) → List Diagnostic × MemberCache
  | [] => ([], cache)
  | (node, clause) :: matched =>
    match run.program.resolveImport? clause run.file with
    -- an import that leads to no class is not checked
    | none => checkMatched run cache matched
    | some component =>
      let (own, cache) := checkUsage run cache component node
      let (others, cache) := checkMatched run cache matched
      (own ++ others, cache)

/-- Whether a component is one of the elements of the template language itself. -/
def isSpecial (node : Node) : Bool :=
  "svelte:".toList.isPrefixOf node.name.toList

def checkComponent (run : Run) (cache : MemberCache) (node : Node) :
    List Diagnostic × MemberCache :=
  if isSpecial node then ([], cache)
  else
    let (matched, unmatched) :=
      matchByName (fun (c : Script.ImportClause) => c.name.text) Node.name run.scope.imports [node]
    let (found, cache) := checkMatched run cache matched
    (unmatched.map (.importNotFound run.source) ++ found, cache)

mutual

/-- The findings of a node, its children and its else branch. -/
def checkNode (run : Run) (cache : MemberCache) : Node → List Diagnostic × MemberCache
  | ⟨kind, start, stop, name, children, attributes, value, expression, otherwise⟩ =>
    let node : Node :=
      ⟨kind, start, stop, name, children, attributes, value, expression, otherwise⟩
    let (own, cache) := if node.isComponent then checkComponent run cache node else ([], cache)
    let (inner, cache) := checkNodes run cache children
    let (other, cache) := checkOptional run cache otherwise
    (own ++ inner ++ other, cache)

def checkNodes (run : Run) (cache : MemberCache) : List Node → List Diagnostic × MemberCache
  | [] => ([], cache)
  | node :: nodes =>
    let (own, cache) := checkNode run cache node
    let (others, cache) := checkNodes run cache nodes
    (own ++ others, cache)

def checkOptional (run : Run) (cache : MemberCache) : Option Node → List Diagnostic × MemberCache
  | none => ([], cache)
  | some node => checkNode run cache node

end

def checkTemplate (run : Run) (root : Node) : List Diagnostic :=
  (checkNode run [] root).1

end PropCheck.Check
