/-!
# Matching by name

Components and imports are matched by name.  Every import takes the first component of its name that
is still free.

* `Check.matchByName`: the pairs in the order of the imports, and the components that are left.
-/

namespace PropCheck.Check

variable {α β : Type}

/-- The first thing that satisfies a test, and the others. -/
def extract? (test : α → Bool) : List α → Option (α × List α)
  | [] => none
  | a :: as => if test a then some (a, as) else (extract? test as).map fun (b, bs) => (b, a :: bs)

/-- Matches imports with components, each of which has a name. -/
def matchByName (importName : β → String) (componentName : α → String) :
    List β → List α → List (α × β) × List α
  | [], components => ([], components)
  | clause :: clauses, components =>
    match extract? (fun c => componentName c == importName clause) components with
    | some (component, others) =>
      let (matched, unmatched) := matchByName importName componentName clauses others
      ((component, clause) :: matched, unmatched)
    | none => matchByName importName componentName clauses components

end PropCheck.Check
