/-!
# Registries

A registry holds things by name.  Something put in under a name that is taken replaces what was
there.

* `Registry.find?`: what a name stands for.
* `Registry.insert`, `Registry.erase`: a registry with one name changed.
-/

namespace PropCheck

/-- Things by name; no name stands in it twice. -/
structure Registry (α : Type) where
  entries : List (String × α)
deriving Repr, Inhabited

namespace Registry

variable {α : Type}

def empty : Registry α :=
  ⟨[]⟩

def find? (registry : Registry α) (name : String) : Option α :=
  registry.entries.lookup name

def contains (registry : Registry α) (name : String) : Bool :=
  (registry.find? name).isSome

def erase (registry : Registry α) (name : String) : Registry α :=
  ⟨registry.entries.filter (·.1 != name)⟩

def insert (registry : Registry α) (name : String) (thing : α) : Registry α :=
  ⟨(name, thing) :: (registry.erase name).entries⟩

def size (registry : Registry α) : Nat :=
  registry.entries.length

def isEmpty (registry : Registry α) : Bool :=
  registry.entries.isEmpty

end Registry

end PropCheck
