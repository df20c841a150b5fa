import PropCheck.Proofs.Resolution

/-!
# Resolving imports is bounded reachability

The modules of a program and the names they export form a graph, which may have cycles and which
branches where a module exports all names of several others.  Following an import searches this
graph for a class, one module after the other, and gives up after a number of moves.

* `Program.Hop`: one move from what a module exports to what another one exports.
* `Program.ResolvesIn`: a class can be reached in a number of moves.
* `Program.resolvesIn_of_resolve?`, `Program.resolve?_isSome_of_resolvesIn`: the search is sound and
  complete for its bound.
* `Program.resolveImport?_reaches`: an import is resolved exactly if a class can be reached in at
  most 16 moves, and to such a class.
-/

namespace PropCheck.Program

/-- One move: the module of a file asks for something that the module of another file exports. -/
def Hop (program : Program) (file : String) (binding : Script.Binding) (file' : String)
    (binding' : Script.Binding) : Prop :=
  ∃ m specifier, program.modules.find? file = some m ∧ m.Asks binding specifier binding' ∧
    program.moduleFile? specifier file = some file'

/-- What the module of a file exports resolves to a class in a number of moves. -/
inductive ResolvesIn (program : Program) : Nat → String → Script.Binding → Component → Prop where
  | own {file : String} {binding : Script.Binding} {m : Module} {c : Component} :
    program.modules.find? file = some m → m.Gives binding c → ResolvesIn program 0 file binding c
  | hop {hops : Nat} {file file' : String} {binding binding' : Script.Binding} {c : Component} :
    program.Hop file binding file' binding' → ResolvesIn program hops file' binding' c →
    ResolvesIn program (hops + 1) file binding c

/-! ### One module -/

section Follow

variable {move : String → Script.Binding → Option Component} {m : Module} {binding : Script.Binding}
  {c : Component}

theorem followBinding_eq_followTarget {target : ExportTarget} (h : m.Exports binding target) :
    followBinding move m binding = followTarget move m target := by
  cases h with
  | default h => rw [followBinding, h, Option.bind_some]
  | named h => rw [followBinding, h]

/-- A class that a module gives is found. -/
theorem followBinding_of_gives (h : m.Gives binding c) : followBinding move m binding = some c := by
  obtain ⟨name, hexports, hclass⟩ := h
  rw [followBinding_eq_followTarget hexports, followTarget, hclass]

theorem followTarget_of_leads {target : ExportTarget} {specifier : String} {next : Script.Binding}
    (h : m.Leads target specifier next) : followTarget move m target = move specifier next := by
  cases h with
  | imported hclass himport => rw [followTarget, hclass, himport, Option.bind_some]
  | outside => rfl

/-- If a module that is asked has an answer, so has the module that asks; where it asks several, the
answer may be that of another one. -/
theorem followBinding_isSome_of_asks {specifier : String} {next : Script.Binding}
    (h : m.Asks binding specifier next) (hmove : (move specifier next).isSome = true) :
    (followBinding move m binding).isSome = true := by
  cases h with
  | target hexports hleads =>
    rw [followBinding_eq_followTarget hexports, followTarget_of_leads hleads]
    exact hmove
  | star hnamed hmem =>
    rw [followBinding, hnamed]
    exact List.findSome?_isSome_iff.mpr ⟨specifier, hmem, hmove⟩

end Follow

/-! ### The search -/

variable {program : Program}

/-- **The search is sound**: what it finds can be reached within its bound. -/
theorem resolvesIn_of_resolve? {moves : Nat} {file : String} {binding : Script.Binding}
    {c : Component} (h : program.resolve? moves file binding = some c) :
    ∃ hops ≤ moves, program.ResolvesIn hops file binding c := by
  induction moves generalizing file binding with
  | zero =>
    obtain ⟨m, hm, hfollow⟩ := Option.bind_eq_some_iff.mp h
    rcases followBinding_cases hfollow with hgives | ⟨specifier, next, -, hmove⟩
    · exact ⟨0, Nat.le_refl 0, .own hm hgives⟩
    · cases hmove
  | succ moves ih =>
    obtain ⟨m, hm, hfollow⟩ := Option.bind_eq_some_iff.mp h
    rcases followBinding_cases hfollow with hgives | ⟨specifier, next, hasks, hmove⟩
    · exact ⟨0, Nat.zero_le _, .own hm hgives⟩
    · obtain ⟨file', hfile, hresolve⟩ := Option.bind_eq_some_iff.mp hmove
      obtain ⟨hops, hle, hresolves⟩ := ih hresolve
      exact ⟨hops + 1, Nat.succ_le_succ hle, .hop ⟨m, specifier, hm, hasks, hfile⟩ hresolves⟩

/-- A class that the module itself gives is found without a move. -/
theorem resolve?_of_gives {moves : Nat} {file : String} {binding : Script.Binding} {m : Module}
    {c : Component} (hm : program.modules.find? file = some m) (h : m.Gives binding c) :
    program.resolve? moves file binding = some c := by
  cases moves <;>
  · rw [resolve?, hm, Option.bind_some]
    exact followBinding_of_gives h

/-- **The search is complete**: if a class can be reached within its bound, it finds one. -/
theorem resolve?_isSome_of_resolvesIn {hops moves : Nat} {file : String} {binding : Script.Binding}
    {c : Component} (h : program.ResolvesIn hops file binding c) (hle : hops ≤ moves) :
    (program.resolve? moves file binding).isSome = true := by
  induction h generalizing moves with
  | own hm hgives => rw [resolve?_of_gives hm hgives, Option.isSome_some]
  | hop hhop _ ih =>
    obtain ⟨m, specifier, hm, hasks, hfile⟩ := hhop
    obtain ⟨moves, rfl⟩ : ∃ n, moves = n + 1 := ⟨moves - 1, by omega⟩
    rw [resolve?, hm, Option.bind_some]
    apply followBinding_isSome_of_asks hasks
    rw [hfile, Option.bind_some]
    exact ih (Nat.le_of_succ_le_succ hle)

/-- **Resolving an import is reaching a class in at most 16 moves.**  An import is resolved exactly
if its module is found and some class can be reached from what that module exports in at most 16
moves, whatever cycles there are.  What it is resolved to can be reached so, and in a program made
by adding modules it is recorded as a class of the module of its own file. -/
theorem resolveImport?_reaches (program : Program) (clause : Script.ImportClause) (file : String) :
    ((program.resolveImport? clause file).isSome = true
      ↔ ∃ next, program.moduleFile? clause.source file = some next ∧
          ∃ hops ≤ 16, ∃ c, program.ResolvesIn hops next clause.imported c) ∧
    ∀ c, program.resolveImport? clause file = some c →
      (∃ next, program.moduleFile? clause.source file = some next ∧
        ∃ hops ≤ 16, program.ResolvesIn hops next clause.imported c) ∧
      (program.Built → program.Records c) := by
  have hsound : ∀ c, program.resolveImport? clause file = some c →
      ∃ next, program.moduleFile? clause.source file = some next ∧
        ∃ hops ≤ 16, program.ResolvesIn hops next clause.imported c := by
    intro c hc
    obtain ⟨next, hnext, hresolve⟩ := Option.bind_eq_some_iff.mp hc
    exact ⟨next, hnext, resolvesIn_of_resolve? hresolve⟩
  constructor
  · constructor
    · intro h
      obtain ⟨c, hc⟩ := Option.isSome_iff_exists.mp h
      obtain ⟨next, hnext, hops, hle, hresolves⟩ := hsound c hc
      exact ⟨next, hnext, hops, hle, c, hresolves⟩
    · rintro ⟨next, hnext, hops, hle, c, hresolves⟩
      rw [resolveImport?, hnext, Option.bind_some]
      exact resolve?_isSome_of_resolvesIn hresolves hle
  · intro c hc
    exact ⟨hsound c hc, fun hbuilt => hbuilt.records_of_resolveImport? hc⟩

/-- Two modules that export all names of each other, and a third one with the class, behind them. -/
theorem resolveImport?_reaches_through_cycle :
    let program := ((empty.addModule "a.ts" "export * from './b'; export * from './c';").addModule
      "b.ts" "export * from './a';").addModule "c.ts" "export class Button {}"
    let clause : Script.ImportClause := ⟨⟨"Button", ⟨9, 15⟩⟩, .named "Button", "./a"⟩
    ∃ c, program.resolveImport? clause "App.svelte.ts" = some c ∧ c.file = "c.ts" ∧
      (∃ next, program.moduleFile? clause.source "App.svelte.ts" = some next ∧
        ∃ hops ≤ 16, program.ResolvesIn hops next clause.imported c) ∧
      program.Records c := by
  intro program clause
  have hbuilt : program.Built :=
    Built.addModule (Built.addModule (Built.addModule .empty _ _) _ _) _ _
  have hfile : (program.resolveImport? clause "App.svelte.ts").map (·.file) = some "c.ts" := by
    decide +kernel
  obtain ⟨c, hc, hfile⟩ := Option.map_eq_some_iff.mp hfile
  have h := (resolveImport?_reaches program clause "App.svelte.ts").2 c hc
  exact ⟨c, hc, hfile, h.1, h.2 hbuilt⟩

end PropCheck.Program
