import PropCheck.Proofs.Reachability
import PropCheck.Proofs.Reading

/-!
# The default export under its name

A module keeps its default export apart from the names that it exports, so that none of these is
`default`.  An import that asks for the name `default` looks among the names only, and goes on to
the modules all names of which are exported.  It finds nothing, whatever the default export is.

* `Module.NamesNoDefault`: no exported name is `default`.
* `Module.namesNoDefault_ofStatements`: so it is in every module of statements that name their
  classes by words that may be bound, of which `default` is none.
* `Program.BuiltFrom.addModule_namesBindable`: reading a text gives no other statements.
* `Program.BuiltFrom.not_resolvesIn_named_default`: no class can be reached under the name
  `default`.
* `Program.default_by_name_agrees_iff`: importing the default by its name is importing the default
  only where there is none.
-/

namespace PropCheck

/-! ### Exported names -/

namespace Module

/-- No exported name is `default`. -/
def NamesNoDefault (m : Module) : Prop :=
  ∀ entry ∈ m.namedExports, entry.1 ≠ "default"

variable {m : Module}

theorem NamesNoDefault.namedExport? (h : m.NamesNoDefault) : m.namedExport? "default" = none := by
  apply List.lookup_eq_none_iff.mpr
  intro entry hentry
  exact bne_iff_ne.mpr (h entry hentry).symm

theorem NamesNoDefault.append {name : String} (h : m.NamesNoDefault) (hname : name ≠ "default")
    (target : ExportTarget) :
    ∀ entry ∈ m.namedExports ++ [(name, target)], entry.1 ≠ "default" := by
  intro entry hentry
  rcases List.mem_append.mp hentry with hentry | hentry
  · exact h entry hentry
  · rw [List.mem_singleton.mp hentry]
    exact hname

theorem NamesNoDefault.addExport (h : m.NamesNoDefault) (name : String) (target : ExportTarget) :
    (m.addExport name target).NamesNoDefault := by
  unfold Module.addExport
  split
  · exact h
  · rename_i hname
    exact h.append (by simpa using hname) target

theorem NamesNoDefault.addExports (h : m.NamesNoDefault)
    (specifiers : List Script.ExportSpecifier) (source : Option String) :
    (specifiers.foldl (fun m s => m.addExport s.exported (targetOf source s.name))
      m).NamesNoDefault :=
  List.foldlRecOn specifiers _ h fun _ hm s _ => hm.addExport s.exported _

end Module

/-- A component that is called by its own name is not called `default`. -/
theorem Component.name_ne_default {table : Script.TypeTable} {file : String} {c : Script.Class}
    {component : Component} (hc : c.NameBindable)
    (h : Component.ofClass? table file none c = some component) : component.name ≠ "default" := by
  obtain ⟨span, name, head, base, arguments, interfaces, members⟩ := c
  obtain ⟨text, htext, rfl⟩ := Option.map_eq_some_iff.mp h
  rw [Option.or_none] at htext
  obtain ⟨n, hn, rfl⟩ := Option.map_eq_some_iff.mp htext
  have hbindable : Script.isBindable n.text = true := hc n hn
  intro hdefault
  change n.text = "default" at hdefault
  rw [hdefault] at hbindable
  revert hbindable
  decide

namespace Module

variable {m : Module}

/-- One statement exports no name `default`: what an export list calls so becomes the default
export, and a class that is exported under its name has a name that may be bound. -/
theorem NamesNoDefault.addStatement {table : Script.TypeTable} {file : String}
    (h : m.NamesNoDefault) {statement : Script.Stmt} (hs : statement.NamesBindable) :
    (m.addStatement table file statement).NamesNoDefault := by
  apply addStatement_cases (motive := NamesNoDefault)
  case exported =>
    intro c component hexported hc
    have hname : c.NameBindable := by
      rw [hexported] at hs
      exact hs
    exact h.append (Component.name_ne_default hname hc) _
  case names => exact fun specifiers source => h.addExports specifiers source
  case declared => exact fun _ _ _ _ => h
  case default => exact fun _ _ _ => h
  case value | all => exact fun _ => h
  case nothing => exact h

theorem namesNoDefault_ofStatements (file : String) {statements : List Script.Stmt}
    (h : ∀ s ∈ statements, s.NamesBindable) : (ofStatements file statements).NamesNoDefault := by
  refine List.foldlRecOn statements _ ?_ fun m hm statement hstatement => ?_
  · exact fun entry hentry => absurd hentry List.not_mem_nil
  · exact hm.addStatement (h statement hstatement)

end Module

/-! ### Imports by name -/

namespace Program

variable {program : Program}

/-- Reading a text gives statements that name their classes by words that may be bound. -/
theorem BuiltFrom.addModule_namesBindable (h : program.BuiltFrom Script.Stmt.NamesBindable)
    (file text : String) : (program.addModule file text).BuiltFrom Script.Stmt.NamesBindable :=
  h.addModule file text fun _ _ => Script.namesBindable_of_mem_statementsOf

theorem BuiltFrom.namedExport?_default (h : program.BuiltFrom Script.Stmt.NamesBindable)
    {path : String} {m : Module} (hm : program.modules.find? path = some m) :
    m.namedExport? "default" = none := by
  obtain ⟨statements, hstatements, rfl⟩ := h.exists_ofStatements hm
  exact (Module.namesNoDefault_ofStatements path hstatements).namedExport?

/-- **No class can be reached under the name `default`**: no module exports the name by itself, and
the modules that are asked for it are asked for the same name. -/
theorem BuiltFrom.not_resolvesIn_named_default
    (h : program.BuiltFrom Script.Stmt.NamesBindable) {hops : Nat} {file : String}
    {c : Component} : ¬ program.ResolvesIn hops file (.named "default") c := by
  have hexports : ∀ {path : String} {m : Module} {target : ExportTarget},
      program.modules.find? path = some m → ¬ m.Exports (.named "default") target := by
    intro path m target hm hexports
    cases hexports with
    | named hnamed =>
      rw [h.namedExport?_default hm] at hnamed
      cases hnamed
  intro hresolves
  generalize hbinding : Script.Binding.named "default" = binding at hresolves
  induction hresolves with
  | own hm hgives =>
    subst hbinding
    obtain ⟨name, hname, -⟩ := hgives
    exact hexports hm hname
  | hop hhop _ ih =>
    obtain ⟨m, specifier, hm, hasks, -⟩ := hhop
    subst hbinding
    cases hasks with
    | target htarget _ => exact hexports hm htarget
    | star => exact ih rfl

theorem BuiltFrom.resolveImport?_named_default (h : program.BuiltFrom Script.Stmt.NamesBindable)
    (name : Script.Name) (specifier file : String) :
    program.resolveImport? ⟨name, .named "default", specifier⟩ file = none := by
  rw [Option.eq_none_iff_forall_not_mem]
  intro c hc
  obtain ⟨next, -, hresolve⟩ := Option.bind_eq_some_iff.mp hc
  obtain ⟨hops, -, hresolves⟩ := resolvesIn_of_resolve? hresolve
  exact h.not_resolvesIn_named_default hresolves

/-- **Importing the default by its name is importing the default only where there is none.**  Let a
program be made of statements that name their classes by words that may be bound; adding the module
of any text keeps it such.  Under its name the default export of a module is never found, so the two
imports agree exactly if that of the default finds nothing either. -/
theorem default_by_name_agrees_iff (hbuilt : program.BuiltFrom Script.Stmt.NamesBindable) :
    (∀ file text, (program.addModule file text).BuiltFrom Script.Stmt.NamesBindable) ∧
    ∀ (name : Script.Name) (specifier file : String),
      program.resolveImport? ⟨name, .named "default", specifier⟩ file
          = program.resolveImport? ⟨name, .default, specifier⟩ file
        ↔ program.resolveImport? ⟨name, .default, specifier⟩ file = none := by
  refine ⟨hbuilt.addModule_namesBindable, fun name specifier file => ?_⟩
  rw [hbuilt.resolveImport?_named_default]
  exact eq_comm

/-- A module with a named export only, which neither import finds. -/
theorem default_by_name_agrees_iff_no_default :
    let program := empty.addModule "Counter.ts" "export class Counter { count: number }"
    let name : Script.Name := ⟨"Counter", ⟨20, 27⟩⟩
    program.BuiltFrom Script.Stmt.NamesBindable ∧
      (program.resolveImport? ⟨name, .named "default", "./Counter"⟩ "App.svelte.ts"
          = program.resolveImport? ⟨name, .default, "./Counter"⟩ "App.svelte.ts"
        ↔ program.resolveImport? ⟨name, .default, "./Counter"⟩ "App.svelte.ts" = none) ∧
      program.resolveImport? ⟨name, .default, "./Counter"⟩ "App.svelte.ts" = none := by
  intro program name
  have hbuilt : program.BuiltFrom Script.Stmt.NamesBindable :=
    (default_by_name_agrees_iff .empty).1 _ _
  have hnone : (program.resolveImport? ⟨name, .default, "./Counter"⟩ "App.svelte.ts").isNone
      = true := by
    decide +kernel
  exact ⟨hbuilt, (default_by_name_agrees_iff hbuilt).2 name "./Counter" "App.svelte.ts",
    Option.isNone_iff_eq_none.mp hnone⟩

/-- A default export that the import of the default finds, and the import by name does not. -/
theorem default_by_name_not_found :
    let program := empty.addModule "Counter.ts"
      "export default class Counter { count: number }"
    let clauses := fun text => (Script.Scope.parse "App.svelte.ts" text).imports
    let resolved := fun clause => (program.resolveImport? clause "App.svelte.ts").map (·.name)
    clauses "import { default as Counter } from './Counter';"
        = [⟨⟨"Counter", ⟨20, 27⟩⟩, .named "default", "./Counter"⟩] ∧
      clauses "import Counter from './Counter';"
        = [⟨⟨"Counter", ⟨7, 14⟩⟩, .default, "./Counter"⟩] ∧
      resolved ⟨⟨"Counter", ⟨20, 27⟩⟩, .named "default", "./Counter"⟩ = none ∧
      resolved ⟨⟨"Counter", ⟨20, 27⟩⟩, .default, "./Counter"⟩ = some "Counter" := by
  decide +kernel

end Program

end PropCheck
