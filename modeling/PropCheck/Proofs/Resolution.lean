import PropCheck.Program.Basic

/-!
# Where resolved components come from

Following an import ends at a class of some module.  A program that is made by adding modules keeps
every class under the path of its own module, so a component that is found can be told by its file
and its name: it is the first class of the name in the module of the file.  What the modules are
made of does not matter here, so they may be made of any statements, read from a text or not.

* `Program.BuiltFrom`, `Program.Built`: a program made by adding modules to the empty one, of
  statements that satisfy a condition, or of any statements.
* `Program.BuiltFrom.addModule`: adding the module of a text is a case of this.
* `Program.BuiltFrom.exists_ofStatements`: the modules of such a program are those of statements.
* `Module.addStatement_cases`: what one statement does to a module.
* `Module.madeFromClasses_ofStatements`: the classes of a module are made from those of its script.
* `Program.Records`: a component is the first class of its name in its own module.
* `Program.BuiltFrom.classes_file`: the classes of a module carry the path of the module.
* `Module.Gives`, `Module.Asks`: a module exports one of its own classes, or asks another module for
  what it exports.
* `Program.followBinding_cases`: nothing else is found.
* `Program.BuiltFrom.records_of_resolveImport?`: what an import leads to is recorded.
* `Program.eq_of_records`: file and name tell recorded components apart.
-/

namespace PropCheck

/-! ### Registries -/

namespace Registry

variable {α : Type}

theorem lookup_filter_ne {entries : List (String × α)} {name key : String} (h : key ≠ name) :
    (entries.filter (·.1 != name)).lookup key = entries.lookup key := by
  induction entries with
  | nil => rfl
  | cons entry entries ih =>
    obtain ⟨first, thing⟩ := entry
    by_cases hfirst : first = name
    · -- the entry is dropped, and it was not the one looked for
      subst hfirst
      rw [List.filter_cons_of_neg (by simp), ih, List.lookup_cons, beq_false_of_ne h]
    · rw [List.filter_cons_of_pos (by simpa using hfirst), List.lookup_cons, List.lookup_cons, ih]

theorem find?_insert_self (registry : Registry α) (name : String) (thing : α) :
    (registry.insert name thing).find? name = some thing := by
  simp [find?, insert]

theorem find?_insert_of_ne (registry : Registry α) {name key : String} (thing : α)
    (h : key ≠ name) : (registry.insert name thing).find? key = registry.find? key := by
  show List.lookup key ((name, thing) :: (registry.erase name).entries) = _
  rw [List.lookup_cons, beq_false_of_ne h]
  exact lookup_filter_ne h

end Registry

/-! ### Classes of a module -/

theorem Component.file_of_ofClass? {table : Script.TypeTable} {file : String}
    {fallback : Option String} {c : Script.Class} {component : Component}
    (h : Component.ofClass? table file fallback c = some component) : component.file = file := by
  cases c
  obtain ⟨name, -, rfl⟩ := Option.map_eq_some_iff.mp h
  rfl

namespace Module

/-- All classes of a module are made from classes of a script. -/
def MadeFromClasses (table : Script.TypeTable) (file : String) (m : Module) : Prop :=
  ∀ c ∈ m.classes, ∃ fallback declared, Component.ofClass? table file fallback declared = some c

/-- All classes of a module carry one file. -/
def ClassesIn (file : String) (m : Module) : Prop :=
  ∀ c ∈ m.classes, c.file = file

variable {table : Script.TypeTable} {file : String} {m : Module}

theorem MadeFromClasses.addClass {c : Component} {fallback : Option String}
    {declared : Script.Class} (h : m.MadeFromClasses table file)
    (hc : Component.ofClass? table file fallback declared = some c) :
    (m.addClass c).MadeFromClasses table file := by
  intro d hd
  rcases List.mem_append.mp hd with hd | hd
  · exact h d hd
  · rw [List.mem_singleton.mp hd]
    exact ⟨fallback, declared, hc⟩

theorem classes_addExport (m : Module) (name : String) (target : ExportTarget) :
    (m.addExport name target).classes = m.classes := by
  unfold addExport
  split <;> rfl

theorem classes_foldl_addExport (specifiers : List Script.ExportSpecifier)
    (source : Option String) (m : Module) :
    (specifiers.foldl (fun m s => m.addExport s.exported (targetOf source s.name)) m).classes
      = m.classes := by
  induction specifiers generalizing m with
  | nil => rfl
  | cons s specifiers ih => rw [List.foldl_cons, ih, classes_addExport]

/-- **What one statement does to a module.**  It adds a class, which may be exported under its own
name or as the default; it exports names, a value as the default, or all names of another module; or
it does nothing. -/
theorem addStatement_cases {motive : Module → Prop} (statement : Script.Stmt)
    (declared : ∀ c component, statement = .classDecl c →
      Component.ofClass? table file none c = some component → motive (m.addClass component))
    (exported : ∀ c component, statement = .exported (.classDecl c) →
      Component.ofClass? table file none c = some component →
      motive { m.addClass component with
        namedExports := m.namedExports ++ [(component.name, .inside component.name)] })
    (names : ∀ (specifiers : List Script.ExportSpecifier) source,
      motive (specifiers.foldl (fun m s => m.addExport s.exported (targetOf source s.name)) m))
    (default : ∀ c component, Component.ofClass? table file (some "default") c = some component →
      motive { m.addClass component with defaultExport := some (.inside component.name) })
    (value : ∀ name, motive { m with defaultExport := some (.inside name) })
    (all : ∀ source, motive { m with starExports := m.starExports ++ [source] })
    (nothing : motive m) : motive (m.addStatement table file statement) := by
  unfold addStatement
  split
  · split
    · exact declared _ _ rfl ‹_›
    · exact nothing
  · split
    · exact exported _ _ rfl ‹_›
    · exact nothing
  · exact names _ _
  · split
    · exact default _ _ ‹_›
    · exact nothing
  · exact value _
  · exact all _
  · exact nothing

/-- One statement adds no classes but its own. -/
theorem MadeFromClasses.addStatement (h : m.MadeFromClasses table file)
    (statement : Script.Stmt) :
    (m.addStatement table file statement).MadeFromClasses table file := by
  apply addStatement_cases (motive := fun m => m.MadeFromClasses table file)
  case declared | exported =>
    intro c component _ hc
    exact h.addClass hc
  case default =>
    intro c component hc
    exact h.addClass hc
  case names =>
    intro specifiers source c hc
    rw [classes_foldl_addExport] at hc
    exact h c hc
  case value | all => exact fun _ => h
  case nothing => exact h

theorem madeFromClasses_ofStatements (file : String) (statements : List Script.Stmt) :
    (ofStatements file statements).MadeFromClasses (Script.TypeTable.ofStatements statements)
      file :=
  List.foldlRecOn statements _ (fun _ hc => absurd hc List.not_mem_nil)
    fun _ h statement _ => h.addStatement statement

theorem classesIn_ofStatements (file : String) (statements : List Script.Stmt) :
    (ofStatements file statements).ClassesIn file := by
  intro c hc
  obtain ⟨fallback, declared, hofClass⟩ := madeFromClasses_ofStatements file statements c hc
  exact Component.file_of_ofClass? hofClass

/-! ### What a module exports -/

/-- What the module itself exports as its default or under a name; the first of the name counts. -/
inductive Exports (m : Module) : Script.Binding → ExportTarget → Prop where
  | default {target : ExportTarget} : m.defaultExport = some target → Exports m .default target
  | named {name : String} {target : ExportTarget} :
    m.namedExport? name = some target → Exports m (.named name) target

/-- The module exports one of its own classes: the first of the name that is exported. -/
def Gives (m : Module) (binding : Script.Binding) (c : Component) : Prop :=
  ∃ name, m.Exports binding (.inside name) ∧ m.class? name = some c

/-- What is exported leads to another module: a name without a class that is imported there, or
something of that module itself. -/
inductive Leads (m : Module) : ExportTarget → String → Script.Binding → Prop where
  | imported {name : String} {clause : Script.ImportClause} : m.class? name = none →
    m.import? name = some clause → Leads m (.inside name) clause.source clause.imported
  | outside (specifier : String) (next : Script.Binding) :
    Leads m (.outside specifier next) specifier next

/-- The module asks another one for what it exports: where the exported thing leads to, or, for a
name that is not exported by itself, any one of the modules all names of which are exported. -/
inductive Asks (m : Module) : Script.Binding → String → Script.Binding → Prop where
  | target {binding next : Script.Binding} {target : ExportTarget} {specifier : String} :
    m.Exports binding target → m.Leads target specifier next → Asks m binding specifier next
  | star {name specifier : String} : m.namedExport? name = none → specifier ∈ m.starExports →
    Asks m (.named name) specifier (.named name)

end Module

/-! ### Programs -/

namespace Program

/-- The program with the module of some statements, which replaces one at the same path. -/
def addStatements (program : Program) (file : String) (statements : List Script.Stmt) : Program :=
  let path := Path.normalize file
  ⟨program.modules.insert path (Module.ofStatements path statements)⟩

/-- A program made by adding modules to the empty one, all of them of statements that satisfy a
condition. -/
inductive BuiltFrom (Q : Script.Stmt → Prop) : Program → Prop where
  | empty : BuiltFrom Q empty
  | addStatements {program : Program} (file : String) {statements : List Script.Stmt} :
    (∀ s ∈ statements, Q s) → BuiltFrom Q program →
      BuiltFrom Q (program.addStatements file statements)

/-- A program made by adding modules to the empty one, as every program is. -/
abbrev Built : Program → Prop :=
  BuiltFrom fun _ => True

section Built

variable {Q : Script.Stmt → Prop} {program : Program}

/-- The module of a text is that of the statements read from it. -/
theorem BuiltFrom.addModule (h : program.BuiltFrom Q) (file text : String)
    (hread : ∀ ambient, ∀ s ∈ Script.statementsOf ambient text, Q s) :
    (program.addModule file text).BuiltFrom Q :=
  .addStatements file (hread _) h

theorem Built.addModule (h : program.Built) (file text : String) :
    (program.addModule file text).Built :=
  BuiltFrom.addModule h file text fun _ _ _ => trivial

/-- Every module of such a program is made of statements, at its path. -/
theorem BuiltFrom.exists_ofStatements (h : program.BuiltFrom Q) {path : String} {m : Module}
    (hm : program.modules.find? path = some m) :
    ∃ statements, (∀ s ∈ statements, Q s) ∧ m = Module.ofStatements path statements := by
  induction h with
  | empty => cases hm
  | @addStatements program file statements hstatements _ ih =>
    change (program.modules.insert _ _).find? path = some m at hm
    by_cases hpath : path = Path.normalize file
    · subst hpath
      rw [Registry.find?_insert_self] at hm
      cases hm
      exact ⟨statements, hstatements, rfl⟩
    · rw [Registry.find?_insert_of_ne _ _ hpath] at hm
      exact ih hm

/-- The classes of a module carry the path of the module. -/
theorem BuiltFrom.classes_file (h : program.BuiltFrom Q) {path : String} {m : Module}
    (hm : program.modules.find? path = some m) : m.ClassesIn path := by
  obtain ⟨statements, -, rfl⟩ := h.exists_ofStatements hm
  exact Module.classesIn_ofStatements path statements

end Built

/-- The component is the first class of its name in the module of its file. -/
def Records (program : Program) (component : Component) : Prop :=
  ∃ m, program.modules.find? component.file = some m ∧ m.class? component.name = some component

/-- File and name tell recorded components apart. -/
theorem eq_of_records {program : Program} {c d : Component} (hc : program.Records c)
    (hd : program.Records d) (hfile : c.file = d.file) (hname : c.name = d.name) : c = d := by
  obtain ⟨m, hm, hclass⟩ := hc
  obtain ⟨n, hn, hclass'⟩ := hd
  rw [hfile, hn] at hm
  cases hm
  rw [hname, hclass'] at hclass
  exact (Option.some.inj hclass).symm

theorem BuiltFrom.records_of_class? {Q : Script.Stmt → Prop} {program : Program}
    (h : program.BuiltFrom Q) {path name : String} {m : Module} {c : Component}
    (hm : program.modules.find? path = some m) (hc : m.class? name = some c) :
    program.Records c := by
  have hfile : c.file = path := h.classes_file hm c (List.mem_of_find?_eq_some hc)
  have hname : c.name = name := by
    have hfound := hc
    unfold Module.class? at hfound
    exact beq_iff_eq.mp (List.find?_some hfound :)
  refine ⟨m, ?_, ?_⟩
  · rw [hfile]
    exact hm
  · rw [hname]
    exact hc

section Follow

variable {program : Program} {move : String → Script.Binding → Option Component} {m : Module}
  {c : Component}

/-- A target leads to a class of the module, or to what a move finds in a module it leads to. -/
theorem followTarget_cases {target : ExportTarget} (h : followTarget move m target = some c) :
    (∃ name, target = .inside name ∧ m.class? name = some c) ∨
      ∃ specifier next, m.Leads target specifier next ∧ move specifier next = some c := by
  unfold followTarget at h
  split at h
  · rename_i name
    split at h
    · rename_i found hfound
      cases h
      exact Or.inl ⟨name, rfl, hfound⟩
    · rename_i hclass
      obtain ⟨clause, himport, hmove⟩ := Option.bind_eq_some_iff.mp h
      exact Or.inr ⟨_, _, .imported hclass himport, hmove⟩
  · exact Or.inr ⟨_, _, .outside _ _, h⟩

/-- What a module is found to export is a class that it gives, or what a move finds in a module that
it asks. -/
theorem followBinding_cases {binding : Script.Binding} (h : followBinding move m binding = some c) :
    m.Gives binding c ∨
      ∃ specifier next, m.Asks binding specifier next ∧ move specifier next = some c := by
  have htarget : ∀ target, m.Exports binding target → followTarget move m target = some c →
      m.Gives binding c ∨
        ∃ specifier next, m.Asks binding specifier next ∧ move specifier next = some c := by
    intro target hexports hfollow
    rcases followTarget_cases hfollow with ⟨name, rfl, hclass⟩ | ⟨specifier, next, hleads, hmove⟩
    · exact Or.inl ⟨name, hexports, hclass⟩
    · exact Or.inr ⟨specifier, next, .target hexports hleads, hmove⟩
  unfold followBinding at h
  split at h
  · cases h
  · obtain ⟨target, hdefault, hfollow⟩ := Option.bind_eq_some_iff.mp h
    exact htarget target (.default hdefault) hfollow
  · split at h
    · rename_i target hnamed
      exact htarget target (.named hnamed) h
    · rename_i hnone
      obtain ⟨specifier, hmem, hmove⟩ := List.exists_of_findSome?_eq_some h
      exact Or.inr ⟨specifier, _, .star hnone hmem, hmove⟩

/-- A class that is found is recorded if those that a move to another module finds are. -/
theorem BuiltFrom.records_of_followBinding {Q : Script.Stmt → Prop} (h : program.BuiltFrom Q)
    {path : String} {binding : Script.Binding} (hm : program.modules.find? path = some m)
    (hmove : ∀ specifier next, move specifier next = some c → program.Records c)
    (hfollow : followBinding move m binding = some c) : program.Records c := by
  rcases followBinding_cases hfollow with ⟨name, -, hclass⟩ | ⟨specifier, next, -, hc⟩
  · exact h.records_of_class? hm hclass
  · exact hmove specifier next hc

end Follow

/-- Whatever is resolved is recorded: each move keeps to the modules of the program, and the last
one ends at a class of the module it has come to. -/
theorem BuiltFrom.records_of_resolve? {Q : Script.Stmt → Prop} {program : Program}
    (h : program.BuiltFrom Q) {moves : Nat} {file : String} {binding : Script.Binding}
    {c : Component} (hc : program.resolve? moves file binding = some c) : program.Records c := by
  induction moves generalizing file binding with
  | zero =>
    obtain ⟨m, hm, hfollow⟩ := Option.bind_eq_some_iff.mp hc
    apply h.records_of_followBinding hm _ hfollow
    intro specifier next hmove
    cases hmove
  | succ moves ih =>
    obtain ⟨m, hm, hfollow⟩ := Option.bind_eq_some_iff.mp hc
    apply h.records_of_followBinding hm _ hfollow
    intro specifier next hmove
    obtain ⟨path, -, hresolve⟩ := Option.bind_eq_some_iff.mp hmove
    exact ih hresolve

theorem BuiltFrom.records_of_resolveImport? {Q : Script.Stmt → Prop} {program : Program}
    (h : program.BuiltFrom Q) {clause : Script.ImportClause} {file : String} {c : Component}
    (hc : program.resolveImport? clause file = some c) : program.Records c := by
  obtain ⟨path, -, hresolve⟩ := Option.bind_eq_some_iff.mp hc
  exact h.records_of_resolve? hresolve

end Program

end PropCheck
