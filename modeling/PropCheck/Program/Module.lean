import PropCheck.Component.OfClass
import PropCheck.Script.Scope

/-!
# Modules

What other files can see of a module: its classes as components, and what it exports under which
name.

* `ExportTarget`: what an exported name stands for.
* `Module`: the classes, exports and imports of a module.
* `Module.parse`: the module of a text.
-/

namespace PropCheck

/-- What an exported name stands for: a name inside the module, or something of another module. -/
inductive ExportTarget where
  | inside (name : String)
  | outside (specifier : String) (binding : Script.Binding)
deriving DecidableEq, Repr, Inhabited

/-- What other files can see of a module. -/
structure Module where
  classes : List Component
  defaultExport : Option ExportTarget
  namedExports : List (String × ExportTarget)
  starExports : List String
  imports : List Script.ImportClause
deriving Inhabited

namespace Module

def class? (m : Module) (name : String) : Option Component :=
  m.classes.find? (·.name == name)

def import? (m : Module) (name : String) : Option Script.ImportClause :=
  m.imports.find? (·.name.text == name)

/-- What a name stands for that is exported by itself. -/
def namedExport? (m : Module) (name : String) : Option ExportTarget :=
  m.namedExports.lookup name

/-! ### Building -/

def addClass (m : Module) (c : Component) : Module :=
  { m with classes := m.classes ++ [c] }

/-- Adds an exported name; the name `default` is the default export. -/
def addExport (m : Module) (name : String) (target : ExportTarget) : Module :=
  if name == "default" then { m with defaultExport := some target }
  else { m with namedExports := m.namedExports ++ [(name, target)] }

/-- The part of another module that a name takes. -/
def bindingOf (name : String) : Script.Binding :=
  if name == "default" then .default else .named name

/-- What an entry of an export list stands for. -/
def targetOf (source : Option String) (name : String) : ExportTarget :=
  match source with
  | some specifier => .outside specifier (bindingOf name)
  | none => .inside name

/-- Adds what a statement shows to other files. -/
def addStatement (table : Script.TypeTable) (file : String) (m : Module) : Script.Stmt → Module
  | .classDecl c =>
    match Component.ofClass? table file none c with
    | some component => m.addClass component
    | none => m
  | .exported (.classDecl c) =>
    match Component.ofClass? table file none c with
    | some component =>
      { m.addClass component with
        namedExports := m.namedExports ++ [(component.name, .inside component.name)] }
    | none => m
  | .exportNames specifiers source =>
    specifiers.foldl (fun m s => m.addExport s.exported (targetOf source s.name)) m
  | .exportDefault (.classDecl c) =>
    -- a class without a name is known as `default` here
    match Component.ofClass? table file (some "default") c with
    | some component =>
      { m.addClass component with defaultExport := some (.inside component.name) }
    | none => m
  | .exportDefault (.expression (.identifier name)) =>
    { m with defaultExport := some (.inside name) }
  | .exportAll source false => { m with starExports := m.starExports ++ [source] }
  | _ => m

def ofStatements (file : String) (statements : List Script.Stmt) : Module :=
  statements.foldl (addStatement (Script.TypeTable.ofStatements statements) file)
    ⟨[], none, [], [], Script.importsOf statements⟩

/-- Whether a file only declares what is written elsewhere. -/
def isDefinitionFile (file : String) : Bool :=
  file.endsWith ".d.ts"

def parse (file text : String) : Module :=
  ofStatements file (Script.statementsOf (isDefinitionFile file) text)

end Module

end PropCheck
