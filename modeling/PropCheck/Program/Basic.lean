import PropCheck.Program.Module
import PropCheck.Program.Path
import PropCheck.Registry

/-!
# Programs

A program is a set of modules, each under its normalized path.  An import is followed from module to
module until a class is found, for a bounded number of moves.

* `Program.moduleFile?`: the module that a specifier means.
* `Program.resolve?`: the component that a module exports under a name, within some moves.
* `Program.resolveImport?`: the component that an import takes.
-/

namespace PropCheck

/-- Modules by their paths. -/
structure Program where
  modules : Registry Module
deriving Inhabited

namespace Program

def empty : Program :=
  ⟨.empty⟩

/-- The program with a module, which replaces one at the same path. -/
def addModule (program : Program) (file text : String) : Program :=
  let path := Path.normalize file
  ⟨program.modules.insert path (Module.parse path text)⟩

def hasModule (program : Program) (file : String) : Bool :=
  program.modules.contains (Path.normalize file)

/-! ### Files -/

/-- Whether a specifier is taken from the directory of the importing file. -/
def isRelative (specifier : String) : Bool :=
  "./".toList.isPrefixOf specifier.toList || "../".toList.isPrefixOf specifier.toList

/-- The path that a specifier means in a file. -/
def basePath (specifier file : String) : String :=
  if isRelative specifier then Path.beside file specifier else Path.normalize specifier

/-- The files that a path may stand for, the best one first. -/
def candidates (path : String) : List String :=
  [path, path ++ ".d.ts", path ++ ".ts", path ++ "/index.d.ts", path ++ "/index.ts"]

/-- The module that a specifier means in a file. -/
def moduleFile? (program : Program) (specifier file : String) : Option String :=
  (candidates (basePath specifier file)).find? program.modules.contains

/-! ### Exports -/

/-- The component that something exported stands for; `move` looks it up in another module. -/
def followTarget (move : String → Script.Binding → Option Component) (m : Module) :
    ExportTarget → Option Component
  | .inside name =>
    match m.class? name with
    | some component => some component
    | none => (m.import? name).bind fun clause => move clause.source clause.imported
  | .outside specifier binding => move specifier binding

/-- The component that a module exports under a name; `move` looks it up in another module. -/
def followBinding (move : String → Script.Binding → Option Component) (m : Module) :
    Script.Binding → Option Component
  | .namespace => none
  | .default => m.defaultExport.bind (followTarget move m)
  | .named name =>
    match m.namedExport? name with
    | some target => followTarget move m target
    | none => m.starExports.findSome? fun specifier => move specifier (.named name)

/-- The component that the module of a file exports under a name, within some moves to other
modules. -/
def resolve? (program : Program) (moves : Nat) (file : String) (binding : Script.Binding) :
    Option Component :=
  (program.modules.find? file).bind fun m =>
    match moves with
    | 0 => followBinding (fun _ _ => none) m binding
    | moves + 1 =>
      followBinding
        (fun specifier binding =>
          (program.moduleFile? specifier file).bind fun next => resolve? program moves next binding)
        m binding
termination_by structural moves

def maxMoves : Nat :=
  16

def resolveImport? (program : Program) (clause : Script.ImportClause) (file : String) :
    Option Component :=
  (program.moduleFile? clause.source file).bind fun next =>
    program.resolve? maxMoves next clause.imported

end Program

end PropCheck
