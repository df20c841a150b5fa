import PropCheck.Check.Run
import PropCheck.Options.Config
import PropCheck.Source.ScriptTag
import PropCheck.Template.Compilation

/-!
# Workspaces

A workspace holds all that the checker needs: the options, the compiled templates, the sources of
the templates and the modules of the components.

* `Workspace`: what the checker needs.
* `CheckError`: why a file cannot be checked.
* `Workspace.check`: the findings of a file.
-/

namespace PropCheck

/-- Why a file cannot be checked, or something cannot be taken into a workspace. -/
inductive CheckError where
  | notCompiled (script : String)
  | missingTemplate (script template : String)
  | invalidCompilation (script : String)
  | invalidOptions
deriving DecidableEq, Repr, Inhabited

/-- What an error says.  The errors of JSON texts say no more than which text is wrong. -/
def CheckError.message : CheckError → String
  | notCompiled script => "Script source file " ++ script ++ " doesn't exist in CompilationCache"
  | missingTemplate script template =>
    "Template source " ++ template ++ " for script " ++ script ++ " could not be read"
  | invalidCompilation script => "Invalid compilation output for " ++ script
  | invalidOptions => "Invalid compiler options"

/-- What the checker needs. -/
structure Workspace where
  options : Options
  compilations : Registry Compilation
  sources : Registry String
  program : Program
deriving Inhabited

namespace Workspace

def empty : Workspace :=
  ⟨.default, .empty, .empty, .empty⟩

/-- Takes in a compiled template from the script and the result of the compiler. -/
def addCompilation (w : Workspace) (file script result : String) : Except CheckError Workspace :=
  match Compilation.html? result with
  | some html => .ok { w with compilations := w.compilations.insert file ⟨script, html⟩ }
  | none => .error (.invalidCompilation file)

def configure (w : Workspace) (text : String) : Except CheckError Workspace :=
  match Options.ofConfig? text with
  | some options => .ok { w with options := options }
  | none => .error .invalidOptions

def runOf (w : Workspace) (file script template text : String) : Check.Run :=
  { options := w.options
    program := w.program
    file := file
    scope := Script.Scope.parse file script
    source := ⟨template, Source.replaceScript text script⟩ }

/-- The findings of a script file, in document order. -/
def check (w : Workspace) (file : String) : Except CheckError (List Diagnostic) :=
  match w.compilations.find? file with
  | none => .error (.notCompiled file)
  | some compilation =>
    let template := templateName file
    match w.sources.find? template with
    | none => .error (.missingTemplate file template)
    | some text =>
      .ok (Check.checkTemplate (w.runOf file compilation.script template text) compilation.html)

end Workspace

end PropCheck
