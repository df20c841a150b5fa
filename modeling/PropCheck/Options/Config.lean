import PropCheck.Json.Written
import PropCheck.Options.Basic

/-!
# Options from a configuration text

The options stand in the field `compilerOptions` of a JSON text; without the field none is given.
-/

namespace PropCheck.Options

open Json (Written)

/-- A flag that is not given if it is missing. -/
def flag? : Option Written → Option (Option Bool)
  | none => some none
  | some w => w.flag?

/-- The options in a record of flags. -/
def read? (w : Written) : Option Options := do
  match ← w.parts? ["strict", "strictNullChecks", "strictFunctionTypes"] with
  | [strict, nullChecks, functionTypes] =>
    return ⟨← flag? strict, ← flag? nullChecks, ← flag? functionTypes⟩
  | _ => none

def ofConfig? (text : String) : Option Options := do
  match ← (← Written.parse? text).parts? ["compilerOptions"] with
  | [some options] => read? options
  | _ => some default

end PropCheck.Options
