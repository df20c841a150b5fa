/-!
# Checking options

Each flag may be given or left out.  A flag that is left out takes the value of `strict`, and is off
if that is left out too.
-/

namespace PropCheck

/-- The flags that decide how strict the checking is. -/
structure Options where
  strict : Option Bool
  strictNullChecks : Option Bool
  strictFunctionTypes : Option Bool
deriving DecidableEq, Repr, Inhabited

namespace Options

/-- No flag given. -/
def default : Options :=
  ⟨none, none, none⟩

/-- Only `strict` given, and on. -/
def strictest : Options :=
  ⟨some true, none, none⟩

/-- A flag that is left out takes the value of `strict`. -/
def enabled (options : Options) (flag : Option Bool) : Bool :=
  (flag.or options.strict).getD false

/-- Whether `null` and `undefined` are types of their own. -/
def nullChecks (options : Options) : Bool :=
  options.enabled options.strictNullChecks

/-- Whether parameters of functions are compared in one direction only. -/
def functionTypes (options : Options) : Bool :=
  options.enabled options.strictFunctionTypes

end Options

end PropCheck
