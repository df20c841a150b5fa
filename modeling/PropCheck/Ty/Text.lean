import PropCheck.Ty.Basic
import PropCheck.Double.Text

/-!
# The text of a type

Types are shown to the reader of a message in the notation they are written in.  Unions,
intersections and functions stand in parentheses before `[]`, functions also inside unions,
intersections and argument lists.  An object that has a name is shown by its name alone.
-/

namespace PropCheck

def Keyword.text : Keyword → String
  | .any => "any"
  | .unknown => "unknown"
  | .never => "never"
  | .void => "void"
  | .undefined => "undefined"
  | .null => "null"
  | .string => "string"
  | .number => "number"
  | .boolean => "boolean"
  | .bigint => "bigint"
  | .symbol => "symbol"
  | .object => "object"

namespace Ty

/-- Whether a type stands in parentheses before `[]`. -/
def isComposite : Ty → Bool
  | union _ | intersection _ | function .. => true
  | _ => false

def isFunction : Ty → Bool
  | function .. => true
  | _ => false

/-- A text, in parentheses if asked for. -/
def parenthesized (wrap : Bool) (text : String) : String :=
  if wrap then "(" ++ text ++ ")" else text

/-- A name with the mark of an optional place. -/
def slotName (name : String) (isOptional : Bool) : String :=
  if isOptional then name ++ "?" else name

mutual

def text : Ty → String
  | keyword k => k.text
  | string s => "\"" ++ s ++ "\""
  | number x => x.text
  | boolean b => if b then "true" else "false"
  | array t => parenthesized t.isComposite (text t) ++ "[]"
  | tuple ts => "[" ++ ", ".intercalate (texts ts) ++ "]"
  | union ts => " | ".intercalate (operandTexts ts)
  | intersection ts => " & ".intercalate (operandTexts ts)
  | function params result _ => "(" ++ ", ".intercalate (slotTexts params) ++ ") => " ++ text result
  | object (some name) _ => name
  | object none [] => "{}"
  | object none properties =>
    String.singleton '{' ++ " " ++ String.join ((slotTexts properties).map (· ++ "; "))
      ++ String.singleton '}'
  | reference name [] => name
  | reference name arguments => name ++ "<" ++ ", ".intercalate (operandTexts arguments) ++ ">"

def texts : List Ty → List String
  | [] => []
  | t :: ts => text t :: texts ts

/-- The texts of some types, functions in parentheses. -/
def operandTexts : List Ty → List String
  | [] => []
  | t :: ts => parenthesized t.isFunction (text t) :: operandTexts ts

/-- The texts of some slots: name, mark, colon and type. -/
def slotTexts : List (Slot Ty) → List String
  | [] => []
  | ⟨name, t, isOptional⟩ :: ss =>
    (slotName name isOptional ++ ": " ++ text t) :: slotTexts ss

end

end Ty

end PropCheck
