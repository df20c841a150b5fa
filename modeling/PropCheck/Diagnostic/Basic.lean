import PropCheck.Json.Written
import PropCheck.Source.File
import PropCheck.Template.Node
import PropCheck.Text.Message
import PropCheck.Text.Suggestion

/-!
# Diagnostics

What the checker reports: where, how grave, and in what words.

* `Code`: the kinds of findings with their numbers and wordings.
* `Diagnostic`: a finding at a place.
* `Diagnostic.text`: a finding in one line.
* `Diagnostic.nameNotFound`, …: the findings of each kind.
-/

namespace PropCheck

/-- How grave a finding is. -/
inductive Category where
  | warning
  | error
deriving DecidableEq, Repr, Inhabited

namespace Category

def ofName? : String → Option Category
  | "Warning" => some warning
  | "Error" => some error
  | _ => none

/-- The word for a category in a line of output. -/
def word : Category → String
  | warning => "warning"
  | error => "error"

end Category

inductive Code where
  | nameNotFound
  | importNotFound
  | notAssignable
  | unknownProperty
deriving DecidableEq, Repr, Inhabited

namespace Code

def number : Code → UInt32
  | nameNotFound => 2304
  | importNotFound => 2307
  | notAssignable => 2322
  | unknownProperty => 2339

def ofNumber? (n : UInt32) : Option Code :=
  [nameNotFound, importNotFound, notAssignable, unknownProperty].find? (·.number == n)

def wording : Code → String
  | nameNotFound => "Cannot find name '{0}'."
  | importNotFound => "Import declaration for '{0}' cannot be found."
  | notAssignable => "Type '{0}' is not assignable to type '{1}'."
  | unknownProperty => "Property '{0}' does not exist on component '{1}'."

end Code

structure Diagnostic where
  file : String
  category : Category
  start : UInt32
  length : UInt32
  code : UInt32
  message : String
  line : UInt32
  column : UInt32
deriving DecidableEq, Repr, Inhabited

namespace Diagnostic

/-- The kind of a finding, if its number is known. -/
def kind? (d : Diagnostic) : Option Code :=
  Code.ofNumber? d.code

/-- A finding in one line. -/
def text (d : Diagnostic) : String :=
  d.file ++ "(" ++ toString d.line.toNat ++ "," ++ toString d.column.toNat ++ "): "
    ++ d.category.word ++ " TS" ++ toString d.code.toNat ++ ": " ++ d.message

def error (source : SourceFile) (node : Node) (code : Code) (message : String) : Diagnostic :=
  let position := source.position node.start
  { file := source.name
    category := .error
    start := node.start
    length := node.length
    code := code.number
    message := message
    line := UInt32.ofNat position.line
    column := UInt32.ofNat position.column }

/-- The line that offers a suggestion. -/
def suggestionLine (name : String) (candidates : List String) : List String :=
  match Text.suggestion? name candidates with
  | some suggestion => ["Did you mean '" ++ suggestion ++ "'?"]
  | none => []

/-- The name of a node is not declared; one of the declared names may be meant. -/
def nameNotFound (source : SourceFile) (declared : List String) (node : Node) : Diagnostic :=
  error source node .nameNotFound <| Text.indentLines <|
    Text.fill Code.nameNotFound.wording [node.name] :: suggestionLine node.name declared

def importNotFound (source : SourceFile) (node : Node) : Diagnostic :=
  error source node .importNotFound (Text.fill Code.importNotFound.wording [node.name])

/-- A component has no member of the name of a node; one of its members may be meant. -/
def unknownProperty (source : SourceFile) (members : List String) (component : String)
    (node : Node) : Diagnostic :=
  error source node .unknownProperty <| Text.indentLines <|
    Text.fill Code.unknownProperty.wording [node.name, component]
      :: suggestionLine node.name members

/-- A value of one type stands where a property of a component wants another type. -/
def notAssignable (source : SourceFile) (node : Node) (valueType propertyType : String)
    (explanation : Option String) (property component : String) : Diagnostic :=
  error source node .notAssignable <| Text.indentLines <|
    Text.fill Code.notAssignable.wording [valueType, propertyType] :: explanation.toList
      ++ ["The expected type comes from property '" ++ property
            ++ "' which is declared on component '" ++ component ++ "'."]

/-- A value whose properties are spread does not fit the properties of a component. -/
def spreadNotAssignable (source : SourceFile) (node : Node) (valueType component : String) :
    Diagnostic :=
  error source node .notAssignable
    ("Type '" ++ valueType ++ "' is not assignable to the props of component '" ++ component
      ++ "'.")

/-! ### Reading -/

open Json (Written)

/-- A finding written as a record; every field is required. -/
def read? (w : Written) : Option Diagnostic := do
  match ← w.parts? ["file", "category", "start", "length", "code", "messageText", "line",
    "column"] with
  | [file, category, start, length, code, message, line, column] =>
    return ⟨← (← file).text?, ← Category.ofName? (← (← category).choice?), ← (← start).offset?,
      ← (← length).offset?, ← (← code).offset?, ← (← message).text?, ← (← line).offset?,
      ← (← column).offset?⟩
  | _ => none

def ofJson? (text : String) : Option Diagnostic := do
  read? (← Written.parse? text)

end Diagnostic

end PropCheck
