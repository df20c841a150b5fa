import PropCheck.Script.Lexeme

/-!
# Regular expressions

* `scanRegex`: a regular expression after its opening slash.
-/

namespace PropCheck.Script

/-- The body of a regular expression up to its closing slash; a slash inside brackets or after a
backslash does not close it. -/
def scanRegexBody : Bool → List Char → List Char → Option (List Char)
  | _, [], _ => none
  | inClass, '\\' :: c :: cs, acc =>
    if isLineEnd c then none else scanRegexBody inClass cs (c :: '\\' :: acc)
  | inClass, c :: cs, acc =>
    if isLineEnd c then none
    else if c == '/' && !inClass then some acc.reverse
    else
      let inClass := if c == '[' then true else if c == ']' then false else inClass
      scanRegexBody inClass cs (c :: acc)

/-- The order in which flags are listed. -/
def regexFlags : List Char :=
  ['d', 'g', 'i', 'm', 's', 'u', 'v', 'y']

/-- Whether some letters are known flags, each given once. -/
def areFlags : List Char → Bool
  | [] => true
  | c :: cs => regexFlags.contains c && !cs.contains c && areFlags cs

/-- A regular expression after its opening slash. -/
def scanRegex (cs : List Char) : Scanned :=
  match scanRegexBody false cs [] with
  | none => .bad
  | some body =>
    let isFlag := fun (c : Char) => c.isAlphanum || c == '$' || c == '_'
    let flags := (cs.drop (body.length + 1)).takeWhile isFlag
    if areFlags flags then
      .plain (.regex (String.ofList ('/' :: body ++ '/' :: regexFlags.filter flags.contains)))
        (body.length + 1 + flags.length)
    else .bad

end PropCheck.Script
