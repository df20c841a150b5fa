import PropCheck.Text.Blank

/-!
# The script region of a template

A template holds its script between an opening and a closing tag.  The region starts at the first
opening tag that some closing tag follows, and ends with the last closing tag.  Tags are found
whatever the case of their letters.

* `replaceScript`: a template with its script region replaced.
-/

namespace PropCheck.Source

/-- Whether a character is a letter of a tag in either case; the long s is an s. -/
def isLetter (letter c : Char) : Bool :=
  c == letter || c == letter.toUpper || (letter == 's' && c == 'ſ')

/-- What follows a word at the start, in either case. -/
def dropWord? : List Char → List Char → Option (List Char)
  | [], cs => some cs
  | w :: ws, c :: cs => if isLetter w c then dropWord? ws cs else none
  | _ :: _, [] => none

def openingStart : List Char :=
  ['<', 's', 'c', 'r', 'i', 'p', 't']

def closing : List Char :=
  ['<', '/', 's', 'c', 'r', 'i', 'p', 't', '>']

/-- What follows an opening tag at the start. -/
def afterOpening? (cs : List Char) : Option (List Char) :=
  match dropWord? openingStart cs with
  | some ('>' :: rest) => some rest
  | some (c :: rest) =>
    -- attributes may stand after a blank
    if Text.isBlank c then
      match rest.dropWhile (· != '>') with
      | _ :: rest => some rest
      | [] => none
    else none
  | _ => none

/-- What follows the last closing tag. -/
def afterLastClosing? : List Char → Option (List Char)
  | [] => none
  | c :: cs => (afterLastClosing? cs).or (dropWord? closing (c :: cs))

/-- A script between plain tags. -/
def tagged (script : List Char) : List Char :=
  ['<', 's', 'c', 'r', 'i', 'p', 't', '>'] ++ script ++ closing

/-- A template with its script region replaced; one without such a region stays as it is. -/
def replaceRegion (script : List Char) : List Char → List Char
  | [] => []
  | c :: cs =>
    match (afterOpening? (c :: cs)).bind afterLastClosing? with
    | some rest => tagged script ++ rest
    | none => c :: replaceRegion script cs

/-- A template with its script region replaced by a script. -/
def replaceScript (template script : String) : String :=
  String.ofList (replaceRegion script.toList template.toList)

end PropCheck.Source
