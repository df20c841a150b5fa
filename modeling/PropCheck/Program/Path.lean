/-!
# Paths

Paths of modules are texts with slashes between their segments.

* `Path.normalize`: a path without `.` and, as far as possible, without `..`.
* `Path.beside`: a path taken from the directory of a file.
-/

namespace PropCheck.Path

/-- The segments of a path: what stands between its slashes. -/
def segments : List Char → List (List Char)
  | [] => [[]]
  | c :: cs =>
    if c = '/' then [] :: segments cs
    else
      match segments cs with
      | s :: ss => (c :: s) :: ss
      | [] => [[c]]

def ofSegments : List (List Char) → List Char
  | [] => []
  | [s] => s
  | s :: ss => s ++ '/' :: ofSegments ss

/-- The segment that stays in a directory. -/
def here : List Char :=
  ['.']

/-- The segment that goes back up. -/
def up : List Char :=
  ['.', '.']

/-- Walks one segment further, `walked` being the segments so far, last one first. -/
def walk (absolute : Bool) (walked : List (List Char)) (segment : List Char) : List (List Char) :=
  if segment = [] ∨ segment = here then walked
  else if segment = up then
    -- there is nothing above the root of an absolute path
    match walked with
    | last :: before =>
      if last ≠ up then before else if absolute then walked else up :: walked
    | [] => if absolute then [] else [up]
  else segment :: walked

def isAbsolute : List Char → Bool
  | '/' :: _ => true
  | _ => false

/-- The segments of a path that are left when it is walked. -/
def walkAll (path : List Char) : List (List Char) :=
  ((segments path).foldl (walk (isAbsolute path)) []).reverse

def normalizeChars (path : List Char) : List Char :=
  (if isAbsolute path then ['/'] else []) ++ ofSegments (walkAll path)

/-- A path without `.` and empty segments, and with `..` only where nothing is left to go up from.
-/
def normalize (path : String) : String :=
  String.ofList (normalizeChars path.toList)

/-- What stands before the last slash of a path; nothing if it has none. -/
def directoryChars (path : List Char) : List Char :=
  ofSegments (segments path).dropLast

/-- A path taken from the directory of a file; without a directory it stands for itself. -/
def beside (file path : String) : String :=
  match directoryChars file.toList with
  | [] => normalize path
  | directory => String.ofList (normalizeChars (directory ++ '/' :: path.toList))

end PropCheck.Path
