import PropCheck.Double.Basic
import PropCheck.Text.EditDistance

/-!
# Spelling suggestions

A name that is not found is probably a slip of the pen for one that exists.  The suggestion is a
name that differs in case only, or else the nearest one if it is near enough.

* `Text.maxDistance`: how far away a suggestion may be.
* `Text.suggestion?`: the suggestion for a name.
-/

namespace PropCheck.Text

/-- How far a suggestion may be from a name of some length: about a third of it, and at least two.
-/
def maxDistance (length : Nat) : Nat :=
  let third := Double.ofDecimal false 34 (-2)
  max ((Double.ofNat length).mul third).floorNat 2

/-- Whether two texts differ at most in the case of their ASCII letters. -/
def sameIgnoringCase (a b : String) : Bool :=
  a.toList.map Char.toLower == b.toList.map Char.toLower

/-- The distance of a candidate, if it is at most a bound. -/
def nearDistance? (bound : Nat) (name candidate : List Char) : Option Nat :=
  -- lengths that are too far apart decide without looking at the characters
  if name.length + bound < candidate.length || candidate.length + bound < name.length then none
  else
    let distance := editDistance name candidate
    if distance ≤ bound then some distance else none

/-- The better of the best candidate so far and a new one; the earlier one wins a tie. -/
def nearer (best : Option (String × Nat)) (candidate : String) : Option Nat → Option (String × Nat)
  | none => best
  | some distance =>
    match best with
    | some (_, least) => if distance < least then some (candidate, distance) else best
    | none => some (candidate, distance)

/-- The suggestion out of the candidates that are left, given the best one so far. -/
def suggestFrom (name : String) (best : Option (String × Nat)) : List String → Option String
  | [] => best.map (·.1)
  | candidate :: candidates =>
    if candidate == name then suggestFrom name best candidates
    else if sameIgnoringCase candidate name then some candidate
    else
      let bound := maxDistance name.length
      let near := nearDistance? bound name.toList candidate.toList
      suggestFrom name (nearer best candidate near) candidates

def suggestion? (name : String) (candidates : List String) : Option String :=
  suggestFrom name none candidates

end PropCheck.Text
