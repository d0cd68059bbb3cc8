/-!
# Splitting text

A text falls into the parts between the places where a separator stands; there is always one part more
than there are separators. White space separates too, but any amount of it counts as one separator. It is a set of
characters, and such a set is given by the code points at which membership changes, in ascending order.
-/

namespace Workflow

structure CharSet where
  bounds : List Nat

namespace CharSet

/-- Membership of `n` after the bounds passed so far left it at `inside`. -/
def holds (n : Nat) : List Nat → Bool → Bool
  | [], inside => inside
  | b :: rest, inside => if n < b then inside else holds n rest (!inside)

def contains (s : CharSet) (c : Char) : Bool := holds c.toNat s.bounds false

end CharSet

/-! ## White space -/

/-- The white space of Unicode together with the four ASCII separators 28 to 31. -/
def CharSet.blank : CharSet where
  bounds := [9, 14, 28, 33, 133, 134, 160, 161, 5760, 5761, 8192, 8203, 8232, 8234, 8239, 8240, 8287, 8288,
    12288, 12289]

def isBlank (c : Char) : Bool := CharSet.blank.contains c

def dropBlanks (cs : List Char) : List Char := cs.dropWhile isBlank

def dropBlanksRight (cs : List Char) : List Char := (cs.reverse.dropWhile isBlank).reverse

def stripBlanks (cs : List Char) : List Char := dropBlanksRight (dropBlanks cs)

def blankFields (cs : List Char) : List (List Char) :=
  let step (c : Char) (acc : List Char × List (List Char)) :=
    if isBlank c then ([], if acc.1 = [] then acc.2 else acc.1 :: acc.2) else (c :: acc.1, acc.2)
  let last := cs.foldr step ([], [])
  if last.1 = [] then last.2 else last.1 :: last.2

/-! ## Separators -/

def partsBetween (separator : Char) : List Char → List (List Char)
  | [] => [[]]
  | c :: rest =>
    if c = separator then [] :: partsBetween separator rest
    else
      match partsBetween separator rest with
      | part :: parts => (c :: part) :: parts
      | [] => [[c]]

def textParts (separator : Char) (s : String) : List String := (partsBetween separator s.toList).map String.ofList

end Workflow
