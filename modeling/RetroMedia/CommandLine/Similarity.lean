/-! How alike two words are. Characters match that stand at nearly the same place in both words, and
a common beginning makes words more alike. Everything is a fraction, so nothing is rounded. -/
namespace RetroMedia.Similarity

/-- What has been found out about two words. -/
structure Matches where
  /-- Places of the second word that a character was found at. -/
  taken : List Nat := []
  /-- The place at which the last character was found. -/
  last : Nat := 0
  /-- Characters that were found before the place of the last one. -/
  crossings : Nat := 0

/-- How far apart characters may stand that count as the same. -/
def reach (a b : List Char) : Nat := max a.length b.length / 2 - 1

/-- Look for a character of the first word in the second one. -/
def look (b : List Char) (reach : Nat) (found : Matches) (char : Char × Nat) : Matches :=
  let fits := fun (place : Nat) =>
    char.2 ≤ place + reach && place ≤ char.2 + reach && b[place]? == some char.1
      && !found.taken.contains place
  match (List.range b.length).find? fits with
  | none => found
  | some place =>
    { taken := place :: found.taken, last := place
      crossings := found.crossings + if place < found.last then 1 else 0 }

def matchesOf (a b : List Char) : Matches :=
  (a.zipIdx).foldl (look b (reach a b)) {}

/-- A fraction by its numerator and its denominator. -/
structure Ratio where
  numerator : Nat
  denominator : Nat

/-- The mean of three shares: matches in either word, and matches that keep their order. -/
def share (a b : List Char) : Ratio :=
  let found := matchesOf a b
  let count := found.taken.length
  if a == b then ⟨1, 1⟩
  else if count = 0 ∨ (a.length = 1 ∧ b.length = 1) then ⟨0, 1⟩
  else ⟨count * b.length * count + count * a.length * count
    + (count - found.crossings) * a.length * b.length, 3 * a.length * b.length * count⟩

/-- How many characters two words have in common at their beginnings. -/
def commonStart : List Char → List Char → Nat
  | x :: a, y :: b => if x == y then commonStart a b + 1 else 0
  | _, _ => 0

/-- Are two words alike by more than four fifths? Each character of a common beginning makes up a
tenth of what they lack. -/
def isClose (a b : List Char) : Bool :=
  let share := share a b
  let start := commonStart a b
  let lack := share.denominator - share.numerator
  8 * share.denominator < 10 * share.numerator + start * lack

end RetroMedia.Similarity
