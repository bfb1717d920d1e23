import RetroMedia.Error
import RetroMedia.Stream.Container
import RetroMedia.Stream.Source

/-! A position in a container, for parsers that walk it from front to back. A seek names its target
from the start, the current position or the end; a target past the end is taken back to the end. -/
namespace RetroMedia

/-- Where a seek goes. -/
inductive Seek where
  | start (offset : Nat)
  | current (delta : Int)
  | fromEnd (delta : Int)
  deriving DecidableEq, Repr, Inhabited

namespace Seek

/-- Positions are 64-bit numbers. -/
def positionLimit : Nat := UInt64.size

/-- `base + delta`, unless that is negative or no position. -/
def shift (base : Nat) (delta : Int) : Option Nat :=
  let target := (base : Int) + delta
  if target < 0 then none
  else if positionLimit ≤ target.toNat then none
  else some target.toNat

/-- The position that a seek leads to in a source of `size` bytes that stands at `position`. -/
def resolve (seek : Seek) (position size : Nat) : Except MediaError Nat :=
  let target := match seek with
    | start offset => some offset
    | current delta => shift position delta
    | fromEnd delta => shift size delta
  match target with
  | some target => .ok (min target size)
  | none => .error .invalidOffset

theorem resolve_le {seek : Seek} {position size target : Nat}
    (found : seek.resolve position size = .ok target) : target ≤ size := by
  unfold resolve at found
  dsimp only at found
  split at found <;> cases found
  exact Nat.min_le_right _ _

end Seek

/-- A container and a position, which may lie past its end. -/
structure Cursor where
  container : Container
  position : Nat := 0

namespace Cursor

def size (cursor : Cursor) : Nat := cursor.container.size

/-- How many bytes lie ahead. -/
def available (cursor : Cursor) : Nat := cursor.size - cursor.position

def isExhausted (cursor : Cursor) : Bool := cursor.available == 0

/-- Exactly `length` bytes; the cursor moves only if they are there. -/
def take (cursor : Cursor) (length : Nat) : Except MediaError Bytes × Cursor :=
  match cursor.container.slice cursor.position length with
  | .ok bytes => (.ok bytes, { cursor with position := cursor.position + length })
  | .error error => (.error error, cursor)

/-- As many of `count` bytes as there are. -/
def read (cursor : Cursor) (count : Nat) : Bytes × Cursor :=
  let bytes := cursor.container.readAt cursor.position count
  (bytes, { cursor with position := cursor.position + bytes.length })

def seek (cursor : Cursor) (target : Seek) : Except MediaError Nat × Cursor :=
  match target.resolve cursor.position cursor.size with
  | .ok position => (.ok position, { cursor with position })
  | .error error => (.error error, cursor)

instance : ByteSource Cursor where
  read cursor count := ((cursor.read count).map .ok id)
  measure := available
  shrinks := by
    intro cursor count _
    have size := cursor.container.length_readAt cursor.position count
    simp only [Cursor.read, Prod.map, id]
    cases read : cursor.container.readAt cursor.position count with
    | nil => trivial
    | cons byte rest =>
      rw [read] at size
      simp only [ReadShrinks, available, Cursor.size, List.length_cons] at *
      omega

end Cursor
end RetroMedia
