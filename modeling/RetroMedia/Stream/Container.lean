import RetroMedia.Error
import RetroMedia.Bytes

/-! A container: the immutable bytes of an image, an archive or a generated source. -/
namespace RetroMedia

/-- The raw bytes that everything else is read from. -/
structure Container where
  bytes : Array UInt8
  deriving DecidableEq

namespace Container

def ofBytes (bytes : Bytes) : Container := ⟨bytes.toArray⟩

def toBytes (container : Container) : Bytes := container.bytes.toList

def size (container : Container) : Nat := container.bytes.size

/-- The bytes at `offset`, at most `count` of them and none past the end. -/
def readAt (container : Container) (offset count : Nat) : Bytes :=
  (container.bytes.extract offset (offset + count)).toList

/-- Exactly `length` bytes at `offset`. -/
def slice (container : Container) (offset length : Nat) : Except MediaError Bytes :=
  if offset + length ≤ container.size then .ok (container.readAt offset length)
  else .error .shortRead

/-- The part of a stored size that lies inside the container when the data begins at `offset`. -/
def clamp (container : Container) (offset stored : Nat) : Nat :=
  min stored (container.size - offset)

theorem readAt_eq (container : Container) (offset count : Nat) :
    container.readAt offset count = (container.toBytes.drop offset).take count := by
  simp [readAt, toBytes, List.extract_eq_take_drop]

theorem length_readAt (container : Container) (offset count : Nat) :
    (container.readAt offset count).length = min count (container.size - offset) := by
  simp [readAt_eq, toBytes, size]

theorem length_of_slice {container : Container} {offset length : Nat} {bytes : Bytes}
    (found : container.slice offset length = .ok bytes) : bytes.length = length := by
  unfold slice at found
  split at found
  · rename_i fits
    cases found
    rw [length_readAt]
    omega
  · cases found

theorem slice_eq_ok_iff {container : Container} {offset length : Nat} :
    (∃ bytes, container.slice offset length = .ok bytes) ↔ offset + length ≤ container.size := by
  unfold slice
  split <;> simp_all

end Container
end RetroMedia
