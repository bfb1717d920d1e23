import RetroMedia.Broker.Basic
import RetroMedia.Image.Basic

/-! The images that files were opened from. A broker, if there is one, lends an image that is still
held under an address to whoever opens the same address again. -/
namespace RetroMedia

/-- An image and its number, by which the broker knows it. -/
structure HeldImage where
  id : ImageId
  image : Image

structure ImageStore where
  broker : Option Broker := some {}
  /-- All images so far, by their numbers. -/
  opened : Array Image := #[]

namespace ImageStore

/-- The image that the broker lends under an address. -/
def lent? (store : ImageStore) (alive : ImageId → Bool) (url : String) : Option HeldImage := do
  let id ← (← store.broker).get? alive url
  return ⟨id, ← store.opened[id]?⟩

/-- Take in a newly opened image. -/
def add (store : ImageStore) (alive : ImageId → Bool) (url : String) (image : Image) :
    HeldImage × ImageStore :=
  let fresh := store.opened.size
  let opened := store.opened.push image
  match store.broker with
  | none => (⟨fresh, image⟩, { store with opened })
  | some broker =>
    let (id, broker) := broker.settle alive url fresh
    (⟨id, opened.getD id image⟩, { broker := some broker, opened })

/-- Borrow the image under an address, or open it. A failure to open it leaves all as it was. -/
def obtain (store : ImageStore) (alive : ImageId → Bool) (url : String)
    (source : Unit → Except Failure Image) : Except Failure HeldImage × ImageStore :=
  match store.lent? alive url with
  | some held => (.ok held, store)
  | none =>
    match source () with
    | .error failure => (.error failure, store)
    | .ok image =>
      let (held, store) := store.add alive url image
      (.ok held, store)

/-- How many live images the broker knows, if there is one. -/
def count? (store : ImageStore) (alive : ImageId → Bool) : Option Nat :=
  store.broker.map (·.count alive)

end ImageStore
end RetroMedia
