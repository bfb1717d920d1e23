/-! The broker. It remembers which image is open under which address, but keeps none of them alive:
an image lives as long as somebody holds it. Opening an image takes time during which anything may
happen, so lending one has two steps: the look-up, and the settlement once the image is open. -/
namespace RetroMedia

/-- Tells images apart. -/
abbrev ImageId := Nat

/-- Remembered images by address, each address at most once. -/
structure Broker where
  known : List (String × ImageId) := []
  deriving DecidableEq, Repr, Inhabited

namespace Broker

/-- The image under an address, dead or alive. -/
def known? (broker : Broker) (url : String) : Option ImageId :=
  (broker.known.find? (·.1 == url)).map (·.2)

/-- The live image under an address. -/
def get? (broker : Broker) (alive : ImageId → Bool) (url : String) : Option ImageId :=
  (broker.known? url).filter alive

/-- Forget an address. -/
def forget (broker : Broker) (url : String) : Broker :=
  { known := broker.known.filter (·.1 != url) }

/-- Remember an image under an address, in place of any other. -/
def remember (broker : Broker) (url : String) (image : ImageId) : Broker :=
  { known := (url, image) :: (broker.forget url).known }

/-- Forget what is dead. -/
def prune (broker : Broker) (alive : ImageId → Bool) : Broker :=
  { known := broker.known.filter fun (_, image) => alive image }

/-- An image was opened for an address: hand out the one that meanwhile took its place, or else
remember and hand out the new one. -/
def settle (broker : Broker) (alive : ImageId → Bool) (url : String) (opened : ImageId) :
    ImageId × Broker :=
  let pruned := broker.prune alive
  match pruned.get? alive url with
  | some image => (image, pruned)
  | none => (opened, pruned.remember url opened)

/-- Forget an address on request, and tell whether it was known. -/
def evict (broker : Broker) (url : String) : Bool × Broker :=
  ((broker.known? url).isSome, broker.forget url)

def clear (_broker : Broker) : Broker := {}

/-- How many live images are remembered. -/
def count (broker : Broker) (alive : ImageId → Bool) : Nat :=
  (broker.known.filter fun (_, image) => alive image).length

/-- The broker in log output. -/
def describe (broker : Broker) (alive : ImageId → Bool) : String :=
  "ImageBroker \x7b images: " ++ toString (broker.count alive) ++ " \x7d"

theorem known?_forget (broker : Broker) (url : String) : (broker.forget url).known? url = none := by
  simp [known?, forget]

theorem known?_remember (broker : Broker) (url : String) (image : ImageId) :
    (broker.remember url image).known? url = some image := by
  simp [known?, remember]

/-- A live image is never replaced. -/
theorem settle_of_get? {broker : Broker} {alive : ImageId → Bool} {url : String}
    {image opened : ImageId} (held : (broker.prune alive).get? alive url = some image) :
    broker.settle alive url opened = (image, broker.prune alive) := by
  simp [settle, held]

end Broker
end RetroMedia
