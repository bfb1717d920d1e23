import RetroMedia.Broker.Basic
import RetroMedia.Image.Basic

/-! A client of the broker that keeps images under names. An image that it does not keep dies at
once; one that it keeps dies when its name is dropped or reused. -/
namespace RetroMedia

/-- The images of a client, opened and kept. -/
structure BrokerSession where
  broker : Broker := {}
  /-- Every image opened so far, by its number, with what its users share. -/
  opened : Array (Image × Shared) := #[]
  kept : List (String × ImageId) := []

namespace BrokerSession

/-- An image lives as long as a name keeps it. -/
def alive (session : BrokerSession) (image : ImageId) : Bool :=
  session.kept.any (·.2 == image)

def find? (session : BrokerSession) (name : String) : Option ImageId :=
  (session.kept.find? (·.1 == name)).map (·.2)

/-- Keep an image under a name, if one is given. -/
def keep (session : BrokerSession) (name : Option String) (image : ImageId) : BrokerSession :=
  match name with
  | none => session
  | some name => { session with kept := (name, image) :: session.kept.filter (·.1 != name) }

/-- Stop keeping an image, and tell whether it was kept. -/
def release (session : BrokerSession) (name : String) : Bool × BrokerSession :=
  ((session.find? name).isSome, { session with kept := session.kept.filter (·.1 != name) })

/-- A newly opened image gets the next number. -/
def enroll (session : BrokerSession) (image : Image) : ImageId × BrokerSession :=
  (session.opened.size, { session with opened := session.opened.push (image, {}) })

/-- How an address was obtained. -/
structure Obtained where
  image : ImageId
  /-- The image had to be opened. -/
  wasOpened : Bool
  /-- While it was being opened the address was obtained once more; is this that other image? -/
  isInner : Option Bool
  deriving DecidableEq, Repr

/-- Obtain an address. When `nested`, opening it first obtains the same address by itself and holds
that image until the outer request is settled. -/
def obtain (session : BrokerSession) (url : String) (source : Except MediaError Image)
    (nested : Bool) : Except MediaError Obtained × BrokerSession :=
  match session.broker.get? session.alive url with
  | some image => (.ok ⟨image, false, none⟩, session)
  | none =>
    match source with
    | .error error => (.error error, session)
    | .ok parsed =>
      if nested then
        let (inner, session) := session.enroll parsed
        let (inner, broker) := session.broker.settle session.alive url inner
        let (outer, session) := { session with broker }.enroll parsed
        let alive := fun image => session.alive image || image == inner
        let (image, broker) := session.broker.settle alive url outer
        (.ok ⟨image, true, some (image == inner)⟩, { session with broker })
      else
        let (fresh, session) := session.enroll parsed
        let (image, broker) := session.broker.settle session.alive url fresh
        (.ok ⟨image, true, none⟩, { session with broker })

/-- The live image under an address. -/
def get? (session : BrokerSession) (url : String) : Option ImageId :=
  session.broker.get? session.alive url

/-- Do two names keep one image? -/
def areSame (session : BrokerSession) (a b : String) : Option Bool := do
  return (← session.find? a) == (← session.find? b)

/-- The directory of a kept image. -/
def entries (session : BrokerSession) (image : ImageId) :
    Option (Except MediaError (List Entry)) × BrokerSession :=
  match session.opened[image]? with
  | none => (none, session)
  | some (known, shared) =>
    let (table, shared) := known.entries shared
    (some table, { session with opened := session.opened.setIfInBounds image (known, shared) })

def evict (session : BrokerSession) (url : String) : Bool × BrokerSession :=
  let (known, broker) := session.broker.evict url
  (known, { session with broker })

def clear (session : BrokerSession) : BrokerSession :=
  { session with broker := session.broker.clear }

def count (session : BrokerSession) : Nat := session.broker.count session.alive

end BrokerSession
end RetroMedia
