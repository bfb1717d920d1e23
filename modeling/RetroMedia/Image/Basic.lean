import RetroMedia.Handler
import RetroMedia.Text.Quoted

/-! Images. An image is a container opened under an address. Its directory is read when it is first
needed, and kept from then on for everyone who uses the image. -/
namespace RetroMedia

structure Image where
  url : String
  handler : Handler
  limits : Limits := {}

/-- What the users of an image share: the directory, once it was read, and the signals. -/
structure Shared where
  table : Option (List Entry) := none
  signals : Signals := {}

namespace Image

/-- Open a container in the given format, or in the first one that fits. -/
def «open» (url : String) (container : Container) (format : Option Format) (limits : Limits) :
    Except MediaError Image := do
  let handler ← Handler.open container format
  return { url, handler, limits }

def format (image : Image) : Format := image.handler.format

def container (image : Image) : Container := image.handler.container

/-- The counter for reading the directory, which bounds its entries. -/
def entryCounter (image : Image) (signals : Signals) : Progress :=
  { limits := image.limits, count := 0, bound := some image.limits.maxEntries, signals }

/-- The directory. A failure to read it leaves nothing behind. -/
def entries (image : Image) (shared : Shared) : Except MediaError (List Entry) × Shared :=
  match shared.table with
  | some table => (.ok table, shared)
  | none =>
    match image.handler.entries (image.entryCounter shared.signals) with
    | .ok table after => (.ok table, { table := some table, signals := after.signals })
    | .error error after => (.error error, { shared with signals := after.signals })

/-- The image in log output. -/
def describe (image : Image) : String :=
  Quoted.record "MediaImage" [("url", Quoted.quote image.url), ("format", image.format.logName)]

end Image
end RetroMedia
