import RetroMedia.Vfs.FileSystem

/-! Registries. The first file system that claims a file serves it, so the order in which they are
registered decides between overlapping claims. -/
namespace RetroMedia

structure Registry where
  systems : List FileSystem
  config : Config := {}

namespace Registry

/-- All formats. Those with schemes come first, so that an address never counts as a file name. -/
def standardFormats : List Format :=
  [.json, .sha256, .qr, .g64, .d64, .d71, .d81, .lnx, .t64, .tcrt, .dfi]

/-- A registry of all formats. -/
def standard (config : Config) : Registry := ⟨standardFormats.map .ofFormat, config⟩

/-- Add a file system after all others. -/
def register (registry : Registry) (system : FileSystem) : Registry :=
  { registry with systems := registry.systems ++ [system] }

/-- The file system that serves a name. -/
def find? (registry : Registry) (name : String) : Option FileSystem :=
  registry.systems.find? (·.claims name)

/-- The file system that serves a hint. -/
def findHint? (registry : Registry) (hint : String) : Option FileSystem :=
  registry.systems.find? (·.claimsHint hint)

/-- The content of an address that holds it inline, with the file system it belongs to. -/
def generate? (registry : Registry) (url : String) :
    Option (FileSystem × Except Failure Container) :=
  registry.systems.findSome? fun system =>
    (system.generate? url).map fun content => (system, content)

/-- The bounds of a configuration in log output. -/
def describeLimits (limits : Limits) : String :=
  Quoted.record "Limits" [("max_chain_blocks", toString limits.maxChainBlocks),
    ("yield_interval", toString limits.yieldInterval),
    ("watchdog_interval", toString limits.watchdogInterval),
    ("max_entries", toString limits.maxEntries)]

def describeConfig (config : Config) : String :=
  Quoted.record "Config" [("limits", describeLimits config.limits),
    ("cache_images", if config.cacheImages then "true" else "false")]

/-- The registry in log output. -/
def describe (registry : Registry) : String :=
  let names := registry.systems.map fun system => Quoted.quote system.name
  Quoted.record "Registry" [("filesystems", "[" ++ String.intercalate ", " names ++ "]"),
    ("config", describeConfig registry.config)]

theorem mem_standardFormats (format : Format) : format ∈ standardFormats := by
  cases format <;> decide

end Registry
end RetroMedia
