import RetroMedia.Config
import RetroMedia.Error
import RetroMedia.Toml.Document

/-! Reading the settings of a program. Whatever a document leaves out has its standard value, and
names it does not know are passed over. -/
namespace RetroMedia

namespace Toml

/-- A number of steps or of entries. -/
def count? : Toml → Option Nat
  | .integer value => if 0 ≤ value then some value.toNat else none
  | _ => none

def bool? : Toml → Option Bool
  | .bool value => some value
  | _ => none

/-- Read a value if it is there, or else take the standard one. -/
def orStandard (read : Toml → Option α) (standard : α) : Option Toml → Option α
  | none => some standard
  | some value => read value

end Toml

/-- Bounds, each of which is looked up in some way: by its name, or by its place. -/
def Limits.ofLookup? (lookup : String × Nat → Option Toml) : Option Limits := do
  let standard : Limits := {}
  return {
    maxChainBlocks := ←
      Toml.orStandard Toml.count? standard.maxChainBlocks (lookup ("max_chain_blocks", 0))
    yieldInterval := ←
      Toml.orStandard Toml.count? standard.yieldInterval (lookup ("yield_interval", 1))
    watchdogInterval := ←
      Toml.orStandard Toml.count? standard.watchdogInterval (lookup ("watchdog_interval", 2))
    maxEntries := ← Toml.orStandard Toml.count? standard.maxEntries (lookup ("max_entries", 3)) }

/-- Bounds as a table, or as an array in the order of their fields. A date is a record without any
of the fields. -/
def Limits.ofToml? : Toml → Option Limits
  | .table _ members => ofLookup? fun (name, _) => Toml.lookup? members name
  | .array items => ofLookup? fun (_, place) => items[place]?
  | .rows tables => ofLookup? fun (_, place) => (tables[place]?).map (.table .header)
  | .moment _ => some {}
  | _ => none

/-- The settings in the tables of a document. -/
def Config.ofMembers? (members : Toml.Members) : Option Config := do
  let standard : Config := {}
  return {
    limits := ← Toml.orStandard Limits.ofToml? standard.limits (Toml.lookup? members "limits")
    cacheImages := ←
      Toml.orStandard Toml.bool? standard.cacheImages (Toml.lookup? members "cache_images") }

/-- The settings that a document gives. -/
def Config.parse (text : String) : Except Failure Config :=
  match (Toml.parse? text).bind Config.ofMembers? with
  | some config => .ok config
  | none => .error (.external .invalidData "TOML parse error")

end RetroMedia
