/-! Bounds on traversals, and the settings a program runs under. -/
namespace RetroMedia

/-- Bounds on every traversal of data that a container holds. -/
structure Limits where
  /-- The most linked blocks that one chain may have. -/
  maxChainBlocks : Nat := 10000
  /-- Other threads get a turn every so many steps. -/
  yieldInterval : Nat := 10
  /-- The watchdog is refreshed every so many steps. -/
  watchdogInterval : Nat := 100
  /-- The most entries that one directory may list. -/
  maxEntries : Nat := 4096
  deriving DecidableEq, Repr, Inhabited

/-- The settings of a program. -/
structure Config where
  limits : Limits := {}
  /-- Share parsed images between everything that opens the same address. -/
  cacheImages : Bool := true
  deriving DecidableEq, Repr, Inhabited

end RetroMedia
