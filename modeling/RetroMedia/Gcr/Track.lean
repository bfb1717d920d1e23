import RetroMedia.Gcr.Sync
import RetroMedia.Gcr.Sector
import RetroMedia.Progress

/-! Tracks. A track is a ring of coded bytes without a beginning, so it is searched in two copies
laid end to end: a block that straddles the seam stands whole in the middle of them. -/
namespace RetroMedia.Gcr

/-- How many sectors a drive writes on each track of its four speed zones; none beyond them. -/
def sectorsPerTrack (track : UInt8) : UInt8 :=
  if 1 ≤ track && track ≤ 17 then 21
  else if 18 ≤ track && track ≤ 24 then 19
  else if 25 ≤ track && track ≤ 30 then 18
  else if 31 ≤ track && track ≤ 42 then 17
  else 0

/-- The coded bytes of one revolution. -/
structure Track where
  bytes : Bytes

namespace Track

/-- One revolution after another. -/
def doubled (track : Track) : Bytes := track.bytes ++ track.bytes

/-- The data block of the sector whose header stands at the beginning of `afterSync`, if the header
names the wanted sector: the outer option says whether it does. -/
def sectorAt (number sector : UInt8) (position : Nat) (afterSync : Bytes) :
    Option (Option SectorData) :=
  match SectorHeader.decode? afterSync with
  | some header =>
    if header.names number sector then
      some ((nextSync (afterSync.drop headerSize) (position + headerSize)).bind
        fun found => SectorData.decode? found.2)
    else none
  | none => none

/-- Go from sync mark to sync mark until one revolution is over. The first header that names the
sector and is followed by a readable data block wins. -/
def scan (length : Nat) (number sector : UInt8) (position : Nat) (bytes : Bytes)
    (headerSeen : Bool) : Walk SectorData := do
  let missing := if headerSeen then MediaError.badGcr else .invalidLocation
  if position < length then
    Progress.tick
    match _found : nextSync bytes position with
    | none => throw missing
    | some (after, rest) =>
      match sectorAt number sector after rest with
      | some (some data) => return data
      | some none => scan length number sector after rest true
      | none => scan length number sector after rest headerSeen
  else throw missing
termination_by bytes.length
decreasing_by all_goals exact nextSync_length_lt _found

/-- The data of a sector. Without a header that names it the location is invalid; with one but
without data the coding is bad. -/
def findSector (track : Track) (number sector : UInt8) : Walk SectorData :=
  scan track.bytes.length number sector 0 track.doubled false

end Track
end RetroMedia.Gcr
