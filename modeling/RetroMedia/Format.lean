/-! The formats this library reads, and how names and addresses tell them apart. -/
namespace RetroMedia

/-- A container format, or a kind of generated source. -/
inductive Format where
  /-- A disk image of coded tracks. -/
  | g64
  /-- Disk images of sectors, for three kinds of drives. -/
  | d64
  | d71
  | d81
  /-- A disk archive. -/
  | lnx
  /-- A tape image. -/
  | t64
  /-- A cartridge image. -/
  | tcrt
  /-- A hard-disk image. -/
  | dfi
  /-- A document given inline. -/
  | json
  /-- The digest of inline data. -/
  | sha256
  /-- The symbol of inline data. -/
  | qr
  deriving DecidableEq, Repr, Inhabited

namespace Format

def all : List Format := [g64, d64, d71, d81, lnx, t64, tcrt, dfi, json, sha256, qr]

/-- The order in which a container of unknown format is tried. -/
def probeOrder : List Format := [g64, lnx, t64, tcrt, dfi, d64, d71, d81]

def name : Format → String
  | g64 => "G64"
  | d64 => "D64"
  | d71 => "D71"
  | d81 => "D81"
  | lnx => "LNX"
  | t64 => "T64"
  | tcrt => "TCRT"
  | dfi => "DFI"
  | json => "JSON"
  | sha256 => "SHA256"
  | qr => "QR"

/-- The name of a format in log output. -/
def logName : Format → String
  | lnx => "Lnx"
  | tcrt => "Tcrt"
  | dfi => "Dfi"
  | json => "Json"
  | sha256 => "Sha256"
  | qr => "Qr"
  | format => format.name

/-- The file name extensions of a format, in lower case and without the dot. -/
def extensions : Format → List String
  | g64 => ["g64"]
  | d64 => ["d64"]
  | d71 => ["d71"]
  | d81 => ["d81"]
  | lnx => ["lnx"]
  | t64 => ["t64"]
  | tcrt => ["tcrt"]
  | dfi => ["dfi", "dhd"]
  | json | sha256 | qr => []

/-- The address scheme of a generated source. -/
def scheme? : Format → Option String
  | json => some "json"
  | sha256 => some "sha256"
  | qr => some "qr"
  | _ => none

/-- Does the content form a directory of entries, rather than one generated file? -/
def isContainer : Format → Bool
  | sha256 | qr => false
  | _ => true

/-- ASCII letters in lower case. -/
def lower (text : String) : String := String.ofList (text.toList.map Char.toLower)

/-- ASCII letters in upper case. -/
def upper (text : String) : String := String.ofList (text.toList.map Char.toUpper)

/-- The format that claims a file name extension, in whatever case it is written. -/
def ofExtension? (extension : String) : Option Format :=
  probeOrder.find? fun format => format.extensions.contains (lower extension)

theorem mem_all (format : Format) : format ∈ all := by cases format <;> decide

end Format

/-- The characters after the last `mark`, if it occurs. -/
def afterLast (mark : Char) (text : List Char) : Option (List Char) :=
  if text.contains mark then some (text.reverse.takeWhile (· != mark)).reverse else none

/-- The text after the last dot of a name in lower case, unless there is none. -/
def extensionOf (name : String) : Option String :=
  match afterLast '.' name.toList with
  | some (char :: rest) => some (Format.lower (String.ofList (char :: rest)))
  | _ => none

/-- An address cut at its first colon. -/
def splitScheme (address : String) : Option (String × String) :=
  let chars := address.toList
  if chars.contains ':' then
    some (String.ofList (chars.takeWhile (· != ':')),
      String.ofList ((chars.dropWhile (· != ':')).drop 1))
  else none

/-- The names of the file types that several formats share. -/
def fileTypeName (typeCode : UInt8) : String :=
  match (typeCode &&& 0x07).toNat with
  | 0 => "DEL"
  | 1 => "SEQ"
  | 2 => "PRG"
  | 3 => "USR"
  | 4 => "REL"
  | _ => "???"

end RetroMedia
