/-! The causes of failure. A `MediaError` is a cause this library knows; a `Failure` is either such
a cause or one that the surroundings report with a kind and a text of their own. -/
namespace RetroMedia

/-- Why an operation on a container failed. -/
inductive MediaError where
  | unknown
  | unknownFormat
  | invalidHeader
  | invalidLayout
  | invalidLocation
  | invalidOffset
  | shortRead
  | badGcr
  | notFound
  | invalidEntryIndex
  | chainLoop
  | chainTooLong
  | invalidChainLink
  | partialEntry
  | notADirectory
  | cancelled
  deriving DecidableEq, Repr, Inhabited

/-- The broad class of a failure, by which a caller decides whether to try again. -/
inductive ErrorKind where
  | notFound
  | invalidInput
  | invalidData
  | unexpectedEof
  | unsupported
  | interrupted
  | isADirectory
  | notADirectory
  | invalidFilename
  | uncategorized
  | other
  deriving DecidableEq, Repr, Inhabited

namespace MediaError

/-- Every cause, in the order in which they are documented. -/
def all : List MediaError :=
  [unknown, unknownFormat, invalidHeader, invalidLayout, invalidLocation, invalidOffset, shortRead,
    badGcr, notFound, invalidEntryIndex, chainLoop, chainTooLong, invalidChainLink, partialEntry,
    notADirectory, cancelled]

/-- The sentence shown to a user. -/
def message : MediaError → String
  | unknown => "unknown error"
  | unknownFormat => "unknown format"
  | invalidHeader => "invalid header"
  | invalidLayout => "invalid layout"
  | invalidLocation => "bad track or sector"
  | invalidOffset => "offset out of bounds"
  | shortRead => "short read"
  | badGcr => "bad GCR data"
  | notFound => "file not found"
  | invalidEntryIndex => "invalid entry index"
  | chainLoop => "chain loop detected"
  | chainTooLong => "chain exceeds the maximum length"
  | invalidChainLink => "invalid chain link"
  | partialEntry => "entry can only be partially resolved"
  | notADirectory => "not a directory"
  | cancelled => "operation cancelled"

/-- Damaged data is `invalidData`, a bad request `invalidInput`, and a cancelled traversal counts
as interrupted, so that a reader which retries interruptions retries it. -/
def kind : MediaError → ErrorKind
  | unknown => .other
  | unknownFormat | invalidHeader | invalidLayout | badGcr | chainLoop | chainTooLong
  | invalidChainLink => .invalidData
  | invalidLocation | invalidOffset | invalidEntryIndex | notADirectory => .invalidInput
  | shortRead => .unexpectedEof
  | notFound => .notFound
  | partialEntry => .unsupported
  | cancelled => .interrupted

theorem mem_all (error : MediaError) : error ∈ all := by cases error <;> decide

end MediaError

/-- A failure of an operation that also touches its surroundings: a host file, a configuration
text, a symbol that does not hold its data. -/
inductive Failure where
  | media (error : MediaError)
  | external (kind : ErrorKind) (message : String)
  deriving DecidableEq, Repr, Inhabited

namespace Failure

def kind : Failure → ErrorKind
  | media error => error.kind
  | external kind _ => kind

def message : Failure → String
  | media error => error.message
  | external _ message => message

/-- The library's own cause behind a failure, if it has one. -/
def cause? : Failure → Option MediaError
  | media error => some error
  | external _ _ => none

/-- The library's own cause, where a foreign failure counts as unknown. -/
def toMediaError (failure : Failure) : MediaError := failure.cause?.getD .unknown

/-- A failure that the surroundings report by its kind alone. -/
def missingEntity : Failure := external .notFound "entity not found"

instance : Coe MediaError Failure := ⟨media⟩

end Failure
end RetroMedia
