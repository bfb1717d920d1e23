import RetroMedia.Digest.Sha256
import RetroMedia.Format
import RetroMedia.Qr.Quadrants
import RetroMedia.Qr.Symbol
import RetroMedia.Stream.Container
import RetroMedia.Text.Utf8

/-! Generated sources. An address of the form `scheme:data` holds its data inline: a document as it
stands, the digest of some data, or the symbol of some data. -/
namespace RetroMedia.Generated

/-- The formats that have a scheme of their own. -/
def formats : List Format := [.json, .sha256, .qr]

/-- Does a format go by a scheme, in whatever case it is written? -/
def hasScheme (scheme : String) (format : Format) : Bool :=
  format.scheme? == some (Format.lower scheme)

/-- The format and the inline data of an address that has one of the schemes. -/
def parseUrl? (url : String) : Option (Format × String) := do
  let (scheme, data) ← splitScheme url
  let format ← formats.find? (hasScheme scheme)
  return (format, data)

/-- The digest in hexadecimal digits, with a newline. -/
def digestText (data : Bytes) : String := Sha256.hexDigest data ++ "\n"

/-- The symbol as text. -/
def symbolText (data : Bytes) : Except Failure String :=
  match Qr.symbol? data with
  | some symbol => .ok (Qr.Quadrants.render symbol)
  | none => .error (.external .invalidInput "data too long")

/-- The content of a generated source. -/
def generate (format : Format) (data : String) : Except Failure Container :=
  match format with
  | .json => .ok (.ofBytes (Utf8.encode data))
  | .sha256 => .ok (.ofBytes (Utf8.encode (digestText (Utf8.encode data))))
  | .qr => (symbolText (Utf8.encode data)).map fun text => .ofBytes (Utf8.encode text)
  | _ => .error (.media .unknownFormat)

end RetroMedia.Generated
