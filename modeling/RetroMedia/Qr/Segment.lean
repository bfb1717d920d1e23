import RetroMedia.Bytes

/-! How a message is cut into segments. Each segment is written in the narrowest alphabet that holds
it, and neighbours are joined where that takes no more bits than to keep them apart. -/
namespace RetroMedia.Qr

/-- The alphabets in which a segment can be written. -/
inductive Mode where
  | numeric
  | alphanumeric
  | byte
  | kanji
  deriving DecidableEq, Repr

namespace Mode

/-- The narrowest alphabet that holds two others. -/
def join : Mode → Mode → Mode
  | numeric, numeric => numeric
  | numeric, alphanumeric | alphanumeric, numeric | alphanumeric, alphanumeric => alphanumeric
  | kanji, kanji => kanji
  | _, _ => byte

/-- The number that announces the alphabet. -/
def indicator : Mode → Nat
  | numeric => 1
  | alphanumeric => 2
  | byte => 4
  | kanji => 8

/-- Bits of a segment's length, by the class of the version: small, middle or large. -/
def lengthBits (mode : Mode) (version : Nat) : Nat :=
  if version ≤ 9 then
    match mode with
    | numeric => 10
    | alphanumeric => 9
    | byte | kanji => 8
  else if version ≤ 26 then
    match mode with
    | numeric => 12
    | alphanumeric => 11
    | byte => 16
    | kanji => 10
  else
    match mode with
    | numeric => 14
    | alphanumeric => 13
    | byte => 16
    | kanji => 12

/-- Characters in a run of bytes. -/
def charCount (mode : Mode) (size : Nat) : Nat := if mode == kanji then size / 2 else size

/-- Bits of so many characters. -/
def dataBits (mode : Mode) (count : Nat) : Nat :=
  match mode with
  | numeric => (10 * count + 2) / 3
  | alphanumeric => (11 * count + 1) / 2
  | byte => 8 * count
  | kanji => 13 * count

/-- All bits of a segment of `size` bytes. -/
def encodedSize (mode : Mode) (size version : Nat) : Nat :=
  4 + mode.lengthBits version + mode.dataBits (mode.charCount size)

end Mode

/-- A run of bytes and the alphabet in which it is written. -/
structure Segment where
  mode : Mode
  bytes : Bytes
  deriving DecidableEq, Repr

/-- What a byte can be part of. -/
inductive ByteClass where
  | symbol
  | digit
  | letter
  /-- The first byte of a pair that takes any second byte. It can itself be the second byte of such a
  pair, and of one that takes few if `narrow`. -/
  | lead (narrow : Bool)
  /-- The first byte of a pair that takes few second bytes, or the second byte of one that takes
  any. -/
  | lastLead
  /-- The second byte of a pair that takes any, and of one that takes few if `narrow`. -/
  | trail (narrow : Bool)
  | other
  deriving DecidableEq, Repr

namespace ByteClass

def ofByte (byte : UInt8) : ByteClass :=
  let code := byte.toNat
  if [0x20, 0x24, 0x25, 0x2A, 0x2B, 0x2D, 0x2E, 0x2F, 0x3A].contains code then symbol
  else if 0x30 ≤ code && code ≤ 0x39 then digit
  else if 0x41 ≤ code && code ≤ 0x5A then letter
  else if 0x81 ≤ code && code ≤ 0x9F then lead true
  else if 0xE0 ≤ code && code ≤ 0xEA then lead false
  else if code == 0xEB then lastLead
  else if code == 0x40 || (0x5B ≤ code && code ≤ 0x7E) || code == 0x80
      || (0xA0 ≤ code && code ≤ 0xBF) then trail true
  else if (0xC0 ≤ code && code ≤ 0xDF) || (0xEC ≤ code && code ≤ 0xFC) then trail false
  else other

/-- Can a byte be the second one of a pair, where the pair takes few second bytes if `narrow`? -/
def isTrail (narrow : Bool) : ByteClass → Bool
  | letter | lead true | trail true => true
  | lead false | lastLead | trail false => !narrow
  | _ => false

end ByteClass

/-- What the bytes since the last cut are, as far as they have been read. -/
inductive Pending where
  | nothing
  | run (mode : Mode)
  /-- Pairs, and the first byte of another one. -/
  | lead (narrow : Bool)
  deriving DecidableEq, Repr

namespace Pending

/-- What a byte begins when nothing before it matters; the end begins nothing. -/
def start : Option ByteClass → Pending
  | none => nothing
  | some .digit => run .numeric
  | some .symbol | some .letter => run .alphanumeric
  | some (.lead _) => lead false
  | some .lastLead => lead true
  | some _ => run .byte

/-- Does a byte, or the end, continue what is pending? Then that is what is pending after it. -/
def continue? : Pending → Option ByteClass → Option Pending
  | nothing, next => some (start next)
  | run .numeric, some .digit => some (run .numeric)
  | run .alphanumeric, some .symbol | run .alphanumeric, some .letter => some (run .alphanumeric)
  | run .byte, some (.trail _) | run .byte, some .other => some (run .byte)
  | run .kanji, some (.lead _) => some (lead false)
  | run .kanji, some .lastLead => some (lead true)
  | lead narrow, some next => if next.isTrail narrow then some (run .kanji) else none
  | _, _ => none

/-- The segments of the bytes since the last cut. The first byte of a pair that is never completed
stands for itself. -/
def segments (newestFirst : Bytes) : Pending → List Segment
  | nothing => []
  | run mode => [⟨mode, newestFirst.reverse⟩]
  | lead _ =>
    match newestFirst with
    | [] => []
    | [byte] => [⟨.byte, [byte]⟩]
    | byte :: rest => [⟨.kanji, rest.reverse⟩, ⟨.byte, [byte]⟩]

end Pending

/-- Cut a message where its bytes no longer fit together. -/
def cut (pending : Pending) (newestFirst : Bytes) (done : List Segment) : Bytes → List Segment
  | [] =>
    match pending.continue? none with
    | some _ => done.reverse
    | none => done.reverse ++ pending.segments newestFirst
  | byte :: rest =>
    let next := some (ByteClass.ofByte byte)
    match pending.continue? next with
    | some pending => cut pending (byte :: newestFirst) done rest
    | none =>
      cut (Pending.start next) [byte] ((pending.segments newestFirst).reverse ++ done) rest

/-- Two neighbours as one segment. -/
def Segment.append (first second : Segment) : Segment :=
  ⟨first.mode.join second.mode, first.bytes ++ second.bytes⟩

def Segment.encodedSize (segment : Segment) (version : Nat) : Nat :=
  segment.mode.encodedSize segment.bytes.length version

/-- Join a segment to the ones after it as long as that takes no more bits. -/
def joinFrom (version : Nat) (last : Segment) : List Segment → List Segment
  | [] => [last]
  | segment :: rest =>
    let joined := last.append segment
    if joined.encodedSize version ≤ last.encodedSize version + segment.encodedSize version then
      joinFrom version joined rest
    else last :: joinFrom version segment rest

/-- The segments of a message in a symbol of some version. -/
def segmentsOf (message : Bytes) (version : Nat) : List Segment :=
  match cut .nothing [] [] message with
  | [] => []
  | first :: rest => joinFrom version first rest

def encodedSize (segments : List Segment) (version : Nat) : Nat :=
  segments.foldl (fun size segment => size + segment.encodedSize version) 0

end RetroMedia.Qr
