import RetroMedia.Bytes

/-! Unicode text as bytes. Reading can be strict, refusing ill-formed input, or lenient, where each
maximal ill-formed part becomes one replacement character. -/
namespace RetroMedia.Utf8

/-- The bytes of a text. -/
def encode (text : String) : Bytes := text.toUTF8.data.toList

/-- What a first byte announces: how many bytes follow it, the payload bits it carries, and the
least and greatest second byte. -/
def lead (first : UInt8) : Option (Nat × Nat × UInt8 × UInt8) :=
  let payload (mask : UInt8) := (first &&& mask).toNat
  if 0xC2 ≤ first && first ≤ 0xDF then some (1, payload 0x1F, 0x80, 0xBF)
  else if first == 0xE0 then some (2, payload 0x0F, 0xA0, 0xBF)
  else if first == 0xED then some (2, payload 0x0F, 0x80, 0x9F)
  else if 0xE1 ≤ first && first ≤ 0xEF then some (2, payload 0x0F, 0x80, 0xBF)
  else if first == 0xF0 then some (3, payload 0x07, 0x90, 0xBF)
  else if 0xF1 ≤ first && first ≤ 0xF3 then some (3, payload 0x07, 0x80, 0xBF)
  else if first == 0xF4 then some (3, payload 0x07, 0x80, 0x8F)
  else none

/-- Read `count` further bytes onto `value`, the first of them within the given bounds. A part that
is cut short gives no character and leaves the offending byte to be read again. -/
def continueChar : Nat → Nat → UInt8 → UInt8 → Bytes → Option Char × Bytes
  | 0, value, _, _, bytes => (some (Char.ofNat value), bytes)
  | _ + 1, _, _, _, [] => (none, [])
  | count + 1, value, least, greatest, byte :: rest =>
    if least ≤ byte && byte ≤ greatest then
      continueChar count (value * 64 + (byte &&& 0x3F).toNat) 0x80 0xBF rest
    else (none, byte :: rest)

/-- The character that begins with `first`, or nothing for an ill-formed part, and the bytes
after it. -/
def takeChar (first : UInt8) (rest : Bytes) : Option Char × Bytes :=
  if first < 0x80 then (some (Char.ofUInt8 first), rest)
  else
    match lead first with
    | some (count, value, least, greatest) => continueChar count value least greatest rest
    | none => (none, rest)

theorem continueChar_length_le (count value : Nat) (least greatest : UInt8) (bytes : Bytes) :
    (continueChar count value least greatest bytes).2.length ≤ bytes.length := by
  fun_induction continueChar count value least greatest bytes with
  | case1 => simp
  | case2 => simp
  | case3 _ _ _ _ _ _ _ ih => simp only [List.length_cons]; omega
  | case4 => simp

theorem takeChar_length_le (first : UInt8) (rest : Bytes) :
    (takeChar first rest).2.length ≤ rest.length := by
  unfold takeChar
  split
  · simp
  · split
    · exact continueChar_length_le ..
    · simp

/-- The characters of a byte string, `none` for each ill-formed part. -/
def chars : Bytes → List (Option Char)
  | [] => []
  | first :: rest => (takeChar first rest).1 :: chars (takeChar first rest).2
termination_by bytes => bytes.length
decreasing_by
  have := takeChar_length_le first rest
  simp only [List.length_cons]
  omega

/-- The character that stands for an ill-formed part. -/
def replacement : Char := Char.ofNat 0xFFFD

/-- Lenient reading. -/
def decodeLossy (bytes : Bytes) : String :=
  String.ofList ((chars bytes).map (·.getD replacement))

/-- Strict reading. -/
def decode? (bytes : Bytes) : Option String :=
  ((chars bytes).mapM id).map String.ofList

end RetroMedia.Utf8
