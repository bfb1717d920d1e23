import RetroMedia.Json.Number
import RetroMedia.Text.Utf8

/-! The tokens of a document. Text inside quotes is well-formed UTF-8 without control characters;
outside of them only the four ASCII blanks may separate tokens. -/
namespace RetroMedia

inductive JsonToken where
  | openObject
  | closeObject
  | openArray
  | closeArray
  | comma
  | colon
  | null
  | bool (value : Bool)
  | number (value : JsonNumber)
  | string (text : String)
  deriving DecidableEq, Repr

namespace JsonToken

def hexValue? (byte : UInt8) : Option Nat :=
  if 0x30 ≤ byte && byte ≤ 0x39 then some (byte.toNat - 0x30)
  else if 0x41 ≤ byte && byte ≤ 0x46 then some (byte.toNat - 0x37)
  else if 0x61 ≤ byte && byte ≤ 0x66 then some (byte.toNat - 0x57)
  else none

/-- Four hexadecimal digits. -/
def hexUnit? : Bytes → Option (Nat × Bytes)
  | a :: b :: c :: d :: rest => do
    let value := (((← hexValue? a) * 16 + (← hexValue? b)) * 16 + (← hexValue? c)) * 16
      + (← hexValue? d)
    return (value, rest)
  | _ => none

/-- The character of one or two 16-bit units; a surrogate is only accepted as half of a pair. -/
def hexChar? (bytes : Bytes) : Option (Char × Bytes) := do
  let (first, rest) ← hexUnit? bytes
  if 0xDC00 ≤ first ∧ first ≤ 0xDFFF then none
  else if first < 0xD800 ∨ 0xDBFF < first then some (Char.ofNat first, rest)
  else
    match rest with
    | 0x5C :: 0x75 :: rest =>
      let (second, rest) ← hexUnit? rest
      if second < 0xDC00 ∨ 0xDFFF < second then none
      else some (Char.ofNat ((first - 0xD800) * 0x400 + (second - 0xDC00) + 0x10000), rest)
    | _ => none

/-- The character that an escape stands for, given the bytes after its backslash. -/
def escaped? : Bytes → Option (Char × Bytes)
  | [] => none
  | byte :: rest =>
    if byte == 0x22 || byte == 0x5C || byte == 0x2F then some (Char.ofUInt8 byte, rest)
    else if byte == 0x62 then some (Char.ofNat 0x08, rest)
    else if byte == 0x66 then some (Char.ofNat 0x0C, rest)
    else if byte == 0x6E then some (Char.ofNat 0x0A, rest)
    else if byte == 0x72 then some (Char.ofNat 0x0D, rest)
    else if byte == 0x74 then some (Char.ofNat 0x09, rest)
    else if byte == 0x75 then hexChar? rest
    else none

theorem hexUnit?_length_le {bytes rest : Bytes} {value : Nat}
    (found : hexUnit? bytes = some (value, rest)) : rest.length ≤ bytes.length := by
  unfold hexUnit? at found
  split at found
  · simp only [Option.bind_eq_bind, Option.bind_eq_some_iff, Option.pure_def, Option.some.injEq,
      Prod.mk.injEq] at found
    obtain ⟨_, _, _, _, _, _, _, _, _, rfl⟩ := found
    simp only [List.length_cons]
    omega
  · simp at found

theorem hexChar?_length_le {bytes rest : Bytes} {char : Char}
    (found : hexChar? bytes = some (char, rest)) : rest.length ≤ bytes.length := by
  unfold hexChar? at found
  simp only [Option.bind_eq_bind, Option.bind_eq_some_iff] at found
  obtain ⟨⟨first, after⟩, unit, taken⟩ := found
  have first := hexUnit?_length_le unit
  dsimp only at taken
  split at taken
  · simp at taken
  · split at taken
    · simp only [Option.some.injEq, Prod.mk.injEq] at taken
      rw [← taken.2]
      exact first
    · split at taken
      · simp only [Option.bind_eq_some_iff] at taken
        obtain ⟨⟨second, last⟩, unit', taken⟩ := taken
        have second := hexUnit?_length_le unit'
        dsimp only at taken
        split at taken
        · simp at taken
        · simp only [Option.some.injEq, Prod.mk.injEq] at taken
          rw [← taken.2]
          simp only [List.length_cons] at first
          omega
      · simp at taken

theorem escaped?_length_lt {bytes rest : Bytes} {char : Char}
    (found : escaped? bytes = some (char, rest)) : rest.length < bytes.length := by
  unfold escaped? at found
  split at found
  · simp at found
  · (repeat' split at found) <;> first
      | (simp at found; done)
      | (cases found; simp)
      | (have bound := hexChar?_length_le found; simp only [List.length_cons]; omega)

/-- The bytes up to the closing quote, newest first, and what follows it. -/
def quoted? (newestFirst : Bytes) : Bytes → Option (Bytes × Bytes)
  | [] => none
  | byte :: rest =>
    if byte == 0x22 then some (newestFirst, rest)
    else if byte == 0x5C then
      match _found : escaped? rest with
      | none => none
      | some (char, after) =>
        quoted? ((Utf8.encode (String.singleton char)).reverse ++ newestFirst) after
    else if byte < 0x20 then none
    else quoted? (byte :: newestFirst) rest
termination_by bytes => bytes.length
decreasing_by
  · have := escaped?_length_lt _found
    simp only [List.length_cons]
    omega
  · simp

theorem quoted?_length_lt {newestFirst bytes text rest : Bytes}
    (found : quoted? newestFirst bytes = some (text, rest)) : rest.length < bytes.length := by
  fun_induction quoted? newestFirst bytes with
  | case1 => simp at found
  | case2 newestFirst byte tail quote => cases found; simp
  | case3 => simp at found
  | case4 newestFirst byte tail _ _ char after escape ih =>
    have := ih found
    have := escaped?_length_lt escape
    simp only [List.length_cons]
    omega
  | case5 => simp at found
  | case6 newestFirst byte tail _ _ _ ih =>
    have := ih found
    simp only [List.length_cons]
    omega

def isBlank (byte : UInt8) : Bool := byte == 0x20 || byte == 0x0A || byte == 0x0D || byte == 0x09

/-- A token that is a fixed run of bytes. -/
def fixed : List (Bytes × JsonToken) :=
  [([0x7B], openObject), ([0x7D], closeObject), ([0x5B], openArray), ([0x5D], closeArray),
    ([0x2C], comma), ([0x3A], colon), ([0x6E, 0x75, 0x6C, 0x6C], null),
    ([0x74, 0x72, 0x75, 0x65], bool true), ([0x66, 0x61, 0x6C, 0x73, 0x65], bool false)]

/-- The token at the beginning of some bytes, and the bytes after it. -/
def next? (first : UInt8) (rest : Bytes) : Option (JsonToken × Bytes) :=
  if first == 0x22 then do
    let (reversed, after) ← quoted? [] rest
    return (string (← Utf8.decode? reversed.reverse), after)
  else if first == 0x2D || JsonNumber.isDigit first then do
    let (value, after) ← JsonNumber.read? (first :: rest)
    return (number value, after)
  else do
    let (spelling, token) ← fixed.find? fun (spelling, _) => spelling.isPrefixOf (first :: rest)
    return (token, (first :: rest).drop spelling.length)

theorem next?_length_lt {first : UInt8} {bytes rest : Bytes} {token : JsonToken}
    (found : next? first bytes = some (token, rest)) : rest.length < (first :: bytes).length := by
  unfold next? at found
  split at found
  · simp only [Option.bind_eq_bind, Option.bind_eq_some_iff] at found
    obtain ⟨⟨reversed, after⟩, text, decoded, _, same⟩ := found
    cases same
    have := quoted?_length_lt text
    simp only [List.length_cons]
    omega
  · split at found
    · simp only [Option.bind_eq_bind, Option.bind_eq_some_iff] at found
      obtain ⟨⟨value, after⟩, read, same⟩ := found
      cases same
      exact JsonNumber.read?_length_lt read
    · simp only [Option.bind_eq_bind, Option.bind_eq_some_iff] at found
      obtain ⟨⟨spelling, token⟩, member, same⟩ := found
      cases same
      have listed := List.mem_of_find?_eq_some member
      have positive : 0 < spelling.length := by
        revert listed
        simp only [fixed, List.mem_cons, Prod.mk.injEq, List.not_mem_nil, or_false]
        rintro (⟨rfl, _⟩ | ⟨rfl, _⟩ | ⟨rfl, _⟩ | ⟨rfl, _⟩ | ⟨rfl, _⟩ | ⟨rfl, _⟩ | ⟨rfl, _⟩
          | ⟨rfl, _⟩ | ⟨rfl, _⟩) <;> simp
      simp only [List.length_drop, List.length_cons]
      omega

/-- All tokens of some bytes, unless a part of them is none. -/
def scan? (newestFirst : List JsonToken) : Bytes → Option (List JsonToken)
  | [] => some newestFirst.reverse
  | first :: rest =>
    if isBlank first then scan? newestFirst rest
    else
      match _found : next? first rest with
      | none => none
      | some (token, after) => scan? (token :: newestFirst) after
termination_by bytes => bytes.length
decreasing_by
  · simp
  · exact next?_length_lt _found

end JsonToken
end RetroMedia
