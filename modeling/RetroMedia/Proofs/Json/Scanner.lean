import RetroMedia.Json.Document
import RetroMedia.Proofs.Json.Number

/-! Documents, written and cut into tokens again. Each token is found in front of whatever follows it,
except that a number must not run on. -/
namespace RetroMedia

open JsonNumber (Stops)

namespace JsonToken

section Strings

variable {bytes after : Bytes} {char : Char}

theorem hexUnit?_append {value : Nat} (found : hexUnit? bytes = some (value, after)) (rest : Bytes) :
    hexUnit? (bytes ++ rest) = some (value, after ++ rest) := by
  unfold hexUnit? at found
  split at found
  · rename_i a b c d tail
    simp only [Option.bind_eq_bind, Option.bind_eq_some_iff, Option.pure_def, Option.some.injEq,
      Prod.mk.injEq] at found
    obtain ⟨first, one, second, two, third, three, fourth, four, rfl, rfl⟩ := found
    simp [hexUnit?, one, two, three, four]
  · cases found

theorem hexChar?_append (found : hexChar? bytes = some (char, after)) (rest : Bytes) :
    hexChar? (bytes ++ rest) = some (char, after ++ rest) := by
  unfold hexChar? at *
  simp only [Option.bind_eq_bind, Option.bind_eq_some_iff] at found
  obtain ⟨⟨first, behind⟩, unit, found⟩ := found
  rw [hexUnit?_append unit, Option.bind_eq_bind, Option.bind_some]
  dsimp only at *
  split at found
  · cases found
  · rename_i high
    rw [if_neg high]
    split at found
    · rename_i single
      cases found
      rw [if_pos single]
    · rename_i pair
      rw [if_neg pair]
      split at found
      · rename_i low
        simp only [Option.bind_eq_some_iff] at found
        obtain ⟨⟨second, last⟩, unit', found⟩ := found
        change (hexUnit? (low ++ rest)).bind _ = _
        rw [hexUnit?_append unit', Option.bind_some]
        dsimp only at *
        split at found
        · cases found
        · rename_i fits
          rw [if_neg fits]
          simp only [Option.some.injEq, Prod.mk.injEq] at *
          exact ⟨found.1, congrArg (· ++ rest) found.2⟩
      · cases found

theorem escaped?_append (found : escaped? bytes = some (char, after)) (rest : Bytes) :
    escaped? (bytes ++ rest) = some (char, after ++ rest) := by
  cases bytes with
  | nil => cases found
  | cons byte bytes =>
    rw [List.cons_append]
    unfold escaped? at *
    dsimp only at *
    -- Only the escape with digits looks further than at the byte behind the backslash.
    (repeat' split at found) <;> first
      | (cases found; done)
      | (cases found; simp [*])
      | (rw [hexChar?_append found]; simp [*])

theorem escape_of_small : ∀ code < 0x20, ∀ bytes,
    (Json.escape (Char.ofNat code)).flatMap String.utf8EncodeChar = bytes →
      bytes.head? = some 0x5C ∧ escaped? bytes.tail = some (Char.ofNat code, []) := by
  have table : ∀ code < 0x20,
      ((Json.escape (Char.ofNat code)).flatMap String.utf8EncodeChar).head? = some 0x5C ∧
        escaped? ((Json.escape (Char.ofNat code)).flatMap String.utf8EncodeChar).tail
          = some (Char.ofNat code, []) := by
    decide
  rintro code small _ rfl
  exact table code small

/-- A quote, a backslash or a control character is written behind a backslash. -/
theorem escaped?_escape (hidden : char = '"' ∨ char = '\\' ∨ char.toNat < 0x20) (rest : Bytes) :
    ∃ tail, (Json.escape char).flatMap String.utf8EncodeChar = 0x5C :: tail ∧
      escaped? (tail ++ rest) = some (char, rest) := by
  have spelled : ∀ bytes, (Json.escape char).flatMap String.utf8EncodeChar = bytes →
      bytes.head? = some 0x5C ∧ escaped? bytes.tail = some (char, []) := by
    rcases hidden with rfl | rfl | small
    · rintro _ rfl
      decide
    · rintro _ rfl
      decide
    · rw [← Char.ofNat_toNat char]
      exact escape_of_small _ small
  obtain ⟨head, found⟩ := spelled _ rfl
  obtain ⟨tail, bytes⟩ := List.head?_eq_some_iff.1 head
  rw [bytes] at found
  exact ⟨tail, bytes, escaped?_append found rest⟩

/-- Every other character is written as it is. -/
theorem escape_of_plain (quote : char ≠ '"') (backslash : char ≠ '\\') (plain : 0x20 ≤ char.toNat) :
    Json.escape char = [char] := by
  unfold Json.escape
  rw [if_neg (by simpa using quote), if_neg (by simpa using backslash)]
  rw [if_neg (by simp; omega), if_neg (by simp; omega), if_neg (by simp; omega),
    if_neg (by simp; omega), if_neg (by simp; omega), if_neg (by omega)]

theorem quoted?_plain {chunk : Bytes}
    (plain : ∀ byte ∈ chunk, byte ≠ 0x22 ∧ byte ≠ 0x5C ∧ 0x20 ≤ byte) (newestFirst rest : Bytes) :
    quoted? newestFirst (chunk ++ rest) = quoted? (chunk.reverse ++ newestFirst) rest := by
  induction chunk generalizing newestFirst with
  | nil => rfl
  | cons byte chunk ih =>
    obtain ⟨quote, backslash, shows⟩ := plain byte List.mem_cons_self
    rw [List.cons_append, quoted?, if_neg (by simpa using quote), if_neg (by simpa using backslash),
      if_neg (UInt8.not_lt.2 shows), ih fun other member => plain other (List.mem_cons_of_mem _ member),
      List.reverse_cons, List.append_assoc, List.singleton_append]

/-- A character inside quotes is found again, on its own or behind a backslash. -/
theorem quoted?_escape (char : Char) (newestFirst rest : Bytes) :
    quoted? newestFirst ((Json.escape char).flatMap String.utf8EncodeChar ++ rest)
      = quoted? ((String.utf8EncodeChar char).reverse ++ newestFirst) rest := by
  by_cases hidden : char = '"' ∨ char = '\\' ∨ char.toNat < 0x20
  · obtain ⟨tail, bytes, found⟩ := escaped?_escape hidden rest
    have single : Utf8.encode (String.singleton char) = String.utf8EncodeChar char := by
      rw [Utf8.encode_eq, String.toList_singleton, List.flatMap_singleton]
    rw [bytes, List.cons_append, quoted?, if_neg (by decide), if_pos (by decide)]
    split
    · rename_i missing
      rw [found] at missing
      cases missing
    · rename_i char' after here
      rw [found] at here
      cases here
      rw [single]
  · rw [not_or, not_or, Nat.not_lt] at hidden
    obtain ⟨quote, backslash, shows⟩ := hidden
    rw [escape_of_plain quote backslash shows, List.flatMap_singleton]
    apply quoted?_plain
    intro byte member
    rcases Utf8.utf8EncodeChar_cases char with ⟨single, small⟩ | long
    · rw [single, List.mem_singleton] at member
      have same : byte.toNat = char.toNat := by
        rw [member]
        exact Nat.mod_eq_of_lt (Nat.lt_trans small (by decide))
      simp only [ne_eq, UInt8.le_iff_toNat_le, ← UInt8.toNat_inj, same, ← Char.toNat_inj,
        UInt8.reduceToNat, Char.reduceToNat] at *
      omega
    · have high := long byte member
      refine ⟨?_, ?_, UInt8.le_trans (by decide) high⟩
      · rintro rfl
        exact absurd high (by decide)
      · rintro rfl
        exact absurd high (by decide)

theorem quoted?_escaped (text : List Char) (newestFirst rest : Bytes) :
    quoted? newestFirst ((text.flatMap Json.escape).flatMap String.utf8EncodeChar ++ 0x22 :: rest)
      = some ((text.flatMap String.utf8EncodeChar).reverse ++ newestFirst, rest) := by
  induction text generalizing newestFirst with
  | nil =>
    rw [List.flatMap_nil, List.flatMap_nil, List.nil_append, quoted?]
    rfl
  | cons char text ih =>
    rw [List.flatMap_cons, List.flatMap_append, List.append_assoc, quoted?_escape, ih,
      List.flatMap_cons, List.reverse_append, List.append_assoc]

end Strings

/-- Some bytes spell a token, whatever follows them. -/
def Spells (token : JsonToken) (bytes : Bytes) : Prop :=
  ∃ first tail, bytes = first :: tail ∧ isBlank first = false ∧
    ∀ rest, next? first (tail ++ rest) = some (token, rest)

variable {token : JsonToken} {bytes rest : Bytes}

theorem scan?_of_next? {first : UInt8} {after : Bytes} (shows : isBlank first = false)
    (step : next? first rest = some (token, after)) (newestFirst : List JsonToken) :
    scan? newestFirst (first :: rest) = scan? (token :: newestFirst) after := by
  rw [scan?, shows, if_neg (by decide)]
  split
  · rename_i missing
    rw [step] at missing
    cases missing
  · rename_i token' after here
    rw [step] at here
    cases here
    rfl

theorem scan?_of_spells (spells : Spells token bytes) (newestFirst : List JsonToken) (rest : Bytes) :
    scan? newestFirst (bytes ++ rest) = scan? (token :: newestFirst) rest := by
  obtain ⟨first, tail, rfl, shows, found⟩ := spells
  exact scan?_of_next? shows (found rest) newestFirst

theorem spells_of_fixed : ∀ entry ∈ fixed, Spells entry.2 entry.1 := by
  simp only [fixed, List.forall_mem_cons, List.not_mem_nil, false_implies, implies_true, and_true]
  refine ⟨?_, ?_, ?_, ?_, ?_, ?_, ?_, ?_, ?_⟩ <;> exact ⟨_, _, rfl, rfl, fun _ => rfl⟩

theorem spells_string (text : String) :
    Spells (.string text) ((Json.quote text).flatMap String.utf8EncodeChar) := by
  have quotes : (Json.quote text).flatMap String.utf8EncodeChar
      = 0x22 :: ((text.toList.flatMap Json.escape).flatMap String.utf8EncodeChar ++ [0x22]) := by
    rw [Json.quote, List.flatMap_append, List.flatMap_cons]
    rfl
  refine ⟨_, _, quotes, rfl, ?_⟩
  intro rest
  have inside := quoted?_escaped text.toList [] rest
  rw [List.append_nil, ← Utf8.encode_eq] at inside
  rw [next?, if_pos (by decide), List.append_assoc, List.singleton_append, inside]
  simp [Utf8.decode?_encode]

theorem first_of_read? {first : UInt8} {number : JsonNumber} {after : Bytes}
    (found : JsonNumber.read? (first :: rest) = some (number, after)) :
    (first == 0x2D || JsonNumber.isDigit first) = true := by
  apply Decidable.byContradiction
  intro other
  rw [Bool.or_eq_true, not_or, beq_iff_eq, Bool.not_eq_true] at other
  have none : JsonNumber.spanDigits (first :: rest) = ([], first :: rest) := by
    rw [JsonNumber.spanDigits, other.2, if_neg (by decide)]
  rw [JsonNumber.read?_of_no_minus (by simpa using other.1), JsonNumber.readUnsigned?, none] at found
  cases found

theorem shows_of_begins {first : UInt8} (begins : (first == 0x2D || JsonNumber.isDigit first) = true) :
    isBlank first = false ∧ ¬ (first == 0x22) = true := by
  simp only [JsonNumber.isDigit, isBlank, Bool.or_eq_true, Bool.and_eq_true, beq_iff_eq,
    decide_eq_true_eq, Bool.or_eq_false_iff, beq_eq_false_iff_ne, ne_eq, UInt8.le_iff_toNat_le,
    ← UInt8.toNat_inj, UInt8.reduceToNat] at *
  omega

theorem scan?_number {number : JsonNumber} (fits : number.Fits) (exact : number.isFloat = false)
    (stops : Stops rest) (newestFirst : List JsonToken) :
    scan? newestFirst (number.toText.toList.flatMap String.utf8EncodeChar ++ rest)
      = scan? (.number number :: newestFirst) rest := by
  have read := JsonNumber.read?_toText fits exact stops
  cases spelled : number.toText.toList.flatMap String.utf8EncodeChar with
  | nil =>
    have nothing := @JsonNumber.read?_toText [] number fits exact nofun
    rw [spelled] at nothing
    cases nothing
  | cons first tail =>
    rw [spelled, List.cons_append] at read
    have begins := first_of_read? read
    have shows := shows_of_begins begins
    apply scan?_of_next? shows.1
    rw [next?, if_neg shows.2, if_pos begins]
    change (JsonNumber.read? (first :: (tail ++ rest)) >>= _) = _
    rw [read]
    rfl

end JsonToken

namespace Json

mutual

/-- The tokens of a value. -/
def tokens : Json → List JsonToken
  | null => [.null]
  | bool value => [.bool value]
  | number value => [.number value]
  | string text => [.string text]
  | array items => .openArray :: itemTokens items ++ [.closeArray]
  | object members => .openObject :: memberTokens members ++ [.closeObject]

/-- The tokens of values between commas. -/
def itemTokens : List Json → List JsonToken
  | [] => []
  | [item] => tokens item
  | item :: rest => tokens item ++ .comma :: itemTokens rest

/-- The tokens of members between commas. -/
def memberTokens : List (String × Json) → List JsonToken
  | [] => []
  | [(key, value)] => .string key :: .colon :: tokens value
  | (key, value) :: rest => .string key :: .colon :: (tokens value ++ .comma :: memberTokens rest)

end

/-- A value is cut into its tokens, in front of whatever does not go on with a number. -/
def Scans (value : Json) : Prop :=
  ∀ newestFirst rest, Stops rest →
    JsonToken.scan? newestFirst ((print value).flatMap String.utf8EncodeChar ++ rest)
      = JsonToken.scan? (value.tokens.reverse ++ newestFirst) rest

open JsonToken (scan?)

theorem stops_cons {first : UInt8} (known : first ∈ [0x2C, 0x5D, 0x7D]) (rest : Bytes) :
    Stops (first :: rest) := by
  simp only [List.mem_cons, List.not_mem_nil, or_false] at known
  rintro _ ⟨⟩
  rcases known with rfl | rfl | rfl <;> decide

theorem scan?_mark {mark : UInt8} {token : JsonToken} (known : ([mark], token) ∈ JsonToken.fixed)
    (newestFirst : List JsonToken) (rest : Bytes) :
    scan? newestFirst (mark :: rest) = scan? (token :: newestFirst) rest :=
  JsonToken.scan?_of_spells (JsonToken.spells_of_fixed _ known) newestFirst rest

theorem scan?_items {items : List Json} (scans : ∀ item ∈ items, item.Scans)
    (newestFirst : List JsonToken) {rest : Bytes} (stops : Stops rest) :
    scan? newestFirst ((printItems items).flatMap String.utf8EncodeChar ++ rest)
      = scan? ((itemTokens items).reverse ++ newestFirst) rest := by
  induction items generalizing newestFirst with
  | nil => rfl
  | cons item items ih =>
    have first := scans item List.mem_cons_self
    -- A comma stops a number, as does the end of the list.
    cases items with
    | nil => exact first newestFirst rest stops
    | cons next items =>
      have more := ih fun other member => scans other (List.mem_cons_of_mem _ member)
      have comma := @scan?_mark 0x2C .comma (by decide)
      have written : (printItems (item :: next :: items)).flatMap String.utf8EncodeChar
          = (print item).flatMap String.utf8EncodeChar
            ++ 0x2C :: (printItems (next :: items)).flatMap String.utf8EncodeChar :=
        List.flatMap_append
      have cut : itemTokens (item :: next :: items)
          = item.tokens ++ .comma :: itemTokens (next :: items) := rfl
      rw [written, List.append_assoc, List.cons_append, first _ _ (stops_cons (by decide) _), comma,
        more, cut]
      simp

theorem scan?_member {key : String} {value : Json} (scans : value.Scans)
    (newestFirst : List JsonToken) {rest : Bytes} (stops : Stops rest) :
    scan? newestFirst ((quote key ++ ':' :: print value).flatMap String.utf8EncodeChar ++ rest)
      = scan? (value.tokens.reverse ++ .colon :: .string key :: newestFirst) rest := by
  have written : (quote key ++ ':' :: print value).flatMap String.utf8EncodeChar
      = (quote key).flatMap String.utf8EncodeChar
        ++ 0x3A :: (print value).flatMap String.utf8EncodeChar :=
    List.flatMap_append
  have colon := @scan?_mark 0x3A .colon (by decide)
  rw [written, List.append_assoc, List.cons_append,
    JsonToken.scan?_of_spells (JsonToken.spells_string key), colon, scans _ _ stops]

theorem scan?_members {members : List (String × Json)} (scans : ∀ member ∈ members, member.2.Scans)
    (newestFirst : List JsonToken) {rest : Bytes} (stops : Stops rest) :
    scan? newestFirst ((printMembers members).flatMap String.utf8EncodeChar ++ rest)
      = scan? ((memberTokens members).reverse ++ newestFirst) rest := by
  induction members generalizing newestFirst with
  | nil => rfl
  | cons member members ih =>
    obtain ⟨key, value⟩ := member
    have first := scans _ List.mem_cons_self
    cases members with
    | nil =>
      rw [printMembers, scan?_member first _ stops]
      simp [memberTokens]
    | cons next members =>
      have more := ih fun other member => scans other (List.mem_cons_of_mem _ member)
      have comma := @scan?_mark 0x2C .comma (by decide)
      have written : (printMembers ((key, value) :: next :: members)).flatMap String.utf8EncodeChar
          = (quote key ++ ':' :: print value).flatMap String.utf8EncodeChar
            ++ 0x2C :: (printMembers (next :: members)).flatMap String.utf8EncodeChar := by
        simp [printMembers]
        rfl
      have cut : memberTokens ((key, value) :: next :: members)
          = .string key :: .colon :: (value.tokens ++ .comma :: memberTokens (next :: members)) := rfl
      rw [written, List.append_assoc, List.cons_append,
        scan?_member first _ (stops_cons (by decide) _), comma, more, cut]
      simp

theorem scans_of_spells {value : Json} {token : JsonToken}
    (spells : JsonToken.Spells token ((print value).flatMap String.utf8EncodeChar))
    (alone : value.tokens = [token]) : value.Scans := by
  intro newestFirst rest _
  rw [alone, JsonToken.scan?_of_spells spells]
  rfl

theorem scans_number {number : JsonNumber} (fits : number.Fits) (exact : number.isFloat = false) :
    (Json.number number).Scans := by
  intro newestFirst rest stops
  rw [print, JsonToken.scan?_number fits exact stops, tokens]
  rfl

/-- What stands between two marks is scanned between their tokens. -/
theorem scans_between {value : Json} {opening closing : UInt8} {first last : JsonToken}
    {inside : List Char} {within : List JsonToken}
    (opens : ([opening], first) ∈ JsonToken.fixed) (closes : ([closing], last) ∈ JsonToken.fixed)
    (ends : closing ∈ [0x2C, 0x5D, 0x7D])
    (written : (print value).flatMap String.utf8EncodeChar
      = opening :: (inside.flatMap String.utf8EncodeChar ++ [closing]))
    (cut : value.tokens = first :: within ++ [last])
    (scans : ∀ newestFirst rest, Stops rest →
      scan? newestFirst (inside.flatMap String.utf8EncodeChar ++ rest)
        = scan? (within.reverse ++ newestFirst) rest) : value.Scans := by
  intro newestFirst rest _
  rw [written, List.cons_append, List.append_assoc, List.singleton_append, scan?_mark opens,
    scans _ _ (stops_cons ends rest), scan?_mark closes, cut]
  simp

theorem scans_array {items : List Json} (scans : ∀ item ∈ items, item.Scans) :
    (array items).Scans := by
  have opens : ([0x5B], .openArray) ∈ JsonToken.fixed := by decide
  have closes : ([0x5D], .closeArray) ∈ JsonToken.fixed := by decide
  apply scans_between opens closes (by decide) _ (by rw [tokens])
    fun newestFirst rest stops => scan?_items scans newestFirst stops
  rw [print, List.flatMap_append]
  rfl

theorem scans_object {members : List (String × Json)} (scans : ∀ member ∈ members, member.2.Scans) :
    (object members).Scans := by
  have opens : ([0x7B], .openObject) ∈ JsonToken.fixed := by decide
  have closes : ([0x7D], .closeObject) ∈ JsonToken.fixed := by decide
  apply scans_between opens closes (by decide) _ (by rw [tokens])
    fun newestFirst rest stops => scan?_members scans newestFirst stops
  rw [print, List.flatMap_append]
  rfl

end Json
end RetroMedia
