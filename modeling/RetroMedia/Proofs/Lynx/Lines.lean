import RetroMedia.Lynx.Archive
import RetroMedia.Proofs.Progress.Lockstep
import RetroMedia.Proofs.Stream.Congruence
import RetroMedia.Proofs.Text.Decimal
import RetroMedia.Proofs.Text.Utf8

/-! Lines as they are written and read. Plain text goes into a line as it is and comes out of it as it
was, and so does a number in decimal. What reads one piece of an archive does not depend on what
follows the piece, so readers of pieces make up readers of rows of pieces. -/
namespace RetroMedia

namespace Lynx

/-- Text that can stand in a line: of ASCII characters, and without white space at its ends. -/
structure Plain (text : Bytes) : Prop where
  ascii : ∀ byte ∈ text, byte < 0x80
  oneLine : lineEnd ∉ text
  first : ∀ byte, text.head? = some byte → Text.isBlank (Char.ofUInt8 byte) = false
  last : ∀ byte, text.getLast? = some byte → Text.isBlank (Char.ofUInt8 byte) = false

theorem ascii_of_all {text : Bytes} (all : text.all (decide <| · < 0x80) = true) :
    ∀ byte ∈ text, byte < 0x80 := fun byte here =>
  of_decide_eq_true (List.all_eq_true.1 all byte here)

theorem Plain.trim {text : Bytes} (plain : Plain text) :
    Text.trim (Utf8.decodeLossy text) = String.ofList (text.map Char.ofUInt8) := by
  rw [Utf8.decodeLossy_of_ascii plain.ascii]
  apply Text.trim_eq_self
  · intro char here
    rw [List.head?_map, Option.map_eq_some_iff] at here
    obtain ⟨byte, found, rfl⟩ := here
    exact plain.first byte found
  · intro char here
    rw [List.getLast?_map, Option.map_eq_some_iff] at here
    obtain ⟨byte, found, rfl⟩ := here
    exact plain.last byte found

theorem plain_of_digits {text : Bytes}
    (digits : ∀ byte ∈ text, ∃ char : Char, char.isDigit = true ∧ byte = char.toUInt8) :
    Plain text := by
  have clear : ∀ byte ∈ text, Text.isBlank (Char.ofUInt8 byte) = false := by
    intro byte member
    obtain ⟨char, digit, rfl⟩ := digits byte member
    rw [Text.ofUInt8_toUInt8_of_isDigit digit]
    exact Text.isBlank_of_isDigit digit
  refine ⟨?_, ?_, fun byte here => clear byte (List.mem_of_mem_head? here),
    fun byte here => clear byte (List.mem_of_getLast? here)⟩
  · intro byte member
    obtain ⟨char, digit, rfl⟩ := digits byte member
    have range := Char.isDigit_iff_toNat.1 digit
    rw [UInt8.lt_iff_toNat_lt, Text.toNat_toUInt8_of_isDigit digit]
    exact Nat.lt_of_le_of_lt range.2 (by decide)
  · intro member
    have never := clear lineEnd member
    cases never

theorem plain_decimal (value : Nat) : Plain (Text.decimal value) := by
  apply plain_of_digits
  intro byte member
  obtain ⟨char, found, rfl⟩ := List.mem_map.1 member
  exact ⟨char, Nat.isDigit_of_mem_toDigits (by decide) (by decide) found, rfl⟩

end Lynx

namespace Cursor

/-- The bytes from the position on. -/
def ahead (cursor : Cursor) : Bytes := cursor.container.toBytes.drop cursor.position

def skip (cursor : Cursor) (count : Nat) : Cursor :=
  { cursor with position := cursor.position + count }

theorem ahead_skip {cursor : Cursor} {piece rest : Bytes} (here : cursor.ahead = piece ++ rest) :
    (cursor.skip piece.length).ahead = rest := by
  rw [ahead, skip, ← List.drop_drop]
  exact (congrArg (List.drop piece.length) here).trans List.drop_left

theorem skip_skip (cursor : Cursor) (first second : Nat) :
    (cursor.skip first).skip second = cursor.skip (first + second) := by
  simp [skip, Nat.add_assoc]

theorem read_one {cursor : Cursor} {byte : UInt8} {rest : Bytes} (here : cursor.ahead = byte :: rest) :
    ByteSource.read cursor 1 = (.ok [byte], cursor.skip 1) := by
  have found : cursor.container.readAt cursor.position 1 = [byte] := by
    rw [Container.readAt_eq]
    exact congrArg (List.take 1) here
  simp [ByteSource.read, Cursor.read, found, skip]

/-- A line is read up to its end, whatever follows. -/
theorem scanUntil_line {delimiter : UInt8} {text rest : Bytes} (oneLine : delimiter ∉ text)
    {cursor : Cursor} (here : cursor.ahead = text ++ delimiter :: rest) (newestFirst : Bytes) :
    ByteSource.scanUntil delimiter cursor newestFirst
      = (.ok (newestFirst.reverse ++ text), cursor.skip (text.length + 1)) := by
  induction text generalizing cursor newestFirst with
  | nil =>
    rw [ByteSource.scanUntil_eq, read_one here]
    simp
  | cons byte text ih =>
    obtain ⟨other, later⟩ := not_or.1 fun either => oneLine (List.mem_cons.2 either)
    have onward : (cursor.skip 1).ahead = text ++ delimiter :: rest :=
      @ahead_skip cursor [byte] _ here
    have different : ¬ (byte == delimiter) = true := by simpa using Ne.symm other
    rw [ByteSource.scanUntil_eq, read_one here]
    dsimp only
    rw [if_neg different, ih later onward, skip_skip]
    simp [Nat.add_comm]

end Cursor

namespace Lynx

variable {α β : Type}

/-- Wherever the piece stands, the action reads just the piece and comes to the value. -/
def Reads (action : Lines α) (piece : Bytes) (value : α) : Prop :=
  ∀ cursor rest, cursor.ahead = piece ++ rest → action cursor = .ok value (cursor.skip piece.length)

theorem reads_pure (value : α) : Reads (pure value) [] value := by
  intro cursor rest here
  rfl

theorem Reads.run_bind {action : Lines α} {next : α → Lines β} {piece rest : Bytes} {value : α}
    (reads : Reads action piece value) {cursor : Cursor} (here : cursor.ahead = piece ++ rest) :
    (action >>= next) cursor = next value (cursor.skip piece.length) := by
  exact run_of_ok (reads cursor rest here) next

theorem Reads.bind {action : Lines α} {next : α → Lines β} {piece piece' : Bytes} {value : α}
    {value' : β} (first : Reads action piece value) (second : Reads (next value) piece' value') :
    Reads (action >>= next) (piece ++ piece') value' := by
  intro cursor rest here
  rw [List.append_assoc] at here
  rw [first.run_bind here, second _ rest (Cursor.ahead_skip here), Cursor.skip_skip,
    List.length_append]

/-- What is done with a value once it was read. -/
theorem Reads.bind_pure {action : Lines α} {next : α → Lines β} {piece : Bytes} {value : α}
    {value' : β} (first : Reads action piece value) (second : Reads (next value) [] value') :
    Reads (action >>= next) piece value' := by
  have whole := first.bind second
  rwa [List.append_nil] at whole

/-- A text with the end of its line. -/
def asLine (text : Bytes) : Bytes := text ++ [lineEnd]

theorem reads_line {text : Bytes} (oneLine : lineEnd ∉ text) : Reads line (asLine text) text := by
  intro cursor rest here
  rw [asLine, List.append_assoc] at here
  rw [line, ByteSource.readUntil, Cursor.scanUntil_line oneLine here []]
  simp [asLine]

theorem reads_textLine {text : Bytes} (oneLine : lineEnd ∉ text) :
    Reads textLine (asLine text) (Utf8.decodeLossy text) :=
  (reads_line oneLine).bind_pure (reads_pure _)

theorem reads_numberLine (malformed : MediaError) {value : Nat} (fits : value < UInt64.size) :
    Reads (numberLine malformed) (asLine (Text.decimal value)) value := by
  have plain := plain_decimal value
  apply (reads_textLine plain.oneLine).bind_pure
  rw [plain.trim, Text.digits_of_decimal, Text.parseWord?_toDigits fits]
  exact reads_pure value

end Lynx
end RetroMedia
