import Mathlib.Data.List.Basic
import RetroMedia.Text.HexDump

/-! Listings put together and read back. Whole rows in front of others are listed on lines of their
own, so a listing is the listings of its parts one below the other. The columns of a listing show
all of its bytes, whatever stands in its text. -/
namespace RetroMedia.HexDump

section Rows

variable {bytes front back : Bytes}

theorem rows_of_long (long : columns < bytes.length) :
    rows bytes = bytes.take columns :: rows (bytes.drop columns) := by
  rw [rows]
  split
  · rename_i none
    have := List.drop_eq_nil_iff.1 none
    omega
  · rename_i more
    rw [more]

/-- A row in front of others is cut off as it is. -/
theorem rows_cons (full : front.length = columns) (more : back ≠ []) :
    rows (front ++ back) = front :: rows back := by
  have some := List.length_pos_iff.2 more
  rw [rows_of_long (by rw [List.length_append]; omega), ← full, List.take_left, List.drop_left]

/-- Whole rows in front of others are cut as they are by themselves, and there is one for each
sixteen bytes. -/
theorem rows_append (whole : columns ∣ front.length) (some : front ≠ []) (more : back ≠ []) :
    rows (front ++ back) = rows front ++ rows back ∧
      columns * (rows front).length = front.length := by
  fun_induction rows front with
  | case1 front done =>
    have few := List.drop_eq_nil_iff.1 done
    have full : front.length = columns :=
      Nat.le_antisymm few (Nat.le_of_dvd (List.length_pos_iff.2 some) whole)
    exact ⟨rows_cons full more, by simp [full]⟩
  | case2 front byte rest cut ih =>
    have left := congrArg List.length cut
    rw [List.length_drop, List.length_cons] at left
    have full : (front.take columns).length = columns := by
      rw [List.length_take]
      omega
    have onward : columns ∣ (byte :: rest).length := by
      rw [← cut, List.length_drop]
      exact Nat.dvd_sub whole (Nat.dvd_refl columns)
    obtain ⟨split, count⟩ := ih onward nofun
    have parts : front ++ back = front.take columns ++ (byte :: rest ++ back) := by
      rw [← cut, ← List.append_assoc, List.take_append_drop]
    refine ⟨?_, ?_⟩
    · rw [parts, rows_cons full (by simp), split, List.cons_append]
    · rw [List.length_cons, Nat.mul_succ, count, List.length_cons]
      omega

theorem flatten_rows (bytes : Bytes) : (rows bytes).flatten = bytes := by
  fun_induction rows bytes with
  | case1 bytes => simp
  | case2 bytes byte rest cut ih => rw [List.flatten_cons, ih, ← cut, List.take_append_drop]

theorem length_le_of_mem_rows {line : Bytes} (member : line ∈ rows bytes) :
    line.length ≤ columns := by
  fun_induction rows bytes with
  | case1 bytes done =>
    rw [List.mem_singleton.1 member]
    exact List.drop_eq_nil_iff.1 done
  | case2 bytes byte rest cut ih =>
    rcases List.mem_cons.1 member with rfl | later
    · exact List.length_take_le ..
    · exact ih later

end Rows

/-! ## Parts of a listing -/

theorem lines_ne_nil (base : Nat) (bytes : Bytes) : lines base bytes ≠ [] := by
  unfold lines
  split
  · simp
  · rw [Ne, List.mapIdx_eq_nil_iff]
    unfold rows
    split <;> simp

theorem lines_append (base : Nat) {front back : Bytes} (some : front ≠ []) (more : back ≠ [])
    (whole : columns ∣ front.length) :
    lines base (front ++ back) = lines base front ++ lines (base + front.length) back := by
  obtain ⟨split, count⟩ := rows_append whole some more
  unfold lines
  rw [if_neg (by simp [some]), if_neg (by simp [some]), if_neg (by simp [more]), split,
    List.mapIdx_append]
  have offset (index : Nat) : base + columns * (index + (rows front).length)
      = base + front.length + columns * index := by
    rw [Nat.mul_add, count]
    omega
  simp only [offset]

/-- A listing is the listings of its parts one below the other. -/
theorem render_append (base : Nat) {front back : Bytes} (some : front ≠ []) (more : back ≠ [])
    (whole : columns ∣ front.length) :
    render base (front ++ back)
      = render base front ++ "\n" ++ render (base + front.length) back := by
  unfold render
  rw [lines_append base some more whole, List.map_append, String.intercalate_append_of_ne_nil]
  all_goals simp [lines_ne_nil]

/-! ## Reading a listing back -/

def digitValue (char : Char) : Nat :=
  ['0', '1', '2', '3', '4', '5', '6', '7', '8', '9', 'a', 'b', 'c', 'd', 'e', 'f'].idxOf char

/-- The bytes in the columns from the left up to the first blank one. -/
def columnBytes : List Char → Bytes
  | high :: low :: _ :: rest =>
    if high == ' ' then []
    else UInt8.ofNat (16 * digitValue high + digitValue low) :: columnBytes rest
  | _ => []

/-- The bytes that a line shows. Its columns stand between the offset and the text. -/
def lineBytes (line : List Char) : Bytes :=
  columnBytes (((line.dropWhile (· != ':')).drop 2).take (3 * columns))

/-- The bytes that a listing shows. -/
def readBack (listing : String) : Bytes := (listing.toList.splitOn '\n').flatMap lineBytes

section Reading

theorem digit_spec : ∀ value < 16, digitValue (digit value) = value ∧ digit value ≠ ' ' ∧
    digit value ≠ '\n' := by
  decide

theorem mem_toDigits {char : Char} {value : Nat} (member : char ∈ Nat.toDigits 16 value) :
    char ≠ ':' ∧ char ≠ '\n' := by
  have plain : ∀ value < 16, Nat.digitChar value ≠ ':' ∧ Nat.digitChar value ≠ '\n' := by decide
  induction value using Nat.strongRecOn with
  | ind value ih =>
    by_cases small : value < 16
    · rw [Nat.toDigits_of_lt_base small, List.mem_singleton] at member
      exact member ▸ plain value small
    · rw [Nat.toDigits_of_base_le (by decide) (Nat.le_of_not_lt small), List.mem_append,
        List.mem_singleton] at member
      rcases member with before | rfl
      · exact ih (value / 16) (by omega) before
      · exact plain _ (Nat.mod_lt _ (by decide))

theorem mem_offsetText {char : Char} {offset : Nat} (member : char ∈ offsetText offset) :
    char ≠ ':' ∧ char ≠ '\n' := by
  rcases List.mem_append.1 member with zero | digit
  · rw [List.eq_of_mem_replicate zero]
    decide
  · exact mem_toDigits digit

theorem colon_notMem (offset : Nat) : ':' ∉ offsetText offset :=
  fun member => (mem_offsetText member).1 rfl

theorem glyph_ne (byte : UInt8) : glyph byte ≠ '\n' := by
  have all : ∀ value < 256, glyph (UInt8.ofNat value) ≠ '\n' := by decide +kernel
  simpa using all byte.toNat byte.toNat_lt

theorem columnBytes_blank (count : Nat) : columnBytes (List.replicate (3 * count) ' ') = [] := by
  cases count <;> rfl

theorem columnBytes_byteText (byte : UInt8) (rest : List Char) :
    columnBytes (byteText byte ++ [' '] ++ rest) = byte :: columnBytes rest := by
  have small := byte.toNat_lt
  obtain ⟨high, filled, _⟩ := digit_spec (byte.toNat / 16) (by omega)
  obtain ⟨low, _⟩ := digit_spec (byte.toNat % 16) (by omega)
  have whole : 16 * (byte.toNat / 16) + byte.toNat % 16 = byte.toNat := by omega
  simp [byteText, columnBytes, filled, high, low, whole]

theorem columnBytes_columns (bytes : Bytes) (count : Nat) :
    columnBytes (bytes.flatMap (fun byte => byteText byte ++ [' '])
      ++ List.replicate (3 * count) ' ') = bytes := by
  induction bytes with
  | nil => exact columnBytes_blank count
  | cons byte rest ih =>
    rw [List.flatMap_cons, List.append_assoc, columnBytes_byteText, ih]

theorem lineBytes_append {offset : List Char} (plain : ':' ∉ offset) (text : List Char) :
    lineBytes (offset ++ ':' :: ' ' :: text) = columnBytes (text.take (3 * columns)) := by
  have ahead : ∀ char ∈ offset, (char != ':') = true := fun char member => by
    simpa using fun (same : char = ':') => plain (same ▸ member)
  unfold lineBytes
  rw [List.dropWhile_append_of_pos ahead, List.dropWhile_cons_of_neg (by decide),
    List.drop_succ_cons, List.drop_succ_cons, List.drop_zero]

theorem lineBytes_row (offset : Nat) {bytes : Bytes} (fits : bytes.length ≤ columns) :
    lineBytes (row offset bytes) = bytes := by
  let columnText := bytes.flatMap (fun byte => byteText byte ++ [' '])
    ++ List.replicate (3 * (columns - bytes.length)) ' '
  have width : columnText.length = 3 * columns := by
    simp only [columnText, byteText, List.length_append, List.length_flatMap,
      List.length_replicate, List.length_cons, List.length_nil, List.map_const',
      List.sum_replicate_nat]
    omega
  calc lineBytes (row offset bytes)
      = lineBytes (offsetText offset ++ ':' :: ' ' :: (columnText ++ bytes.map glyph)) := by
        simp [row, columnText]
    _ = columnBytes columnText := by
        rw [lineBytes_append (colon_notMem offset), List.take_left' width]
    _ = bytes := columnBytes_columns bytes _

/-- A row has no line break inside. -/
theorem newline_notMem_row (offset : Nat) (bytes : Bytes) : '\n' ∉ row offset bytes := by
  unfold row
  simp only [List.mem_append, List.mem_flatMap, List.mem_map, not_or]
  refine ⟨⟨⟨⟨fun member => (mem_offsetText member).2 rfl, by decide⟩, ?_⟩, ?_⟩, ?_⟩
  · rintro ⟨byte, -, member⟩
    have small := byte.toNat_lt
    obtain ⟨-, -, high⟩ := digit_spec (byte.toNat / 16) (by omega)
    obtain ⟨-, -, low⟩ := digit_spec (byte.toNat % 16) (by omega)
    simp [byteText, high.symm, low.symm] at member
  · intro member
    cases List.eq_of_mem_replicate member
  · rintro ⟨byte, -, same⟩
    exact glyph_ne byte same

theorem newline_notMem_lines {base : Nat} {bytes : Bytes} {line : List Char}
    (member : line ∈ lines base bytes) : '\n' ∉ line := by
  unfold lines at member
  split at member
  · rw [List.mem_singleton.1 member, List.mem_append, not_or]
    exact ⟨fun inside => (mem_offsetText inside).2 rfl, by decide⟩
  · obtain ⟨index, _, rfl⟩ := List.mem_mapIdx.1 member
    exact newline_notMem_row _ _

theorem flatMap_lineBytes (base : Nat) (bytes : Bytes) :
    (lines base bytes).flatMap lineBytes = bytes := by
  unfold lines
  split
  · rename_i none
    rw [List.isEmpty_iff.1 none, List.flatMap_singleton, lineBytes_append (colon_notMem base)]
    rfl
  · rw [List.flatMap_def]
    refine (congrArg List.flatten ?_).trans (flatten_rows bytes)
    refine List.ext_getElem (by simp) fun index _ inside => ?_
    rw [List.getElem_map, List.getElem_mapIdx]
    exact lineBytes_row _ (length_le_of_mem_rows (List.getElem_mem inside))

/-- The lines of a listing are what it is split into. -/
theorem splitOn_render (base : Nat) (bytes : Bytes) :
    (render base bytes).toList.splitOn '\n' = lines base bytes := by
  have same : (lines base bytes).map (String.toList ∘ String.ofList) = lines base bytes := by
    simp [Function.comp_def]
  unfold render
  rw [String.toList_intercalate, List.map_map, same]
  exact List.splitOn_intercalate '\n' (fun _ => newline_notMem_lines) (lines_ne_nil base bytes)

/-- The bytes of a listing are read back from the lines that are printed. -/
theorem readBack_render (base : Nat) (bytes : Bytes) :
    readBack (render base bytes ++ "\n") = bytes := by
  unfold readBack
  rw [String.toList_append]
  have last : "\n".toList = '\n' :: [] := rfl
  rw [last, List.splitOn_append_cons_self, splitOn_render, List.flatMap_append,
    flatMap_lineBytes]
  simp [lineBytes, columnBytes]

end Reading
end RetroMedia.HexDump
