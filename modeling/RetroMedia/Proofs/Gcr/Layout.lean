import RetroMedia.Proofs.Gcr.Search
import RetroMedia.Proofs.Gcr.Sync

/-! How a track is written: segment after segment, each of them a run of ones, a coded block and a
gap. The search of such a track passes over the segments that do not name the wanted sector, and
finds the data that follow the one that does. -/
namespace RetroMedia.Gcr

/-- What follows a header is not looked at. -/
theorem SectorHeader.decode?_append {coded : Bytes} {header : SectorHeader}
    (read : SectorHeader.decode? coded = some header) (more : Bytes) :
    SectorHeader.decode? (coded ++ more) = some header := by
  simp only [SectorHeader.decode?, Option.bind_eq_bind, Option.bind_eq_some_iff] at read ⊢
  obtain ⟨decoded, groups, same⟩ := read
  exact ⟨decoded, decodeGroups_append groups more, same⟩

/-- A run of ones, a block that is coded behind it, and a gap. -/
structure Segment where
  ones : Nat
  plain : Bytes
  gap : Bytes
  long : 2 ≤ ones
  size : 8 ≤ plain.length
  quiet : ∀ byte ∈ gap, byte ≠ 0xFF

namespace Segment

/-- What a scan finds behind the mark. -/
def body (segment : Segment) : Bytes := encodeGroups segment.plain ++ segment.gap

def bytes (segment : Segment) : Bytes := List.replicate segment.ones 0xFF ++ segment.body

/-- Is the block the header of the sector? -/
def names (segment : Segment) (number sector : UInt8) : Bool :=
  segment.plain.byte 0 == headerMark && segment.plain.byte 3 == number
    && segment.plain.byte 2 == sector

theorem noSync_body (segment : Segment) : NoSync segment.body := by
  refine (noSync_encodeGroups _).append (noSync_of_no_ones segment.quiet) fun byte first => ?_
  exact segment.quiet byte (List.mem_of_mem_head? first)

theorem body_eq_cons (segment : Segment) :
    ∃ byte rest, segment.body = byte :: rest ∧ byte ≠ 0xFF := by
  obtain ⟨ones, plain, gap, long, size, quiet⟩ := segment
  have head := head_encodeGroups_ne plain
  match plain, size with
  | a :: b :: c :: d :: tail, size =>
    rw [encodeGroups_cons, encodeGroup_eq] at head
    refine ⟨_, _, by rw [body, encodeGroups_cons, encodeGroup_eq]; rfl, head _ rfl⟩
  | [_], size | [_, _], size | [_, _, _], size => simp at size

theorem length_bytes (segment : Segment) :
    segment.bytes.length = segment.ones + segment.body.length := by
  rw [bytes, List.length_append, List.length_replicate]

/-- A scan passes over bytes without a mark and stops at the block of the next segment. -/
theorem nextSync_eq (segment : Segment) {before : Bytes} (quiet : NoSync before) (tail : Bytes)
    (position : Nat) :
    nextSync (before ++ (segment.bytes ++ tail)) position
      = some (position + before.length + segment.ones, segment.body ++ tail) := by
  obtain ⟨byte, rest, body, other⟩ := segment.body_eq_cons
  have found := @nextSync_of_run before segment.ones position byte (rest ++ tail) quiet segment.long
    other
  rw [bytes, body]
  simpa using found

/-- What the block says if it is taken for a header. -/
def header (segment : Segment) : SectorHeader where
  mark := segment.plain.byte 0
  checksum := segment.plain.byte 1
  sector := segment.plain.byte 2
  track := segment.plain.byte 3
  id1 := segment.plain.byte 4
  id0 := segment.plain.byte 5
  clean := true

theorem names_header (segment : Segment) (number sector : UInt8) :
    segment.header.names number sector = segment.names number sector := rfl

theorem decode?_plain (segment : Segment) (tail : Bytes) :
    SectorHeader.decode? (encodeGroups segment.plain ++ tail) = some segment.header := by
  have size := segment.size
  have read := @decodeGroups_encodeGroups 2 segment.plain size tail
  have field (index : Nat) (small : index < 8) :
      Bytes.byte (segment.plain.take (4 * 2)) index = segment.plain.byte index := by
    simp [Bytes.byte, List.getD_eq_getElem?_getD, small]
  have length : (segment.plain.take (4 * 2)).length = 4 * 2 := List.length_take_of_le size
  rw [SectorHeader.decode?, read]
  simp [header, field, size]

theorem decode?_body (segment : Segment) (tail : Bytes) :
    SectorHeader.decode? (segment.body ++ tail) = some segment.header := by
  rw [body, List.append_assoc, segment.decode?_plain]

/-- A block that is cut off behind its header still says what it is. -/
theorem names_of_decode? {segment : Segment} {coded more tail : Bytes} {header : SectorHeader}
    (read : SectorHeader.decode? coded = some header) (same : coded ++ more = segment.body ++ tail)
    (number sector : UInt8) : header.names number sector = segment.names number sector := by
  have longer := SectorHeader.decode?_append read more
  rw [same, segment.decode?_body] at longer
  cases longer
  exact segment.names_header number sector

/-- The data in a block that was written as such. -/
theorem decode?_dataBlock (segment : Segment) {data : Bytes} (holds : segment.plain = dataBlock data)
    (size : data.length = sectorSize) (tail : Bytes) :
    ∃ found, SectorData.decode? (segment.body ++ tail) = some found ∧ found.data = data ∧
      found.isClean = true := by
  have length : (dataBlock data).length = 4 * dataGroups := by
    simp [dataBlock, size, sectorSize, dataGroups]
  have read := @decodeGroups_encodeGroups dataGroups (dataBlock data) (by omega)
    (segment.gap ++ tail)
  rw [← length, List.take_length] at read
  have whole : segment.body ++ tail
      = encodeGroups (dataBlock data) ++ (segment.gap ++ tail) := by
    rw [body, holds, List.append_assoc]
  rw [whole]
  unfold SectorData.decode?
  split
  · rename_i nothing
    rw [read] at nothing
    cases nothing
  · rename_i decoded same
    rw [read] at same
    cases same
    have held : Bytes.field (dataBlock data) 1 sectorSize = data := by
      simp [dataBlock, Bytes.field, ← size]
    have checksum : Bytes.byte (dataBlock data) (1 + sectorSize) = data.parity := by
      simp [dataBlock, Bytes.byte, Nat.add_comm 1, ← size]
    refine ⟨_, if_neg (by simp [dataBlock, Bytes.byte]), held, ?_⟩
    simp only [SectorData.isClean, held, checksum, length, beq_self_eq_true, Bool.and_true]
    decide

end Segment

/-- Segments in a row. -/
def render (segments : List Segment) : Bytes := segments.flatMap Segment.bytes

@[simp] theorem render_nil : render [] = [] := rfl

@[simp] theorem render_cons (segment : Segment) (segments : List Segment) :
    render (segment :: segments) = segment.bytes ++ render segments := rfl

@[simp] theorem render_append (first second : List Segment) :
    render (first ++ second) = render first ++ render second := List.flatMap_append

namespace Track

/-- A block that is the header of something else says nothing of the sector. -/
theorem sectorAt_of_other {coded : Bytes} {header : SectorHeader} {number sector : UInt8}
    (read : SectorHeader.decode? coded = some header) (other : header.names number sector = false)
    (position : Nat) : sectorAt number sector position coded = none := by
  rw [sectorAt, read]
  simp [other]

/-- A header of the sector is followed by its data, behind the gap and the next mark. -/
theorem sectorAt_of_header {coded gap data : Bytes} {header : SectorHeader} {next : Segment}
    {number sector : UInt8} (read : SectorHeader.decode? coded = some header)
    (named : header.names number sector = true) (short : coded.length = headerSize)
    (quiet : ∀ byte ∈ gap, byte ≠ 0xFF) (holds : next.plain = dataBlock data)
    (size : data.length = sectorSize) (tail : Bytes) :
    ∃ found, (∀ position, sectorAt number sector position (coded ++ (gap ++ (next.bytes ++ tail)))
        = some (some found)) ∧ found.data = data ∧ found.isClean = true := by
  obtain ⟨found, block, same⟩ := next.decode?_dataBlock holds size tail
  refine ⟨found, fun position => ?_, same⟩
  rw [sectorAt, SectorHeader.decode?_append read]
  simp only [named, if_true]
  rw [← short, List.drop_left, next.nextSync_eq (noSync_of_no_ones quiet)]
  simp [block]

/-- A step of the search that comes upon a block of another kind or another sector. -/
theorem search_of_other {length : Nat} {number sector : UInt8} {segment : Segment} {before : Bytes}
    {position : Nat} (quiet : NoSync before) (inside : position < length)
    (other : segment.names number sector = false) (tail : Bytes) (headerSeen : Bool) :
    search length number sector position (before ++ (segment.bytes ++ tail)) headerSeen
      = search length number sector (position + before.length + segment.ones)
        (segment.body ++ tail) headerSeen := by
  exact search_of_unnamed inside (segment.nextSync_eq quiet tail position)
    (sectorAt_of_other (segment.decode?_body tail) other _)

/-- A step of the search that comes upon the header of the sector, with its data behind it. -/
theorem search_of_named {length : Nat} {number sector : UInt8} {segment next : Segment}
    {before data : Bytes} {position : Nat} (quiet : NoSync before) (inside : position < length)
    (named : segment.names number sector = true) (short : segment.plain.length = 8)
    (holds : next.plain = dataBlock data) (size : data.length = sectorSize) (tail : Bytes)
    (headerSeen : Bool) :
    ∃ found, search length number sector position
        (before ++ (segment.bytes ++ (next.bytes ++ tail))) headerSeen = .ok found ∧
      found.data = data ∧ found.isClean = true := by
  have coded : (encodeGroups segment.plain).length = headerSize := @length_encodeGroups _ 2 short
  have read := segment.decode?_plain []
  rw [List.append_nil] at read
  obtain ⟨found, here, same⟩ := sectorAt_of_header read named coded segment.quiet holds size tail
  refine ⟨found, ?_, same⟩
  rw [search_of_found inside (segment.nextSync_eq quiet (next.bytes ++ tail) position), Segment.body,
    List.append_assoc, here]

/-- The first header of the sector is found, if it stands within one revolution. -/
theorem search_of_first {length : Nat} {number sector : UInt8} {skipped : List Segment}
    {target next : Segment} {data : Bytes}
    (others : ∀ segment ∈ skipped, segment.names number sector = false)
    (named : target.names number sector = true) (short : target.plain.length = 8)
    (holds : next.plain = dataBlock data) (size : data.length = sectorSize)
    {before : Bytes} {position : Nat} (quiet : NoSync before) (inside : position < length)
    (reach : position + before.length + (render skipped).length ≤ length) (tail : Bytes)
    (headerSeen : Bool) :
    ∃ found, search length number sector position
        (before ++ (render skipped ++ (target.bytes ++ (next.bytes ++ tail)))) headerSeen
          = .ok found ∧
      found.data = data ∧ found.isClean = true := by
  induction skipped generalizing before position with
  | nil => exact search_of_named quiet inside named short holds size tail headerSeen
  | cons segment skipped ih =>
    obtain ⟨byte, rest, body, _⟩ := segment.body_eq_cons
    have some : 0 < segment.body.length := by simp [body]
    rw [render_cons, List.length_append, segment.length_bytes] at reach
    rw [render_cons, List.append_assoc,
      search_of_other quiet inside (others segment List.mem_cons_self)]
    exact ih (fun other member => others other (List.mem_cons_of_mem _ member)) segment.noSync_body
      (by omega) (by omega)

/-- Where no header names the sector, the search goes from mark to mark until the bytes or the
revolution are over, wherever the bytes are cut off. -/
theorem search_of_absent {length : Nat} {number sector : UInt8} {segments : List Segment}
    (others : ∀ segment ∈ segments, segment.names number sector = false)
    {before bytes more : Bytes} {position : Nat} (quiet : NoSync before)
    (written : before ++ render segments = bytes ++ more) (headerSeen : Bool) :
    search length number sector position bytes headerSeen = .error (missing headerSeen) := by
  induction segments generalizing before bytes position with
  | nil =>
    have still : NoSync (bytes ++ more) := by
      rw [← written, render_nil, List.append_nil]
      exact quiet
    have short := still.prefix (List.prefix_append bytes more)
    by_cases inside : position < length
    · exact search_of_lost inside (nextSync_of_noSync short position)
    · exact search_of_past (Nat.not_lt.1 inside)
  | cons segment segments ih =>
    by_cases inside : position < length
    case neg => exact search_of_past (Nat.not_lt.1 inside)
    cases found : nextSync bytes position with
    | none => exact search_of_lost inside found
    | some place =>
      obtain ⟨after, rest⟩ := place
      have stop := segment.nextSync_eq quiet (render segments) position
      rw [← render_cons, written, nextSync_append found more] at stop
      have behind : rest ++ more = segment.body ++ render segments := by
        simpa using congrArg (Option.map Prod.snd) stop
      have none : sectorAt number sector after rest = none := by
        unfold sectorAt
        split
        · rename_i header read
          have name := Segment.names_of_decode? read behind number sector
          rw [others segment List.mem_cons_self] at name
          simp [name]
        · rfl
      rw [search_of_unnamed inside found none]
      exact ih (fun other member => others other (List.mem_cons_of_mem _ member))
        segment.noSync_body behind.symm

end Track
end RetroMedia.Gcr
