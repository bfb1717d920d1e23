import RetroMedia.Proofs.Gcr.Layout

/-! Tracks have no beginning. Wherever the ring of a written track is cut, the search of its two
copies finds the sector: in what is left behind the cut, or in the whole track that follows it. -/
namespace RetroMedia.Gcr

/-- The same ring of bytes, cut at another place. -/
def Rotation (written bytes : Bytes) : Prop :=
  ∃ head tail, written = head ++ tail ∧ bytes = tail ++ head

/-- Behind a cut through a segment that leaves no mark of it stand bytes without a mark. -/
private theorem noSync_drop_segment (segment : Segment) {cut : Nat} (late : segment.ones < cut + 2) :
    NoSync (segment.bytes.drop cut) := by
  rw [Segment.bytes, List.drop_append, List.drop_replicate, List.length_replicate]
  by_cases inside : segment.ones ≤ cut
  · rw [Nat.sub_eq_zero_of_le inside]
    exact segment.noSync_body.suffix (List.drop_suffix _ _)
  · have one : segment.ones - cut = 1 := by omega
    obtain ⟨byte, rest, body, other⟩ := segment.body_eq_cons
    rw [one, Nat.sub_eq_zero_of_le (by omega), List.drop_zero]
    refine NoSync.append (.singleton 0xFF) segment.noSync_body fun first here => ?_
    rw [body] at here
    cases here
    exact other

/-- What is left of a track behind a cut: bytes without a mark, and then segments, the first of which
may have lost some of its ones. Every segment that begins behind the cut is among them. -/
theorem drop_render (segments : List Segment) (cut : Nat) :
    ∃ before left, (render segments).drop cut = before ++ render left ∧ NoSync before ∧
      left.map Segment.plain <:+ segments.map Segment.plain ∧
      ∀ skipped segment rest, segments = skipped ++ segment :: rest →
        cut ≤ (render skipped).length → ∃ other ∈ left, other.plain = segment.plain := by
  induction segments generalizing cut with
  | nil => exact ⟨[], [], by simp, .nil, List.suffix_rfl, fun skipped _ _ split => by simp at split⟩
  | cons segment segments ih =>
    by_cases beyond : segment.bytes.length ≤ cut
    · obtain ⟨before, left, dropped, quiet, suffix, later⟩ := ih (cut - segment.bytes.length)
      refine ⟨before, left, ?_, quiet, suffix.trans (List.suffix_cons _ _), ?_⟩
      · rw [render_cons, List.drop_append, List.drop_eq_nil_of_le beyond, List.nil_append, dropped]
      · intro skipped other rest split behind
        cases skipped with
        | nil =>
          have some : 0 < segment.bytes.length := by
            have := segment.long
            rw [segment.length_bytes]
            omega
          simp at behind
          omega
        | cons first skipped =>
          cases split
          rw [render_cons, List.length_append] at behind
          exact later skipped other rest rfl (by omega)
    · have dropped : (render (segment :: segments)).drop cut
          = segment.bytes.drop cut ++ render segments := by
        rw [render_cons, List.drop_append, Nat.sub_eq_zero_of_le (by omega), List.drop_zero]
      by_cases early : cut + 2 ≤ segment.ones
      · let shorter : Segment := { segment with ones := segment.ones - cut, long := by omega }
        refine ⟨[], shorter :: segments, ?_, .nil, List.suffix_rfl, ?_⟩
        · rw [dropped, List.nil_append, render_cons]
          congr 1
          have none : cut - segment.ones = 0 := by omega
          rw [Segment.bytes, List.drop_append, List.drop_replicate, List.length_replicate, none]
          rfl
        · intro skipped other rest split _
          cases skipped with
          | nil =>
            cases split
            exact ⟨shorter, List.mem_cons_self, rfl⟩
          | cons first skipped =>
            cases split
            exact ⟨other, by simp, rfl⟩
      · refine ⟨segment.bytes.drop cut, segments, dropped,
          noSync_drop_segment segment (by omega), List.suffix_cons _ _, ?_⟩
        intro skipped other rest split behind
        cases skipped with
        | nil =>
          have := segment.long
          simp at behind
          omega
        | cons first skipped =>
          cases split
          exact ⟨other, by simp, rfl⟩

/-- Every header of the sector is followed by a block of data of which `good` holds. -/
def Answers (number sector : UInt8) (good : Bytes → Prop) (segments : List Segment) : Prop :=
  ∀ skipped target rest, segments = skipped ++ target :: rest →
    target.names number sector = true → target.plain.length = 8 ∧
      ∃ next post data, rest = next :: post ∧ next.plain = dataBlock data ∧
        data.length = sectorSize ∧ good data

theorem names_of_plain {first second : Segment} (same : first.plain = second.plain)
    (number sector : UInt8) : first.names number sector = second.names number sector := by
  rw [Segment.names, Segment.names, same]

theorem Answers.of_suffix {number sector : UInt8} {good : Bytes → Prop}
    {segments left : List Segment} (answers : Answers number sector good segments)
    (suffix : left.map Segment.plain <:+ segments.map Segment.plain) :
    Answers number sector good left := by
  obtain ⟨front, whole⟩ := suffix
  intro skipped target rest split named
  rw [split, List.map_append, List.map_cons, ← List.append_assoc] at whole
  obtain ⟨skipped', after, same, _, behind⟩ := List.map_eq_append_iff.1 whole.symm
  obtain ⟨target', rest', same', plain, rest_plain⟩ := List.map_eq_cons_iff.1 behind
  have named' : target'.names number sector = true := names_of_plain plain _ _ ▸ named
  obtain ⟨short, next, post, data, here, holds, size, fits⟩ :=
    answers skipped' target' rest' (same'.symm ▸ same) named'
  rw [here, List.map_cons] at rest_plain
  obtain ⟨next', post', here', plain', _⟩ := List.map_eq_cons_iff.1 rest_plain.symm
  exact ⟨plain ▸ short, next', post', data, here', plain'.trans holds, size, fits⟩

namespace Track

/-- The first header of the sector in what is left behind a cut and the whole track after it: the
data follow it, and it begins within one revolution. -/
private theorem first_placed {segments left skipped rest : List Segment} {target : Segment}
    {before head : Bytes} {number sector : UInt8} {good : Bytes → Prop}
    (whole : render segments = head ++ (before ++ render left))
    (answers : Answers number sector good segments)
    (suffix : left.map Segment.plain <:+ segments.map Segment.plain)
    (later : ∀ skipped segment rest, segments = skipped ++ segment :: rest →
      head.length ≤ (render skipped).length → ∃ other ∈ left, other.plain = segment.plain)
    (split : left ++ segments = skipped ++ target :: rest)
    (named : target.names number sector = true)
    (others : ∀ segment ∈ skipped, segment.names number sector = false) :
    before.length + (render skipped).length ≤ (render segments).length ∧
      target.plain.length = 8 ∧ ∃ next post data, rest = next :: post ∧
        next.plain = dataBlock data ∧ data.length = sectorSize ∧ good data := by
  have size := congrArg List.length whole
  simp only [List.length_append] at size
  have behind (between : List Segment) (passed : skipped = left ++ between)
      (inside : segments = between ++ target :: rest) :
      before.length + (render skipped).length ≤ (render segments).length := by
    by_cases early : head.length ≤ (render between).length
    · obtain ⟨other, member, same⟩ := later between target rest inside early
      have never := others other (passed ▸ List.mem_append_left between member)
      rw [names_of_plain same, named] at never
      cases never
    · rw [passed, render_append, List.length_append]
      omega
  rcases List.append_eq_append_iff.1 split with ⟨between, passed, inside⟩ | ⟨between, held, inside⟩
  · exact ⟨behind between passed inside, answers between target rest inside named⟩
  · cases between with
    | nil =>
      have inside' : segments = [] ++ target :: rest := inside.symm
      have passed : skipped = left ++ [] := by simpa using held.symm
      exact ⟨behind [] passed inside', answers [] target rest inside' named⟩
    | cons first between =>
      cases inside
      obtain ⟨short, next, post, data, here, law⟩ :=
        answers.of_suffix suffix skipped target between held named
      refine ⟨?_, short, next, post ++ segments, data, by rw [here]; rfl, law⟩
      rw [held, render_append, List.length_append] at size
      omega

/-- On any rotation of a written track, a sector that is written there is found with its data. -/
theorem search_rotation {segments : List Segment} {bytes : Bytes} {number sector : UInt8}
    {good : Bytes → Prop} (rotation : Rotation (render segments) bytes)
    (answers : Answers number sector good segments)
    (present : ∃ segment ∈ segments, segment.names number sector = true) :
    ∃ found, search bytes.length number sector 0 (bytes ++ bytes) false = .ok found ∧
      good found.data ∧ found.isClean = true := by
  obtain ⟨head, tail, whole, rfl⟩ := rotation
  obtain ⟨before, left, cut, quiet, suffix, later⟩ := drop_render segments head.length
  rw [whole, List.drop_left] at cut
  have around : tail ++ head ++ (tail ++ head)
      = before ++ (render (left ++ segments) ++ head) := by
    rw [render_append, whole, cut]
    simp only [List.append_assoc]
  have both : ∃ segment ∈ left ++ segments, segment.names number sector = true := by
    obtain ⟨segment, member, named⟩ := present
    exact ⟨segment, List.mem_append_right left member, named⟩
  obtain ⟨target, first⟩ := Option.isSome_iff_exists.1 (List.find?_isSome.2 both)
  obtain ⟨named, skipped, rest, split, others⟩ := List.find?_eq_some_iff_append.1 first
  have others' : ∀ segment ∈ skipped, segment.names number sector = false := by
    intro segment member
    simpa using others segment member
  obtain ⟨reach, short, next, post, data, here, holds, size, fits⟩ :=
    first_placed (cut ▸ whole) answers suffix later split named others'
  have length : (render segments).length = (tail ++ head).length := by
    rw [whole, List.length_append, List.length_append, Nat.add_comm]
  have some : 0 < (tail ++ head).length := by
    obtain ⟨segment, member, _⟩ := present
    obtain ⟨early, late, split'⟩ := List.append_of_mem member
    have := segment.long
    rw [← length, split', render_append, render_cons, List.length_append, List.length_append,
      segment.length_bytes]
    omega
  obtain ⟨found, hit, same, clean⟩ := search_of_first others' named short holds size quiet some
    (by omega) (render post ++ head) false
  refine ⟨found, ?_, same ▸ fits, clean⟩
  rw [around, split, here, render_append, render_cons, render_cons]
  simpa only [List.append_assoc] using hit

/-- On any rotation of a written track, a sector that is not written there has no location. -/
theorem search_rotation_of_absent {segments : List Segment} {bytes : Bytes} {number sector : UInt8}
    (rotation : Rotation (render segments) bytes)
    (absent : ∀ segment ∈ segments, segment.names number sector = false) :
    search bytes.length number sector 0 (bytes ++ bytes) false = .error .invalidLocation := by
  obtain ⟨head, tail, whole, rfl⟩ := rotation
  obtain ⟨before, left, cut, quiet, suffix, _⟩ := drop_render segments head.length
  rw [whole, List.drop_left] at cut
  have absent' : ∀ segment ∈ left ++ (segments ++ segments),
      segment.names number sector = false := by
    intro segment member
    rw [List.mem_append, List.mem_append, or_self] at member
    rcases member with behind | again
    · obtain ⟨written, member, same⟩ :=
        List.mem_map.1 (suffix.subset (List.mem_map_of_mem behind))
      rw [← names_of_plain same]
      exact absent written member
    · exact absent segment again
  have around : before ++ render (left ++ (segments ++ segments))
      = tail ++ head ++ (tail ++ head) ++ tail := by
    rw [render_append, render_append, whole, cut]
    simp only [List.append_assoc]
  exact search_of_absent absent' quiet around false

end Track

/-! ## Written sectors

Sectors as they are written on a track: each of them a header and its data, with ones before and a gap
behind either block. -/

/-- What is written of one sector, besides the number of its track. -/
structure WrittenSector where
  sector : UInt8
  id1 : UInt8
  id0 : UInt8
  data : Bytes
  headerOnes : Nat
  headerGap : Bytes
  dataOnes : Nat
  dataGap : Bytes
  size : data.length = sectorSize
  headerLong : 2 ≤ headerOnes
  headerQuiet : ∀ byte ∈ headerGap, byte ≠ 0xFF
  dataLong : 2 ≤ dataOnes
  dataQuiet : ∀ byte ∈ dataGap, byte ≠ 0xFF

namespace WrittenSector

def header (written : WrittenSector) (number : UInt8) : Segment where
  ones := written.headerOnes
  plain := headerBlock number written.sector written.id1 written.id0
  gap := written.headerGap
  long := written.headerLong
  size := Nat.le_refl 8
  quiet := written.headerQuiet

def block (written : WrittenSector) : Segment where
  ones := written.dataOnes
  plain := dataBlock written.data
  gap := written.dataGap
  long := written.dataLong
  size := by simp [dataBlock, written.size, sectorSize]
  quiet := written.dataQuiet

/-- The segments of some sectors in the order in which they are written. -/
def segments (number : UInt8) (sectors : List WrittenSector) : List Segment :=
  sectors.flatMap fun written => [written.header number, written.block]

theorem names_header (written : WrittenSector) (number other sector : UInt8) :
    (written.header number).names other sector = (number == other && written.sector == sector) := by
  simp [Segment.names, header, headerBlock, Bytes.byte]

theorem names_block (written : WrittenSector) (number sector : UInt8) :
    written.block.names number sector = false := by
  simp [Segment.names, block, dataBlock, Bytes.byte, dataMark, headerMark]

/-- Each header of a sector is followed by data that were written for it. -/
theorem answers_segments (number sector : UInt8) (sectors : List WrittenSector) :
    Answers number sector (fun data => ∃ written ∈ sectors, written.sector = sector ∧
      written.data = data) (segments number sectors) := by
  induction sectors with
  | nil =>
    intro skipped target rest split
    simp [segments] at split
  | cons written sectors ih =>
    intro skipped target rest split named
    rw [segments, List.flatMap_cons] at split
    match skipped, split with
    | [], split =>
      cases split
      rw [names_header] at named
      have same : written.sector = sector := by simpa using named
      exact ⟨rfl, written.block, _, written.data, rfl, rfl, written.size, written,
        List.mem_cons_self, same, rfl⟩
    | [_], split =>
      cases split
      rw [names_block] at named
      cases named
    | _ :: _ :: skipped, split =>
      have inside : segments number sectors = skipped ++ target :: rest :=
        (List.cons.inj (List.cons.inj split).2).2
      obtain ⟨short, next, post, data, here, holds, size, other, member, law⟩ :=
        ih skipped target rest inside named
      exact ⟨short, next, post, data, here, holds, size, other, List.mem_cons_of_mem _ member, law⟩

/-- A sector that is written on a track is found on any rotation of it. -/
theorem search_written {number : UInt8} {sectors : List WrittenSector} {bytes : Bytes}
    (rotation : Rotation (render (segments number sectors)) bytes) {written : WrittenSector}
    (member : written ∈ sectors) :
    ∃ found, Track.search bytes.length number written.sector 0 (bytes ++ bytes) false = .ok found ∧
      (∃ same ∈ sectors, same.sector = written.sector ∧ same.data = found.data) ∧
        found.isClean = true := by
  refine Track.search_rotation rotation (answers_segments number written.sector sectors) ?_
  refine ⟨written.header number, ?_, by simp [names_header]⟩
  exact List.mem_flatMap.2 ⟨written, member, List.mem_cons_self⟩

end WrittenSector

end RetroMedia.Gcr
