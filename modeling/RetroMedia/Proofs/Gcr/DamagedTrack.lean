import RetroMedia.Proofs.Gcr.DamagedHeader

/-! The search of a track on which a code of a header is damaged. The scan passes over what does not
name the wanted sector, a damaged header included; but the first header that does is taken, whatever
its checksum, so damage can lend a sector's data to another. Main statement: just when it does. -/
namespace RetroMedia.Gcr

namespace Track

variable {number sector : UInt8}

/-- A search within the revolution comes out of some bytes as it went in, with no mark between it and
what follows. -/
def Passes (number sector : UInt8) (bytes : Bytes) : Prop :=
  ∀ (length position : Nat) (before tail : Bytes) (headerSeen : Bool), NoSync before →
    position < length → ∃ position' before', NoSync before' ∧
      position' + before'.length = position + before.length + bytes.length ∧
      search length number sector position (before ++ (bytes ++ tail)) headerSeen
        = search length number sector position' (before' ++ tail) headerSeen

theorem Passes.append {first second : Bytes} (early : Passes number sector first)
    (late : Passes number sector second) : Passes number sector (first ++ second) := by
  intro length position before tail headerSeen quiet inside
  obtain ⟨position', before', quiet', reach, same⟩ :=
    early length position before (second ++ tail) headerSeen quiet inside
  rw [List.append_assoc, List.length_append, same]
  by_cases within : position' < length
  · obtain ⟨position'', before'', quiet'', reach', same'⟩ :=
      late length position' before' tail headerSeen quiet' within
    exact ⟨position'', before'', quiet'', by omega, same'⟩
  · have past := Nat.not_lt.1 within
    refine ⟨position' + before'.length + second.length, [], .nil, ?_, ?_⟩
    · rw [List.length_nil]
      omega
    · rw [search_of_past past, search_of_past (by omega)]

/-- A block of another kind or another sector is passed. -/
theorem passes_segment {segment : Segment} (other : segment.names number sector = false) :
    Passes number sector segment.bytes := by
  intro length position before tail headerSeen quiet inside
  refine ⟨position + before.length + segment.ones, segment.body, segment.noSync_body, ?_,
    search_of_other quiet inside other tail headerSeen⟩
  rw [segment.length_bytes]
  omega

theorem passes_nil : Passes number sector [] :=
  fun _ position before _ _ quiet _ => ⟨position, before, quiet, rfl, rfl⟩

theorem passes_render {segments : List Segment}
    (others : ∀ segment ∈ segments, segment.names number sector = false) :
    Passes number sector (render segments) := by
  induction segments with
  | nil => exact passes_nil
  | cons segment segments ih =>
    have first := passes_segment (others segment List.mem_cons_self)
    exact first.append (ih fun other member => others other (List.mem_cons_of_mem _ member))

/-- Behind bytes that are passed a search goes on at a place that they reach. -/
theorem search_of_passes {bytes : Bytes} (passes : Passes number sector bytes) {length : Nat}
    (some : 0 < length) (tail : Bytes) :
    ∃ position before, NoSync before ∧ position ≤ bytes.length ∧
      search length number sector 0 (bytes ++ tail) false
        = search length number sector position (before ++ tail) false := by
  obtain ⟨position, before, quiet, reach, same⟩ := passes length 0 [] tail false .nil some
  rw [List.length_nil] at reach
  exact ⟨position, before, quiet, by omega, same⟩

/-- A search that passes everything finds nothing. -/
theorem search_of_all_passed {bytes : Bytes} (passes : Passes number sector bytes) (length : Nat) :
    search length number sector 0 bytes false = .error .invalidLocation := by
  by_cases some : 0 < length
  case neg => exact search_of_past (Nat.not_lt.1 some)
  obtain ⟨position, before, quiet, _, same⟩ := search_of_passes passes some []
  rw [List.append_nil, List.append_nil] at same
  rw [same]
  by_cases inside : position < length
  · exact search_of_lost inside (nextSync_of_noSync quiet position)
  · exact search_of_past (Nat.not_lt.1 inside)

/-- A header of another track says nothing of the sector. -/
theorem sectorAt_of_foreign {coded : Bytes}
    (foreign : ∀ header, SectorHeader.decode? coded = some header → header.mark = headerMark →
      header.track ≠ number) (position : Nat) : sectorAt number sector position coded = none := by
  cases read : SectorHeader.decode? coded with
  | none => rw [sectorAt, read]
  | some header =>
    refine sectorAt_of_other read (Bool.eq_false_iff.2 fun named => ?_) position
    simp only [SectorHeader.names, Bool.and_eq_true, beq_iff_eq] at named
    exact foreign header read named.1.1 named.1.2

section Header

variable {ones : Nat} {byte : UInt8} {block gap : Bytes} {header : SectorHeader}

theorem nextSync_of_header (long : 2 ≤ ones) (other : byte ≠ 0xFF) {before : Bytes}
    (quiet : NoSync before) (position : Nat) (tail : Bytes) :
    nextSync (before ++ (List.replicate ones 0xFF ++ (byte :: block ++ tail))) position
      = some (position + before.length + ones, byte :: block ++ tail) := by
  rw [← List.append_assoc]
  exact nextSync_of_run quiet long other

/-- A damaged header that does not name the sector is passed. -/
theorem passes_damaged (long : 2 ≤ ones) (begins : byte ≠ 0xFF)
    (mute : Mute number (byte :: block ++ gap))
    (read : SectorHeader.decode? (byte :: block) = some header)
    (other : header.names number sector = false) :
    Passes number sector (List.replicate ones 0xFF ++ (byte :: block ++ gap)) := by
  intro length position before tail headerSeen quiet inside
  have found := @nextSync_of_header ones byte block long begins before quiet position (gap ++ tail)
  have none (place : Nat) : sectorAt number sector place (byte :: block ++ (gap ++ tail)) = none :=
    sectorAt_of_other (SectorHeader.decode?_append read _) other place
  have size : (List.replicate ones (0xFF : UInt8) ++ (byte :: block ++ gap)).length
      = ones + (byte :: block ++ gap).length := by rw [List.length_append, List.length_replicate]
  rw [List.append_assoc, List.append_assoc, search_of_unnamed inside found (none _), size,
    ← List.append_assoc]
  rcases mute with silent | ⟨front, last, next, rest, bytes, quiet', low, other', quiet'', behind⟩
  · exact ⟨_, _, silent, by omega, rfl⟩
  have again : byte :: block ++ gap ++ tail = front ++ last :: 0xFF :: (next :: rest ++ tail) := by
    rw [bytes, List.append_assoc]
    rfl
  refine ⟨position + before.length + ones + front.length + 2, next :: rest, quiet'', ?_, ?_⟩
  · simp only [bytes, List.length_append, List.length_cons]
    omega
  rw [again]
  by_cases within : position + before.length + ones < length
  · exact search_of_unnamed within (nextSync_of_mark quiet' low other')
      (sectorAt_of_foreign (behind tail) _)
  · rw [search_of_past (Nat.not_lt.1 within), search_of_past (by omega)]

/-- A search that comes upon a header of the sector finds the data that follow it. -/
theorem search_of_header {bytes data : Bytes} {next : Segment} {length : Nat}
    (passes : Passes number sector bytes) (short : bytes.length < length) (long : 2 ≤ ones)
    (begins : byte ≠ 0xFF) (read : SectorHeader.decode? (byte :: block) = some header)
    (named : header.names number sector = true) (size : (byte :: block).length = headerSize)
    (quiet : ∀ byte ∈ gap, byte ≠ 0xFF) (holds : next.plain = dataBlock data)
    (full : data.length = sectorSize) (tail : Bytes) :
    ∃ found, search length number sector 0 (bytes ++ (List.replicate ones 0xFF
        ++ (byte :: block ++ (gap ++ (next.bytes ++ tail))))) false = .ok found ∧
      found.data = data := by
  obtain ⟨position, before, quiet', reach, same⟩ := search_of_passes passes
    (Nat.zero_lt_of_lt short)
    (List.replicate ones 0xFF ++ (byte :: block ++ (gap ++ (next.bytes ++ tail))))
  obtain ⟨found, here, data_eq, _⟩ := sectorAt_of_header read named size quiet holds full tail
  refine ⟨found, ?_, data_eq⟩
  rw [same, search_of_found (by omega) (nextSync_of_header long begins quiet' position _), here]

end Header

end Track

namespace WrittenSector

variable {number sector : UInt8}

theorem render_cons_segments (number : UInt8) (written : WrittenSector)
    (sectors : List WrittenSector) : render (segments number (written :: sectors))
      = (written.header number).bytes
        ++ (written.block.bytes ++ render (segments number sectors)) := rfl

/-- Behind bytes that are passed, the sector is found among those that follow. -/
theorem search_among {sectors : List WrittenSector} (member : sector ∈ sectors.map (·.sector))
    {bytes : Bytes} (passes : Track.Passes number sector bytes) {length : Nat}
    (within : bytes.length + (render (segments number sectors)).length ≤ length) (tail : Bytes) :
    ∃ found, Track.search length number sector 0
        (bytes ++ (render (segments number sectors) ++ tail)) false = .ok found ∧
      ∃ written ∈ sectors, written.sector = sector ∧ written.data = found.data := by
  induction sectors generalizing bytes with
  | nil => cases member
  | cons written sectors ih =>
    rw [render_cons_segments, List.append_assoc, List.append_assoc]
    simp only [render_cons_segments, List.length_append, Segment.length_bytes] at within
    have long := written.headerLong
    have ones : (written.header number).ones = written.headerOnes := rfl
    by_cases same : written.sector = sector
    · obtain ⟨position, before, quiet, reach, course⟩ := Track.search_of_passes passes
        (show 0 < length by omega) ((written.header number).bytes
          ++ (written.block.bytes ++ (render (segments number sectors) ++ tail)))
      have named : (written.header number).names number sector = true := by simp [names_header, same]
      have inside : position < length := by omega
      obtain ⟨found, hit, data, _⟩ := Track.search_of_named quiet inside named rfl
        (show written.block.plain = dataBlock written.data from rfl) written.size
        (render (segments number sectors) ++ tail) false
      exact ⟨found, course.trans hit, written, List.mem_cons_self, same, data.symm⟩
    · have other : (written.header number).names number sector = false := by simp [names_header, same]
      have further := passes.append ((Track.passes_segment other).append
        (Track.passes_segment (written.names_block number sector)))
      have among : sector ∈ sectors.map (·.sector) := by
        rcases List.mem_cons.1 member with first | later
        · exact absurd first.symm same
        · exact later
      obtain ⟨found, hit, other, there, law⟩ := ih among further (by
        simp only [List.length_append, Segment.length_bytes]
        omega)
      refine ⟨found, ?_, other, List.mem_cons_of_mem _ there, law⟩
      simpa only [List.append_assoc] using hit

/-- The header of a sector with another code at one place. -/
def damagedHeader (number : UInt8) (written : WrittenSector) (place code : Nat) : Bytes :=
  replaceCode (encodeGroups (headerBlock number written.sector written.id1 written.id0)) place code

/-- A damaged header is a block of its size that can be told from the mark before it, that says
something and that hides no other header of the track. -/
theorem damagedHeader_eq_cons (number : UInt8) (written : WrittenSector) (place : Nat) {code : Nat}
    (small : code < 32) :
    ∃ byte block header, damagedHeader number written place code = byte :: block ∧ byte ≠ 0xFF ∧
      (byte :: block).length = headerSize ∧ SectorHeader.decode? (byte :: block) = some header ∧
      ∀ gap : Bytes, (∀ byte ∈ gap, byte ≠ 0xFF) → Mute number (byte :: block ++ gap) := by
  have row := @headerRow_damagedCode number place written.sector written.id1 written.id0 code small
  obtain ⟨header, read, _⟩ := decode?_row row.small []
  rw [List.append_nil] at read
  exact ⟨_, _, header, replaceCode_header, row.head_ne, rfl, read, fun gap quiet => row.mute quiet⟩

/-- A track on which other bytes stand in the place of the header of one sector. -/
def spoilt (number : UInt8) (before : List WrittenSector) (target : WrittenSector)
    (after : List WrittenSector) (coded : Bytes) : Bytes :=
  render (segments number before) ++ (List.replicate target.headerOnes 0xFF
    ++ (coded ++ (target.headerGap ++ (target.block.bytes ++ render (segments number after)))))

variable {before after : List WrittenSector} {target : WrittenSector} {place code : Nat}

theorem passes_segments {sectors : List WrittenSector} (absent : sector ∉ sectors.map (·.sector)) :
    Track.Passes number sector (render (segments number sectors)) :=
  Track.passes_render (names_of_absent fun present => absent present.2)

section Spoilt

variable {coded : Bytes} {length : Nat}

/-- A sector that stands before the damage is found as ever. -/
theorem search_spoilt_before (present : sector ∈ before.map (·.sector))
    (whole : (spoilt number before target after coded).length ≤ length) (more : Bytes) :
    ∃ found, Track.search length number sector 0 (spoilt number before target after coded ++ more)
        false = .ok found ∧
      ∃ written ∈ before, written.sector = sector ∧ written.data = found.data := by
  rw [spoilt, List.length_append] at whole
  obtain ⟨found, hit, law⟩ := search_among present Track.passes_nil
    (show ([] : Bytes).length + (render (segments number before)).length ≤ length by
      rw [List.length_nil]
      omega)
    (List.replicate target.headerOnes 0xFF ++ (coded ++ (target.headerGap
      ++ (target.block.bytes ++ render (segments number after)))) ++ more)
  refine ⟨found, ?_, law⟩
  rw [spoilt, List.append_assoc]
  exact hit

/-- A damaged header that names the sector is taken for its header. -/
theorem search_spoilt_named (small : code < 32) {header : SectorHeader}
    (read : SectorHeader.decode? (damagedHeader number target place code) = some header)
    (named : header.names number sector = true) (absent : sector ∉ before.map (·.sector))
    (whole : (spoilt number before target after (damagedHeader number target place code)).length
      ≤ length) (more : Bytes) :
    ∃ found, Track.search length number sector 0
        (spoilt number before target after (damagedHeader number target place code) ++ more) false
          = .ok found ∧ found.data = target.data := by
  obtain ⟨byte, block, _, same, begins, size, _⟩ := damagedHeader_eq_cons number target place small
  rw [same] at read whole ⊢
  have long := target.headerLong
  have short : (render (segments number before)).length < length := by
    simp only [spoilt, List.length_append, List.length_replicate] at whole
    omega
  have holds : target.block.plain = dataBlock target.data := rfl
  obtain ⟨found, hit, data⟩ := Track.search_of_header (passes_segments absent) short long begins read
    named size target.headerQuiet holds target.size (render (segments number after) ++ more)
  refine ⟨found, ?_, data⟩
  rw [spoilt]
  simpa only [List.append_assoc] using hit

/-- A damaged header that does not name the sector is passed with the data behind it. -/
theorem passes_spoilt (small : code < 32) {header : SectorHeader}
    (read : SectorHeader.decode? (damagedHeader number target place code) = some header)
    (other : header.names number sector = false) (absent : sector ∉ before.map (·.sector))
    (after : List WrittenSector) :
    ∃ front, Track.Passes number sector front ∧
      spoilt number before target after (damagedHeader number target place code)
        = front ++ render (segments number after) := by
  obtain ⟨byte, block, _, same, begins, _, _, mute⟩ :=
    damagedHeader_eq_cons number target place small
  rw [same] at read ⊢
  have damaged :=
    Track.passes_damaged target.headerLong begins (mute _ target.headerQuiet) read other
  refine ⟨_, ((passes_segments absent).append damaged).append
    (Track.passes_segment (target.names_block number sector)), ?_⟩
  simp only [spoilt, List.append_assoc]

end Spoilt

/-- What a search of two revolutions comes to where the damaged header does not name the sector. -/
theorem search_spoilt_unnamed (small : code < 32) {header : SectorHeader}
    (read : SectorHeader.decode? (damagedHeader number target place code) = some header)
    (other : header.names number sector = false) (absent : sector ∉ before.map (·.sector))
    {track : Bytes}
    (same : track = spoilt number before target after (damagedHeader number target place code)) :
    (∃ found, Track.search track.length number sector 0 (track ++ track) false = .ok found ∧
        ∃ written ∈ after, written.sector = sector ∧ written.data = found.data) ∨
      Track.search track.length number sector 0 (track ++ track) false = .error .invalidLocation := by
  obtain ⟨front, passes, split⟩ := passes_spoilt small read other absent after
  rw [← same] at split
  by_cases present : sector ∈ after.map (·.sector)
  · obtain ⟨found, hit, law⟩ := search_among present passes
      (show front.length + (render (segments number after)).length ≤ track.length by
        rw [split, List.length_append]) track
    refine .inl ⟨found, ?_, law⟩
    rw [← hit, ← List.append_assoc, ← split]
  · have once : Track.Passes number sector track := by
      rw [split]
      exact passes.append (passes_segments present)
    exact .inr (Track.search_of_all_passed (once.append once) _)

/-- Do bytes in the place of a header lead the search for a sector to data that are not its own? They
pass for its header, no other header of it stands before them, and it was not written with the data
that follow. -/
def Misleads (number sector : UInt8) (before : List WrittenSector) (target : WrittenSector)
    (after : List WrittenSector) (coded : Bytes) : Prop :=
  (SectorHeader.decode? coded).any (·.names number sector) = true ∧
    sector ∉ before.map (·.sector) ∧
    ∀ written ∈ target :: after, written.sector = sector → written.data ≠ target.data

/-- Does a search come to nothing but data that were written for the sector? -/
def Faithful (sector : UInt8) (sectors : List WrittenSector)
    (result : Except MediaError SectorData) : Prop :=
  ∀ found, result = .ok found →
    ∃ written ∈ sectors, written.sector = sector ∧ written.data = found.data

theorem faithful_of_ok {sectors : List WrittenSector} {found : SectorData}
    (written : ∃ written ∈ sectors, written.sector = sector ∧ written.data = found.data) :
    Faithful sector sectors (.ok found) := by
  intro found' same
  cases same
  exact written

/-- A search that is misled comes to the data behind the damaged header. -/
theorem search_of_misleads (small : code < 32) {track : Bytes}
    (same : track = spoilt number before target after (damagedHeader number target place code))
    (misleads : Misleads number sector before target after (damagedHeader number target place code)) :
    ∃ found, Track.search track.length number sector 0 (track ++ track) false = .ok found ∧
      found.data = target.data := by
  obtain ⟨passes, absent, _⟩ := misleads
  obtain ⟨header, read, named⟩ := (Option.any_eq_true _ _).1 passes
  have whole : (spoilt number before target after (damagedHeader number target place code)).length
      ≤ track.length := by rw [same]
  have hit := search_spoilt_named small read named absent whole track
  rwa [← same] at hit

theorem unfaithful_of_misleads {coded : Bytes} {found : SectorData}
    (misleads : Misleads number sector before target after coded) (data : found.data = target.data) :
    ¬ Faithful sector (before ++ target :: after) (.ok found) := by
  intro faithful
  obtain ⟨_, absent, never⟩ := misleads
  obtain ⟨written, member, own, equal⟩ := faithful found rfl
  rcases List.mem_append.1 member with there | here
  · exact absent (List.mem_map.2 ⟨written, there, own⟩)
  · exact never written here own (equal.trans data)

/-- A search that is not misled comes to data of its sector or to nothing. -/
theorem faithful_of_not_misleads (small : code < 32) {track : Bytes}
    (same : track = spoilt number before target after (damagedHeader number target place code))
    (harmless :
      ¬ Misleads number sector before target after (damagedHeader number target place code)) :
    Faithful sector (before ++ target :: after)
      (Track.search track.length number sector 0 (track ++ track) false) := by
  have whole : (spoilt number before target after (damagedHeader number target place code)).length
      ≤ track.length := by rw [same]
  by_cases early : sector ∈ before.map (·.sector)
  · obtain ⟨found, hit, written, there, law⟩ := search_spoilt_before early whole track
    rw [← same] at hit
    rw [hit]
    exact faithful_of_ok ⟨written, List.mem_append_left _ there, law⟩
  obtain ⟨_, _, header, bytes, _, _, read, _⟩ := damagedHeader_eq_cons number target place small
  rw [← bytes] at read
  cases named : header.names number sector with
  | true =>
    obtain ⟨found, hit, data⟩ := search_spoilt_named small read named early whole track
    rw [← same] at hit
    rw [hit]
    by_contra unfaithful
    refine harmless ⟨by rw [read]; exact named, early, fun written member own equal => ?_⟩
    exact unfaithful (faithful_of_ok
      ⟨written, List.mem_append_right before member, own, equal.trans data.symm⟩)
  | false =>
    rcases search_spoilt_unnamed small read named early same
      with ⟨found, hit, written, there, law⟩ | lost
    · rw [hit]
      exact faithful_of_ok
        ⟨written, List.mem_append_right before (List.mem_cons_of_mem target there), law⟩
    · rw [lost]
      exact nofun

/-- Whatever misleads a search has a wrong checksum. -/
theorem checksumOk_of_misleads (small : code < 32)
    (misleads : Misleads number sector before target after (damagedHeader number target place code)) :
    (SectorHeader.decode? (damagedHeader number target place code)).any (·.checksumOk) = false := by
  obtain ⟨passes, _, never⟩ := misleads
  obtain ⟨header, read, named⟩ := (Option.any_eq_true _ _).1 passes
  have different : sector ≠ target.sector :=
    fun same => never target List.mem_cons_self same.symm rfl
  rw [read]
  exact checksumOk_of_damaged small read named different

/-- Whom damage to a header misleads. On a track of any sectors, with any code of one header replaced
by any other, a search for a sector comes to data that were written for it, or it fails, unless the
damaged header misleads it. Then its checksum is wrong, which a search does not mind, and what is found
are the data of the sector that the header was written for. -/
theorem findSector_damaged_iff (number : UInt8) (before : List WrittenSector)
    (target : WrittenSector) (after : List WrittenSector) :
    ∃ laid header back, layOutAll number before = .ok laid ∧
      encode (headerBlock number target.sector target.id1 target.id0) = .ok header ∧
      layOutAll number (before ++ target :: after)
        = .ok (laid ++ List.replicate target.headerOnes 0xFF ++ header ++ back) ∧
      ∀ place < 16, ∀ code < 32, ∀ sector, ∃ steps result,
        Track.findSector ⟨laid ++ List.replicate target.headerOnes 0xFF
          ++ replaceCode header place code ++ back⟩ number sector = Walk.counted result steps ∧
        (Faithful sector (before ++ target :: after) result ↔
          ¬ Misleads number sector before target after (replaceCode header place code)) ∧
        (Misleads number sector before target after (replaceCode header place code) →
          (SectorHeader.decode? (replaceCode header place code)).any (·.checksumOk) = false ∧
            ∃ found, result = .ok found ∧ found.data = target.data) := by
  let back := target.headerGap ++ (target.block.bytes ++ render (segments number after))
  refine ⟨_, _, back, layOutAll_eq number before, encode_headerBlock .., ?_, ?_⟩
  · rw [layOutAll_eq]
    simp [segments, back, Segment.bytes, Segment.body, header]
  · intro place _ code small sector
    have same : render (segments number before) ++ List.replicate target.headerOnes 0xFF
        ++ damagedHeader number target place code ++ back
          = spoilt number before target after (damagedHeader number target place code) := by
      simp only [spoilt, back, List.append_assoc]
    obtain ⟨steps, course⟩ := Track.scan_eq_counted _ number sector 0 _ false
    refine ⟨steps, _, course, ⟨fun faithful misleads => ?_, faithful_of_not_misleads small same⟩,
      fun misleads => ⟨checksumOk_of_misleads small misleads, search_of_misleads small same misleads⟩⟩
    obtain ⟨found, hit, data⟩ := search_of_misleads small same misleads
    exact unfaithful_of_misleads misleads data (hit ▸ faithful)

/-- The header of sector 0, damaged so that it reads as that of sector 1. -/
theorem misleads_pair : Misleads 18 1 [] (filled 0 0x11) [filled 1 0x22]
    (damagedHeader 18 (filled 0 0x11) 5 0x0B) := by
  refine ⟨by decide, nofun, fun written member own same => ?_⟩
  rcases List.mem_pair.1 member with rfl | rfl
  · exact absurd own (by decide)
  · exact absurd (congrArg (Bytes.byte · 0) same) (by decide)

/-- A track of two sectors, the sector number of the first header damaged: with a code of all ones the
search for the second sector is not misled, with the code of another nibble it is. -/
theorem findSector_damaged_iff_of_pair :
    (5 < 16 ∧ 0x1F < 32 ∧ 0x0B < 32) ∧ ∃ header back,
      layOutAll 18 [filled 0 0x11, filled 1 0x22] = .ok (List.replicate 2 0xFF ++ header ++ back) ∧
      (∃ steps result,
        Track.findSector ⟨List.replicate 2 0xFF ++ replaceCode header 5 0x1F ++ back⟩ 18 1
          = Walk.counted result steps ∧ Faithful 1 [filled 0 0x11, filled 1 0x22] result) ∧
      ∃ steps result,
        Track.findSector ⟨List.replicate 2 0xFF ++ replaceCode header 5 0x0B ++ back⟩ 18 1
          = Walk.counted result steps ∧ ¬ Faithful 1 [filled 0 0x11, filled 1 0x22] result ∧
        ∃ found, result = .ok found ∧ found.data = List.replicate sectorSize 0x11 := by
  obtain ⟨laid, header, back, first, coded, whole, law⟩ :=
    findSector_damaged_iff 18 [] (filled 0 0x11) [filled 1 0x22]
  cases first
  cases coded
  refine ⟨by decide, _, back, whole, ?_, ?_⟩
  · obtain ⟨steps, result, course, iff, _⟩ := law 5 (by decide) 0x1F (by decide) 1
    exact ⟨steps, result, course, iff.2 fun misleads => absurd misleads.1 (by decide)⟩
  · obtain ⟨steps, result, course, iff, lent⟩ := law 5 (by decide) 0x0B (by decide) 1
    exact ⟨steps, result, course, fun faithful => iff.1 faithful misleads_pair,
      (lent misleads_pair).2⟩

/-- On the same track, the search for the second sector comes to the data of the first. -/
theorem damaged_header_lends_data :
    ([filled 0 0x11, filled 1 0x22].map (·.sector)).Nodup ∧ ∃ header back steps found,
      encode (headerBlock 18 0 0x42 0x41) = .ok header ∧
      layOutAll 18 [filled 0 0x11, filled 1 0x22] = .ok (List.replicate 2 0xFF ++ header ++ back) ∧
      Track.findSector ⟨List.replicate 2 0xFF ++ replaceCode header 5 0x0B ++ back⟩ 18 1
        = Walk.counted (.ok found) steps ∧
      found.data = (filled 0 0x11).data ∧ found.data ≠ (filled 1 0x22).data := by
  let back := (filled 0 0x11).headerGap
    ++ ((filled 0 0x11).block.bytes ++ render (segments 18 [filled 1 0x22]))
  have same : List.replicate 2 0xFF ++ damagedHeader 18 (filled 0 0x11) 5 0x0B ++ back
      = spoilt 18 [] (filled 0 0x11) [filled 1 0x22] (damagedHeader 18 (filled 0 0x11) 5 0x0B) := by
    simp only [List.append_assoc]
    rfl
  obtain ⟨found, hit, data⟩ := search_of_misleads (by decide) same misleads_pair
  obtain ⟨steps, course⟩ := Track.scan_eq_counted _ 18 1 0 _ false
  rw [hit] at course
  refine ⟨by decide, _, back, steps, found, encode_headerBlock .., ?_, course, data, ?_⟩
  · rw [layOutAll_eq]
    simp only [List.append_assoc]
    rfl
  · rw [data]
    exact fun equal => absurd (congrArg (Bytes.byte · 0) equal) (by decide)

end WrittenSector
end RetroMedia.Gcr
