import RetroMedia.Proofs.Stream.Steady

/-! Reads in a row. Whatever the sizes of their buffers, buffers of no size among them, reads return
the outlook piece by piece and its failure behind the last byte, once. Where the reader of a chain is
not cancelled, all its reads tell the outlook that it began with, so what is read of a chain is a matter
of the chain alone. -/
namespace RetroMedia

namespace ByteSource

/-- The bytes that some reads handed out. -/
def collected (results : List (Except MediaError Bytes)) : Bytes := results.flatMap delivered

/-- The failure that a read reported. -/
def reported : Except MediaError Bytes → Option MediaError
  | .ok _ => none
  | .error error => some error

/-- The failures that some reads reported. -/
def failures (results : List (Except MediaError Bytes)) : List MediaError :=
  results.filterMap reported

/-- A read into a buffer with room for something delivered nothing. -/
def Drained (sizes : List Nat) (results : List (Except MediaError Bytes)) : Prop :=
  ∃ (place size : Nat) (result : Except MediaError Bytes), sizes[place]? = some size ∧ 0 < size ∧
    results[place]? = some result ∧ delivered result = []

variable {results : List (Except MediaError Bytes)} {bytes : Bytes} {error : MediaError}

@[simp] theorem collected_nil : collected [] = [] := rfl

@[simp] theorem collected_ok : collected (.ok bytes :: results) = bytes ++ collected results := rfl

@[simp] theorem collected_error : collected (.error error :: results) = collected results := rfl

@[simp] theorem failures_nil : failures [] = [] := rfl

@[simp] theorem failures_ok : failures (.ok bytes :: results) = failures results := rfl

@[simp] theorem failures_error : failures (.error error :: results) = error :: failures results := rfl

theorem collected_prefix (results : List (Except MediaError Bytes)) (place : Nat) :
    collected (results.take place) <+: collected results := by
  have whole : collected (results.take place) ++ collected (results.drop place) = collected results := by
    simp only [collected, ← List.flatMap_append, List.take_append_drop]
  exact ⟨_, whole⟩

theorem failures_prefix (results : List (Except MediaError Bytes)) (place : Nat) :
    failures (results.take place) <+: failures results :=
  List.IsPrefix.filterMap reported (List.take_prefix place results)

theorem drained_cons {size : Nat} {sizes : List Nat} {result : Except MediaError Bytes}
    (later : Drained sizes results) : Drained (size :: sizes) (result :: results) := by
  obtain ⟨place, asked, got, here, positive, there, nothing⟩ := later
  exact ⟨place + 1, asked, got, here, positive, there, nothing⟩

end ByteSource

open ByteSource

namespace Outlook

/-- Results of reads, each into a buffer of its size, that tell an outlook one after the other. -/
inductive Told : Outlook → List Nat → List (Except MediaError Bytes) → Prop
  | rest (outlook : Outlook) : Told outlook [] []
  | piece {outlook : Outlook} {size : Nat} {sizes : List Nat} {bytes : Bytes}
      {results : List (Except MediaError Bytes)} (fits : bytes.length ≤ size)
      (ends : bytes = [] → 0 < size → outlook = .finished) (later : Told outlook sizes results) :
      Told (outlook.behind bytes) (size :: sizes) (.ok bytes :: results)
  | failure {size : Nat} {sizes : List Nat} {error : MediaError}
      {results : List (Except MediaError Bytes)} (later : Told .finished sizes results) :
      Told ⟨[], some error⟩ (size :: sizes) (.error error :: results)

namespace Told

variable {outlook : Outlook} {sizes : List Nat} {results : List (Except MediaError Bytes)}

/-- No read returns more than its buffer has room for. -/
theorem fits (told : outlook.Told sizes results) {place size : Nat} {bytes : Bytes}
    (asked : sizes[place]? = some size) (got : results[place]? = some (.ok bytes)) :
    bytes.length ≤ size := by
  induction told generalizing place with
  | rest outlook => cases got
  | piece fits ends later ih =>
    cases place with
    | zero =>
      cases asked
      cases got
      exact fits
    | succ place => exact ih asked got
  | failure later ih =>
    cases place with
    | zero => cases got
    | succ place => exact ih asked got

/-- Nothing is returned that does not lie before the reads. -/
theorem collected (told : outlook.Told sizes results) :
    ByteSource.collected results <+: outlook.bytes := by
  induction told with
  | rest outlook => exact List.nil_prefix
  | piece fits ends later ih => simpa [behind] using ih
  | failure later ih => simpa [finished] using ih

/-- Only the failure that lies before the reads is reported, and once at most. -/
theorem failures (told : outlook.Told sizes results) :
    ByteSource.failures results <+: outlook.failure.toList := by
  induction told with
  | rest outlook => exact List.nil_prefix
  | piece fits ends later ih => simpa [behind] using ih
  | failure later ih => simpa [finished] using ih

/-- The failure is reported behind the last byte. -/
theorem of_error (told : outlook.Told sizes results) {place : Nat} {error : MediaError}
    (failed : results[place]? = some (.error error)) :
    outlook.failure = some error ∧ ByteSource.collected (results.take place) = outlook.bytes := by
  induction told generalizing place with
  | rest outlook => cases failed
  | piece fits ends later ih =>
    cases place with
    | zero => cases failed
    | succ place =>
      obtain ⟨same, whole⟩ := ih failed
      exact ⟨same, by simp [behind, whole]⟩
  | failure later ih =>
    cases place with
    | zero =>
      cases failed
      exact ⟨rfl, rfl⟩
    | succ place => cases (ih failed).1

/-- A read that has room and returns no bytes finds nothing left, neither bytes nor a failure. -/
theorem of_nothing (told : outlook.Told sizes results) {place size : Nat}
    (asked : sizes[place]? = some size) (positive : 0 < size)
    (nothing : results[place]? = some (.ok [])) :
    ByteSource.collected (results.take place) = outlook.bytes ∧
      ByteSource.failures (results.take place) = outlook.failure.toList := by
  induction told generalizing place with
  | rest outlook => cases nothing
  | piece fits ends later ih =>
    cases place with
    | zero =>
      cases asked
      cases nothing
      rw [ends rfl positive]
      exact ⟨rfl, rfl⟩
    | succ place =>
      obtain ⟨whole, same⟩ := ih asked nothing
      exact ⟨by simp [behind, whole], by simpa [behind] using same⟩
  | failure later ih =>
    cases place with
    | zero => cases nothing
    | succ place =>
      obtain ⟨whole, same⟩ := ih asked nothing
      exact ⟨by simpa [finished] using whole, by simpa [finished] using same⟩

/-- Reads until one of them has room and delivers nothing return all there is. -/
theorem drained (told : outlook.Told sizes results) (done : Drained sizes results) :
    ByteSource.collected results = outlook.bytes ∧
      ByteSource.failures results = outlook.failure.toList := by
  obtain ⟨place, size, result, asked, positive, got, nothing⟩ := done
  cases result with
  | error error =>
    obtain ⟨same, whole⟩ := told.of_error got
    have some : error ∈ ByteSource.failures results :=
      List.mem_filterMap.2 ⟨_, List.mem_of_getElem? got, rfl⟩
    have once := told.failures
    rw [same, Option.toList_some] at once ⊢
    have all : outlook.bytes <+: ByteSource.collected results := whole ▸ collected_prefix results place
    constructor
    · exact told.collected.eq_of_length_le all.length_le
    · rcases List.prefix_cons_iff.1 once with none | ⟨more, whole, nothing⟩
      · simp [none] at some
      · rw [whole, List.prefix_nil.1 nothing]
  | ok bytes =>
    obtain rfl : bytes = [] := nothing
    obtain ⟨whole, same⟩ := told.of_nothing asked positive got
    have all : outlook.bytes <+: ByteSource.collected results := whole ▸ collected_prefix results place
    have failed : outlook.failure.toList <+: ByteSource.failures results :=
      same ▸ failures_prefix results place
    exact ⟨told.collected.eq_of_length_le all.length_le, told.failures.eq_of_length_le failed.length_le⟩

/-- More reads with room than there are bytes come to the end. -/
theorem drained_of_length_lt (told : outlook.Told sizes results)
    (many : outlook.bytes.length < sizes.countP (0 < ·)) : Drained sizes results := by
  induction told with
  | rest outlook => cases many
  | @piece outlook size sizes bytes results fits ends later ih =>
    by_cases positive : 0 < size
    · cases bytes with
      | nil => exact ⟨0, size, .ok [], rfl, positive, rfl, rfl⟩
      | cons byte bytes =>
        refine drained_cons (ih ?_)
        simp [behind, positive] at many
        omega
    · refine drained_cons (ih ?_)
      simp [behind, positive] at many
      omega
  | @failure size sizes error results later ih =>
    by_cases positive : 0 < size
    · exact ⟨0, size, .error error, rfl, positive, rfl, rfl⟩
    · exact drained_cons (ih (by simpa [finished, positive] using many))

end Told
end Outlook

namespace Disk.ChainReader

/-- A read that is made: the size of its buffer, and the signals as they are then. -/
structure Call where
  size : Nat
  signals : Signals

/-- What reads in a row return. -/
def readAll (reader : ChainReader) : List Call → List (Except MediaError Bytes)
  | [] => []
  | call :: calls =>
    (reader.read call.size call.signals).1
      :: (reader.read call.size call.signals).2.1.readAll calls

/-- Reads that are not cancelled tell what was before the reader. -/
theorem told_readAll {reader : ChainReader} (sound : reader.Sound)
    (honest : reader.walk.source.Honest) (calls : List Call)
    (calm : ∀ call ∈ calls, call.signals.Calm) :
    (reader.outlook .quiet).Told (calls.map Call.size) (reader.readAll calls) := by
  induction calls generalizing reader with
  | nil => exact .rest _
  | cons call calls ih =>
    have calm' := calm call List.mem_cons_self
    have law := reader.read_outlook sound call.size call.signals
    obtain ⟨source, follows⟩ := read_follows honest call.size call.signals
    rw [readAll, outlook_of_calm honest Signals.calm_quiet calm']
    match step : reader.read call.size call.signals with
    | (.ok piece, after, signals) =>
      rw [step] at law source follows
      obtain ⟨still, fits, split, ends⟩ := law
      have honest' : after.walk.source.Honest := source ▸ honest
      rw [outlook_of_calm honest' (calm'.follows follows) Signals.calm_quiet] at split
      have later := ih still honest' fun call member => calm call (List.mem_cons_of_mem _ member)
      rw [split] at ends ⊢
      refine .piece fits (fun none positive => ?_) later
      simpa [none, Outlook.behind] using ends none positive
    | (.error error, after, signals) =>
      rw [step] at law source follows
      obtain ⟨still, failed, nothing⟩ := law
      have honest' : after.walk.source.Honest := source ▸ honest
      rw [outlook_of_calm honest' (calm'.follows follows) Signals.calm_quiet] at nothing
      have later := ih still honest' fun call member => calm call (List.mem_cons_of_mem _ member)
      rw [nothing] at later
      rw [failed]
      exact .failure later

/-- What is read of a chain does not depend on how it is read, as long as nothing is cancelled. Reads
return the data of the sectors that the walk along the chain comes to, from the front on. The failure of
that walk, and no other, is reported once, behind the last of these bytes. A read with room returns no
bytes only when all of them were returned and the failure, if there is one, was reported. Reads with room
come to this end, and any two readers that do have delivered the same bytes and the same failure. -/
theorem reads_tell_chain {source : SectorSource} (honest : source.Honest) (location : Location)
    (limits : Limits) :
    let reader := start source location limits
    let walked := (ChainWalk.start source location limits).sectors .quiet
    let readable := payload walked.1
    let failure := walked.2.1
    (∀ calls : List Call, (∀ call ∈ calls, call.signals.Calm) →
      let sizes := calls.map Call.size
      let results := reader.readAll calls
      (∀ (place size : Nat) (bytes : Bytes), sizes[place]? = some size →
        results[place]? = some (.ok bytes) → bytes.length ≤ size) ∧
      collected results <+: readable ∧
      failures results <+: failure.toList ∧
      (∀ place error, results[place]? = some (.error error) →
        failure = some error ∧ collected (results.take place) = readable) ∧
      (∀ place size, sizes[place]? = some size → 0 < size → results[place]? = some (.ok []) →
        collected (results.take place) = readable ∧
          failures (results.take place) = failure.toList) ∧
      (readable.length < sizes.countP (0 < ·) → Drained sizes results) ∧
      (Drained sizes results → collected results = readable ∧ failures results = failure.toList)) ∧
    ∀ calls calls' : List Call,
      (∀ call ∈ calls, call.signals.Calm) → (∀ call ∈ calls', call.signals.Calm) →
      Drained (calls.map Call.size) (reader.readAll calls) →
      Drained (calls'.map Call.size) (reader.readAll calls') →
      collected (reader.readAll calls) = collected (reader.readAll calls') ∧
        failures (reader.readAll calls) = failures (reader.readAll calls') := by
  intro reader walked readable failure
  have told (calls : List Call) (calm : ∀ call ∈ calls, call.signals.Calm) :
      Outlook.Told ⟨readable, failure⟩ (calls.map Call.size) (reader.readAll calls) :=
    told_readAll (sound_start source location limits) honest calls calm
  constructor
  · intro calls calm sizes results
    have here := told calls calm
    exact ⟨fun _ _ _ asked got => here.fits asked got, here.collected, here.failures,
      fun _ _ failed => here.of_error failed,
      fun _ _ asked positive nothing => here.of_nothing asked positive nothing,
      here.drained_of_length_lt, here.drained⟩
  · intro calls calls' calm calm' done done'
    obtain ⟨bytes, failed⟩ := (told calls calm).drained done
    obtain ⟨bytes', failed'⟩ := (told calls' calm').drained done'
    exact ⟨bytes.trans bytes'.symm, failed.trans failed'.symm⟩

/-- A sector that leads to one that cannot be read. -/
def severedSource : SectorSource :=
  .ofLookup fun location =>
    if location = ⟨1, 0⟩ then .ok (.ofBytes [2, 0]) else .error .invalidLocation

theorem sectors_severedSource :
    (ChainWalk.start severedSource ⟨1, 0⟩ {}).sectors .quiet
      = ([⟨(Block.ofBytes [2, 0]).bytes, ⟨1, 0⟩⟩], some .invalidLocation, .quiet) := by
  rw [ChainWalk.sectors_of_ok rfl, ChainWalk.sectors_of_error rfl]
  rfl

/-- Read byte by byte or in larger pieces, with empty buffers in between, the severed chain gives the
same bytes and then reports the sector that it lacks. -/
theorem reads_tell_chain_of_severed :
    severedSource.Honest ∧
      let reader := start severedSource ⟨1, 0⟩ {}
      let narrow := List.replicate 255 (Call.mk 1 .quiet)
      let wide := List.replicate 255 (Call.mk 100 .quiet) ++ [⟨0, .quiet⟩]
      collected (reader.readAll narrow) = collected (reader.readAll wide) ∧
        (collected (reader.readAll narrow)).length = 254 ∧
        failures (reader.readAll narrow) = [.invalidLocation] ∧
        failures (reader.readAll wide) = [.invalidLocation] := by
  have honest : severedSource.Honest := SectorSource.regular_ofLookup.honest
  refine ⟨honest, ?_⟩
  intro reader narrow wide
  have law := reads_tell_chain honest ⟨1, 0⟩ {}
  rw [sectors_severedSource] at law
  obtain ⟨run, same⟩ := law
  have calm : ∀ call ∈ narrow, call.signals.Calm := by
    intro call member
    obtain ⟨_, rfl⟩ := List.mem_replicate.1 member
    exact Signals.calm_quiet
  have calm' : ∀ call ∈ wide, call.signals.Calm := by
    intro call member
    rcases List.mem_append.1 member with many | last
    · obtain ⟨_, rfl⟩ := List.mem_replicate.1 many
      exact Signals.calm_quiet
    · obtain rfl := List.mem_singleton.1 last
      exact Signals.calm_quiet
  obtain ⟨_, _, _, _, _, comes, whole⟩ := run narrow calm
  obtain ⟨_, _, _, _, _, comes', whole'⟩ := run wide calm'
  have size : (payload [⟨(Block.ofBytes [2, 0]).bytes, ⟨1, 0⟩⟩]).length = 254 := by
    simp [payload, ChainSector.payload, (Block.ofBytes [2, 0]).length_eq, blockSize]
  have done := comes (by rw [size, List.map_replicate, List.countP_replicate]; decide)
  have done' := comes' (by
    rw [size, List.map_append, List.countP_append, List.map_replicate, List.countP_replicate]
    decide)
  refine ⟨(same narrow wide calm calm' done done').1, ?_, (whole done).2, (whole' done').2⟩
  rw [(whole done).1]
  exact size

end Disk.ChainReader
end RetroMedia
