import RetroMedia.CommandLine.Commands
import RetroMedia.Proofs.Image.Outlook
import RetroMedia.Proofs.Stream.Delivery
import RetroMedia.Proofs.Text.HexDump
import RetroMedia.Proofs.Vfs.Composition

/-! What a dump prints. Main statement: the listings of the pieces in which a file is dumped, one
below the other, are the listing of the file as a whole, however its bytes were delivered, and the
bytes are read back from it. -/
namespace RetroMedia.CommandLine

open HexDump (columns readBack readBack_render render render_append)

section Pieces

variable {σ : Type u} [ByteSource σ] {ahead : σ → Bytes → Prop}

/-- A whole piece is listed above what comes after it. -/
theorem render_piece (offset : Nat) {piece : Bytes} (full : piece.length = dumpPiece)
    (rest : Bytes) :
    render offset piece ++ "\n"
        ++ (if rest = [] then "" else render (offset + piece.length) rest ++ "\n")
      = render offset (piece ++ rest) ++ "\n" := by
  have some : piece ≠ [] := List.ne_nil_of_length_pos (full ▸ by decide)
  split
  · rename_i done
    rw [done, List.append_nil, String.append_empty]
  · rename_i more
    rw [render_append offset some more (full ▸ columns_dvd_dumpPiece)]
    simp only [String.append_assoc]

/-- The listings of the pieces are the listing of all bytes, and no bytes have none. -/
theorem dump_eq (delivers : ByteSource.Delivers ahead) (source : σ) (offset : Nat) {bytes : Bytes}
    (here : ahead source bytes) :
    (dump source offset).2 = none ∧
      String.join ((dump source offset).1.map (· ++ "\n"))
        = if bytes = [] then "" else render offset bytes ++ "\n" := by
  fun_induction dump source offset generalizing bytes with
  | case1 source offset piece error after gathered =>
    obtain ⟨_, found, _⟩ := delivers.gather_eq source dumpPiece here
    cases gathered.symm.trans found
  | case2 source offset piece after gathered none =>
    obtain ⟨_, found, _⟩ := delivers.gather_eq source dumpPiece here
    cases gathered.symm.trans found
    have done : bytes = [] :=
      (List.take_eq_nil_iff.1 (List.isEmpty_iff.1 none)).resolve_left (by decide)
    rw [if_pos done]
    exact ⟨rfl, rfl⟩
  | case3 source offset piece after gathered some listing full more failure rest =>
    rename_i ih
    obtain ⟨_, found, left⟩ := delivers.gather_eq source dumpPiece here
    cases gathered.symm.trans found
    obtain ⟨quiet, below⟩ := ih left
    rw [rest] at quiet below
    refine ⟨quiet, ?_⟩
    have filled : bytes ≠ [] := by
      rintro rfl
      exact some rfl
    rw [List.map_cons, String.join_cons, below, render_piece offset full, List.take_append_drop,
      if_neg filled]
  | case4 source offset piece after gathered some listing =>
    rename_i short
    obtain ⟨_, found, _⟩ := delivers.gather_eq source dumpPiece here
    cases gathered.symm.trans found
    have whole : bytes.take dumpPiece = bytes := by
      rw [List.length_take] at short
      exact List.take_of_length_le (by omega)
    have filled : bytes ≠ [] := by
      rintro rfl
      exact some rfl
    refine ⟨rfl, ?_⟩
    simp [listing, whole, filled]

end Pieces

/-- What is printed of a source. -/
theorem printed_eq {σ : Type u} [ByteSource σ] {ahead : σ → Bytes → Prop}
    (delivers : ByteSource.Delivers ahead) {source : σ} {bytes : Bytes}
    (here : ahead source bytes) (filled : bytes ≠ []) :
    Outcome.ofLines (dump source 0).1 ((dump source 0).2.map .media)
      = { printed := Utf8.encode (render 0 bytes ++ "\n") } := by
  obtain ⟨quiet, all⟩ := dump_eq delivers source 0 here
  rw [if_neg filled] at all
  rw [Outcome.ofLines, quiet, all]
  rfl

/-- The reader that a file opens has kept no failure back. -/
theorem sound_of_reader {file : File} {host : Host} {reader : Reader}
    (opened : file.reader host = .ok reader) : reader.Sound := by
  unfold File.reader at opened
  split at opened
  · split at opened
    · cases opened
    · split at opened <;> cases opened
      trivial
  · cases opened
    trivial
  · rename_i held entry _
    split at opened
    · cases opened
    · match found : held.image.handler.openEntry entry held.image.limits with
      | .error _ =>
        rw [found] at opened
        cases opened
      | .ok _ =>
        rw [found] at opened
        cases opened
        exact Checkout.sound_of_openEntry found

/-- A file of which all bytes can be read is dumped with all of them. -/
theorem dumpFile_eq {file : File} {surroundings : Surroundings} {reader : Reader}
    (opened : file.reader surroundings.host = .ok reader)
    (complete : (ByteSource.drain (reader, Signals.quiet)).2.1 = none)
    (filled : (ByteSource.drain (reader, Signals.quiet)).1 ≠ []) (store : ImageStore) :
    dumpFile file surroundings store = .ok
      { printed := Utf8.encode
          (render 0 (ByteSource.drain (reader, Signals.quiet)).1 ++ "\n") } store := by
  have sound := sound_of_reader opened
  obtain ⟨same, failure⟩ := Reader.foretells.drain_eq (reader, Signals.quiet) sound
  have printed := @printed_eq _ _ _ Reader.foretells.delivers (reader, Signals.quiet) _
    ⟨sound, same.symm, failure.symm.trans complete⟩ filled
  have given : (MonadExcept.ofExcept (file.reader surroundings.host) : Access Reader) surroundings
      store = .ok reader store := by rw [opened]; rfl
  rw [← printed]
  change EStateM.bind ((MonadExcept.ofExcept (file.reader surroundings.host) : Access Reader)
    surroundings) _ store = _
  rw [EStateM.bind, given]
  rfl

/-- A listing is put together from the listings of its parts. So the dump of a file prints the
listing of all of its bytes, in whatever pieces and with whatever interruptions they are delivered,
and they are read back from it. -/
theorem dump_prints_listing :
    (∀ (base : Nat) (front back : Bytes), front ≠ [] → back ≠ [] → columns ∣ front.length →
      render base (front ++ back)
        = render base front ++ "\n" ++ render (base + front.length) back) ∧
    (∀ (σ : Type) [ByteSource σ] (ahead : σ → Bytes → Prop), ByteSource.Delivers ahead →
      ∀ (source : σ) (bytes : Bytes), ahead source bytes → bytes ≠ [] →
        Outcome.ofLines (dump source 0).1 ((dump source 0).2.map .media)
          = { printed := Utf8.encode (render 0 bytes ++ "\n") }) ∧
    (∀ (registry : Registry) (arguments : Arguments) (surroundings : Surroundings)
      (store store' : ImageStore) (file : File) (reader : Reader) (bytes : Bytes),
      arguments.verb = .dump →
      registry.open arguments.path surroundings store = .ok file store' →
      file.reader surroundings.host = .ok reader →
      (ByteSource.drain (reader, Signals.quiet)).1 = bytes →
      (ByteSource.drain (reader, Signals.quiet)).2.1 = none → bytes ≠ [] →
        perform registry arguments surroundings store
          = .ok { printed := Utf8.encode (render 0 bytes ++ "\n") } store') ∧
    ∀ (base : Nat) (bytes : Bytes), readBack (render base bytes ++ "\n") = bytes := by
  refine ⟨fun base _ _ some more whole => render_append base some more whole,
    fun _ _ _ delivers _ _ here filled => printed_eq delivers here filled, ?_, readBack_render⟩
  rintro registry arguments surroundings store store' file reader _ verb opened readable rfl
    complete filled
  change EStateM.bind (registry.open arguments.path surroundings) _ store = _
  rw [EStateM.bind, opened]
  simp only [verb]
  exact dumpFile_eq readable complete filled store'
/-- A file in the root directory of the host, and a desk where nothing was done yet. -/
def fileDesk : Desk :=
  .shared { root := .directory [("a", .file (.ofBytes [1, 2, 3, 4]))] } (.standard {})

/-- Two rows by their parts, a source that falters, and a file of the host. -/
theorem dump_prints_listing_of_host :
    render 0 (List.replicate 16 0x41 ++ [0x42])
        = render 0 (List.replicate 16 0x41) ++ "\n" ++ render 16 [0x42] ∧
      Outcome.ofLines (dump (ByteSource.Faltering.mk [1, 2, 3, 4] false) 0).1
          ((dump (ByteSource.Faltering.mk [1, 2, 3, 4] false) 0).2.map .media)
        = { printed := Utf8.encode (render 0 [1, 2, 3, 4] ++ "\n") } ∧
      perform fileDesk.registry ⟨"/a", none, .dump, none⟩ ⟨fileDesk.host, fileDesk.alive⟩
          fileDesk.store
        = .ok { printed := Utf8.encode (render 0 [1, 2, 3, 4] ++ "\n") } fileDesk.store ∧
      readBack (render 0 [1, 2, 3, 4] ++ "\n") = [1, 2, 3, 4] := by
  obtain ⟨parts, delivered, printed, shown⟩ := dump_prints_listing
  have outside : fileDesk.registry.generate? "/a" = none := by decide +kernel
  have leads : fileDesk.host.find? (HostPath.ofText "/a") = some (.file (.ofBytes [1, 2, 3, 4])) :=
    rfl
  let reader : Reader := .cursor { container := .ofBytes [1, 2, 3, 4] }
  obtain ⟨drained, complete⟩ := Reader.foretells.drain_eq (reader, Signals.quiet) trivial
  exact ⟨parts 0 _ _ (by simp) (by simp) (by decide),
    delivered _ _ ByteSource.Faltering.delivers _ _ rfl (by simp),
    printed _ _ _ _ _ _ reader _ rfl (Desk.open_of_find? leads outside) rfl drained complete
      (by simp),
    shown _ _⟩

end RetroMedia.CommandLine
