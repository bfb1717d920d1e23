import RetroMedia.Proofs.Image.Documents
import RetroMedia.Proofs.Json.RoundTrip
import RetroMedia.Proofs.Vfs.Composition

/-! Descents into documents. A member of a document is written as a document of its own, which is opened
again on the next step; the names of a path lead to the value at that path nonetheless, at any depth. -/
namespace RetroMedia

namespace File

/-- The file reads as the given bytes, and has as many of them as its size says. -/
structure ReadsAs (file : File) (host : Host) (bytes : Bytes) : Prop where
  reads : ∃ reader, file.reader host = .ok reader ∧
    ∀ signals : Signals, ByteSource.YieldsExactly (reader, signals) bytes
  container : file.container host = .ok (.ofBytes bytes)
  size : file.size host = bytes.length

/-- The file holds a value. A string reads as its text, and every other value as its compact form, which
is a document of that value; a structured value can be listed. -/
structure Shows (file : File) (host : Host) (value : Json) : Prop where
  text : ∀ text, value = .string text → file.ReadsAs host (Utf8.encode text)
  compact : (∀ text, value ≠ .string text) → file.ReadsAs host (Utf8.encode value.compact)
  spelled : (∀ text, value ≠ .string text) →
    Json.parse? (Utf8.encode value.compact) = some value
  directory : value.isStructured = true → file.isDirectory host = true

/-- The file is a document of a value. -/
structure Unfolds (file : File) (host : Host) (value : Json) : Prop where
  inside : file.isHostDirectory host = false
  claimed : file.system? host = some (.ofFormat .json)
  parsed : ∃ container, file.container host = .ok container ∧
    Json.parse? container.toBytes = some value

/-- The file holds a value and, if the value is structured, is a document of it. -/
structure Carries (file : File) (host : Host) (value : Json) : Prop where
  shows : file.Shows host value
  unfolds : value.isStructured = true → file.Unfolds host value

variable {file : File} {host : Host} {value inner : Json} {name : String} {names : List String}
  {members : List (String × Json)}

theorem isDirectory_plain (file : File) (host : Host) :
    file.plain.isDirectory host = file.isDirectory host := by
  obtain ⟨registry, url, name, node, listing⟩ := file
  cases node <;> rfl

theorem readsAs_plain_iff {bytes : Bytes} : file.plain.ReadsAs host bytes ↔ file.ReadsAs host bytes := by
  constructor
  · rintro ⟨reads, container, size⟩
    rw [reader_plain] at reads
    rw [container_plain] at container
    rw [size_plain] at size
    exact ⟨reads, container, size⟩
  · rintro ⟨reads, container, size⟩
    rw [← reader_plain] at reads
    rw [← container_plain] at container
    rw [← size_plain] at size
    exact ⟨reads, container, size⟩

theorem shows_plain_iff : file.plain.Shows host value ↔ file.Shows host value := by
  constructor
  · rintro ⟨text, compact, spelled, directory⟩
    rw [isDirectory_plain] at directory
    exact ⟨fun _ same => readsAs_plain_iff.1 (text _ same),
      fun other => readsAs_plain_iff.1 (compact other), spelled, directory⟩
  · rintro ⟨text, compact, spelled, directory⟩
    rw [← isDirectory_plain] at directory
    exact ⟨fun _ same => readsAs_plain_iff.2 (text _ same),
      fun other => readsAs_plain_iff.2 (compact other), spelled, directory⟩

/-- The image of a document has the members of the document's value. -/
theorem Unfolds.own (unfolds : file.Unfolds host value)
    (structured : Document.membersOf? value = some members) :
    ∃ image document, file.own host = .ok image ∧ image.handler = .document document ∧
      document.members = members ∧ image.limits = file.registry.config.limits := by
  obtain ⟨container, content, parsed⟩ := unfolds.parsed
  have opened : Document.open container = .ok ⟨container, members⟩ := by
    unfold Document.open
    rw [parsed]
    dsimp only
    rw [structured]
  obtain ⟨image, decoded, same, limits⟩ : ∃ image, (FileSystem.ofFormat .json).decode file.url
      container file.registry.config.limits = .ok image ∧
        image.handler = .document ⟨container, members⟩ ∧
        image.limits = file.registry.config.limits := by
    refine ⟨⟨file.url, .document ⟨container, members⟩, file.registry.config.limits⟩, ?_, rfl, rfl⟩
    change ((Document.open container).map Handler.document >>= _) = _
    rw [opened]
    rfl
  refine ⟨image, ⟨container, members⟩, ?_, same, rfl, limits⟩
  unfold File.own
  rw [unfolds.claimed]
  dsimp only
  rw [content]
  dsimp only [bind, Except.bind]
  rw [decoded]
  rfl

section Members

variable {document : Document} {held : HeldImage} {position : Nat}

/-- What is found under the name of a member reads as the content of the member. -/
theorem readsAs_ofEntry (same : held.image.handler = .document document)
    (here : document.members[position]? = some (name, inner)) (file : File) :
    (file.ofEntry held (Document.entryOf position (name, inner))).ReadsAs host
      (Utf8.encode inner.content) := by
  have opened : held.image.handler.openEntry (Document.entryOf position (name, inner))
      held.image.limits = .ok (.memory (Document.contentBytes inner)) := by
    have known : document.value? (Document.entryOf position (name, inner)) = some inner := by
      change document.members[position]?.map Prod.snd = _
      rw [here]
      rfl
    rw [same]
    change document.openEntry _ = _
    rw [Document.openEntry, known]
  have faces : (Reader.memory (Document.contentBytes inner)).Faces
      ⟨Document.contentBytes inner, none⟩ :=
    ⟨trivial, trivial, fun _ _ => rfl⟩
  obtain ⟨size, read, whole⟩ :=
    @File.reads_entry _ _ _ _ (file.ofEntry held (Document.entryOf position (name, inner))) held rfl rfl
      rfl opened faces host
  exact ⟨⟨_, read, fun _ => Reader.foretells.yieldsExactly faces.sound rfl⟩, whole, size⟩

/-- What is found under the name of a member holds the member. -/
theorem shows_ofEntry (same : held.image.handler = .document document)
    (here : document.members[position]? = some (name, inner)) (file : File)
    (parsed : Json.parse? (Utf8.encode inner.compact) = some inner) :
    (file.ofEntry held (Document.entryOf position (name, inner))).Shows host inner := by
  have reads : (file.ofEntry held (Document.entryOf position (name, inner))).ReadsAs host
      (Utf8.encode inner.content) :=
    readsAs_ofEntry same here file
  refine ⟨?_, ?_, fun _ => parsed, ?_⟩
  · rintro text rfl
    exact reads
  · intro other
    rw [Json.content_eq_compact other] at reads
    exact reads
  · intro structured
    have directory : (Document.entryOf position (name, inner)).isDirectory = true := by
      unfold Document.entryOf
      rw [structured]
      rfl
    have entry : File.entry? (file.ofEntry held (Document.entryOf position (name, inner)))
        = some (Document.entryOf position (name, inner)) := rfl
    unfold isDirectory
    rw [entry, Option.map_some, Option.getD_some, directory, Bool.or_true, Bool.true_or]

/-- A structured member is a document itself. -/
theorem unfolds_ofEntry (same : held.image.handler = .document document)
    (here : document.members[position]? = some (name, inner)) (structured : inner.isStructured = true)
    (hinted : file.registry.findHint? Document.hint = some (.ofFormat .json))
    (parsed : Json.parse? (Utf8.encode inner.compact) = some inner) :
    (file.ofEntry held (Document.entryOf position (name, inner))).Unfolds host inner := by
  have other (text : String) : inner ≠ .string text := by
    rintro rfl
    cases structured
  have shows : File.Shows _ host inner := shows_ofEntry same here file parsed
  refine ⟨rfl, ?_, _, (shows.compact other).container, parsed⟩
  have hint : (Document.entryOf position (name, inner)).formatHint = some Document.hint := by
    unfold Document.entryOf
    rw [structured]
    rfl
  unfold system? ofEntry
  dsimp only
  rw [hint]
  dsimp only
  rw [hinted]
  rfl

end Members

/-- A name leads from a document to the member of that name, if there is one. -/
theorem Unfolds.ownChild (unfolds : file.Unfolds host value)
    (structured : Document.membersOf? value = some members)
    (room : members.length ≤ file.registry.config.limits.maxEntries) (plain : Wildcard.Plain name)
    (hinted : file.registry.findHint? Document.hint = some (.ofFormat .json))
    (parsed : ∀ member ∈ members, Json.parse? (Utf8.encode member.2.compact) = some member.2) :
    (∃ inner last, (name, inner) ∈ members ∧ file.ownChild host name = .ok last ∧
        last.registry = file.registry ∧ last.Carries host inner) ∨
      (∀ inner, (name, inner) ∉ members) ∧
        file.ownChild host name = .error (.media .notFound) := by
  obtain ⟨image, document, own, same, rfl, limits⟩ := unfolds.own structured
  rw [← limits] at room
  rw [ownChild_of_container unfolds.inside, own]
  dsimp only [Except.bind]
  rcases Checkout.seekEntry_of_document same room plain with
    ⟨position, inner, after, here, step⟩ | ⟨missing, after, step⟩
  · have listed := List.mem_of_getElem? here
    rw [step]
    have handler : (HeldImage.mk 0 image).image.handler = .document document := same
    refine .inl ⟨inner, _, listed, rfl, rfl, shows_ofEntry handler here file (parsed _ listed), ?_⟩
    intro inside
    exact unfolds_ofEntry handler here inside hinted (parsed _ listed)
  · rw [step]
    exact .inr ⟨missing, rfl⟩

/-- What names lead to, if it comes to a file, holds the value at their path; if there is none, they lead
nowhere. -/
def Finds (host : Host) (value : Json) (names : List String) (outcome : Except Failure File) : Prop :=
  (∀ found, value.Reaches names found → ∃ last, outcome = .ok last ∧ last.Shows host found) ∧
    ((∀ found, ¬ value.Reaches names found) → outcome = .error (.media .notFound))

section Descent

variable {depth : Nat} (canonical : value.Canonical depth) (shallow : depth ≤ JsonBuilder.maxDepth)
  (hinted : file.registry.findHint? Document.hint = some (.ofFormat .json))
include canonical shallow hinted

/-- The first name leads to a member, from where the others lead on. -/
theorem Unfolds.finds_cons (unfolds : file.Unfolds host value)
    (passable : value.Passable (name :: names) file.registry.config.limits.maxEntries)
    (plain : Wildcard.Plain name)
    (onward : ∀ (inner : Json) (last : File) (less : Nat), last.Carries host inner →
      inner.Canonical less → less ≤ depth → last.registry = file.registry →
      inner.Passable names file.registry.config.limits.maxEntries →
      Finds host inner names (last.ownDescent host names)) :
    Finds host value (name :: names) (file.ownDescent host (name :: names)) := by
  have top := passable.structured [] value List.nil_prefix nofun (.here value)
  obtain ⟨members, structured⟩ := Json.exists_membersOf? top
  obtain ⟨_, less, fewer, inside⟩ := canonical.within structured
  have room : members.length ≤ file.registry.config.limits.maxEntries :=
    Json.length_membersOf? structured ▸ passable.bounded [] value (.here value)
  -- Each member is written as a document of its own, which is read again on the next step.
  have parsed (member) (listed : member ∈ members) :
      Json.parse? (Utf8.encode member.2.compact) = some member.2 :=
    Json.parse?_compact (inside member listed) (Nat.le_trans fewer shallow)
      (passable.exact.within structured listed)
  unfold File.ownDescent
  rcases unfolds.ownChild structured room plain hinted parsed with
    ⟨inner, last, listed, step, same, carries⟩ | ⟨missing, step⟩
  · rw [step]
    have finds := onward inner last less carries (inside _ listed) fewer same
      (passable.onward structured listed)
    refine ⟨?_, ?_⟩
    · intro found reached
      exact finds.1 found ((canonical.reaches_iff structured listed).1 reached)
    · intro none
      apply finds.2
      intro found reached
      exact none found ((canonical.reaches_iff structured listed).2 reached)
  · rw [step]
    refine ⟨?_, fun _ => rfl⟩
    intro found reached
    obtain ⟨inner, listed, _⟩ := (Json.reaches_cons_iff structured).1 reached
    exact absurd listed (missing inner)

theorem Carries.ownDescent (carries : file.Carries host value)
    (passable : value.Passable names file.registry.config.limits.maxEntries)
    (plain : ∀ other ∈ names, Wildcard.Plain other) :
    Finds host value names (file.ownDescent host names) := by
  induction names generalizing file value depth with
  | nil =>
    refine ⟨?_, fun none => absurd (.here value) (none value)⟩
    rintro _ ⟨⟩
    exact ⟨_, rfl, shows_plain_iff.2 carries.shows⟩
  | cons name names ih =>
    have top := passable.structured [] value List.nil_prefix nofun (.here value)
    apply (carries.unfolds top).finds_cons canonical shallow hinted passable (plain _ List.mem_cons_self)
    intro inner last less carries canonical fewer same passable
    rw [← same] at hinted passable
    exact ih canonical (Nat.le_trans fewer shallow) hinted carries passable
      fun other member => plain other (List.mem_cons_of_mem _ member)

/-- Names lead from a document to the value at their path, at any depth. -/
theorem Unfolds.ownDescent (unfolds : file.Unfolds host value)
    (passable : value.Passable (name :: names) file.registry.config.limits.maxEntries)
    (plain : ∀ other ∈ name :: names, Wildcard.Plain other) :
    Finds host value (name :: names) (file.ownDescent host (name :: names)) := by
  apply unfolds.finds_cons canonical shallow hinted passable (plain _ List.mem_cons_self)
  intro inner last less carries canonical fewer same passable
  rw [← same] at hinted passable
  exact carries.ownDescent canonical (Nat.le_trans fewer shallow) hinted passable
    fun other member => plain other (List.mem_cons_of_mem _ member)

end Descent

/-- No file on the way is disputed where nothing else is held: its address is longer than that of the
image it is in. -/
theorem clear_of_shorter (shorter : ∀ image ∈ file.held, image.image.url.length < file.url.length)
    (names : List String) : file.Clear host [] names := by
  induction names generalizing file with
  | nil => trivial
  | cons name names ih =>
    refine ⟨?_, ?_⟩
    · intro _ image member same
      rw [List.append_nil] at member
      obtain ⟨held, here, rfl⟩ := List.mem_map.1 member
      exact absurd (congrArg String.length same) (Nat.ne_of_lt (shorter held here))
    · intro inner found
      apply ih
      cases inside : file.isHostDirectory host with
      | true =>
        obtain ⟨path, node⟩ := exists_path inside
        rw [ownChild_of_directory node inside] at found
        split at found
        · cases found
          nofun
        · cases found
      | false =>
        rw [ownChild_of_container inside] at found
        cases own : file.own host with
        | error failure =>
          rw [own] at found
          cases found
        | ok image =>
          rw [own] at found
          dsimp only [Except.bind] at found
          split at found
          · rename_i entry after step
            cases found
            intro held here
            cases List.mem_singleton.1 here
            have longer := length_url_lt_ofEntry file ⟨0, image⟩ entry
            rw [← url_of_own own] at longer
            exact longer
          · cases found

end File

section Addresses

variable {config : Config} {customs : List FileSystem}

/-- File systems that are added later come after those of the formats. -/
theorem Registry.foldl_register (registry : Registry) (customs : List FileSystem) :
    customs.foldl register registry = { registry with systems := registry.systems ++ customs } := by
  induction customs generalizing registry with
  | nil => simp
  | cons system customs ih =>
    rw [List.foldl_cons, ih]
    simp [register]

theorem splitScheme_json (document : String) :
    splitScheme ("json:" ++ document) = some ("json", document) := by
  have chars : ("json:" ++ document).toList = "json".toList ++ ':' :: document.toList := by
    rw [String.toList_append]
    rfl
  unfold splitScheme
  rw [chars]
  have goes : ∀ char ∈ "json".toList, (char != ':') = true := List.all_eq_true.1 (by decide)
  dsimp only
  rw [List.takeWhile_append_of_pos goes, List.dropWhile_append_of_pos goes]
  simp

theorem generate?_json (customs : List FileSystem) (config : Config) (document : String) :
    (customs.foldl Registry.register (.standard config)).generate? ("json:" ++ document)
      = some (.ofFormat .json, .ok (.ofBytes (Utf8.encode document))) := by
  have schemed : FileSystem.hasSchemeOf .json ("json:" ++ document) = true := by
    unfold FileSystem.hasSchemeOf
    rw [splitScheme_json]
    change Generated.hasScheme "json" .json = true
    decide
  have parsed : Generated.parseUrl? ("json:" ++ document) = some (.json, document) := by
    unfold Generated.parseUrl?
    rw [splitScheme_json]
    rfl
  have content : (FileSystem.ofFormat .json).generate? ("json:" ++ document)
      = some (.ok (.ofBytes (Utf8.encode document))) := by
    unfold FileSystem.generate?
    dsimp only
    rw [if_pos schemed, parsed]
    rfl
  rw [Registry.foldl_register]
  unfold Registry.generate? Registry.standard Registry.standardFormats
  rw [List.map_cons, List.cons_append, List.findSome?_cons, content]
  rfl

end Addresses

namespace Desk

variable {desk : Desk} {config : Config} {customs : List FileSystem} {document : String} {value : Json}
  {label : String} {children : List (String × String)}

theorem finds_of_plain {host : Host} {names : List String} {outcome outcome' : Except Failure File}
    (same : outcome.map File.plain = outcome') (finds : File.Finds host value names outcome') :
    File.Finds host value names outcome := by
  subst same
  refine ⟨?_, ?_⟩
  · intro found reached
    obtain ⟨plain, step, shows⟩ := finds.1 found reached
    cases outcome with
    | error failure => cases step
    | ok last =>
      cases step
      exact ⟨last, rfl, File.shows_plain_iff.1 shows⟩
  · intro none
    have failed := finds.2 none
    cases outcome with
    | error failure => exact failed
    | ok last => cases failed

/-- The names of a path lead from a document without floating-point numbers to the value at that path,
through lists and records of whatever depth, and to nothing but a missing file if there is no value. -/
theorem document_by_step (reached : desk.Reached)
    (free : desk.store.broker.isSome = true → desk.held = [])
    (registered : desk.registry = customs.foldl Registry.register (.standard config))
    (parsed : Json.parse? (Utf8.encode document) = some value)
    (passable : value.Passable (children.map Prod.fst) config.limits.maxEntries)
    (down : children ≠ []) (plain : ∀ child ∈ children, Wildcard.Plain child.1)
    (fresh : ∀ name ∈ label :: children.map Prod.snd, desk.file? name = none) :
    (∃ root, (desk.openAt ("json:" ++ document) label).1 = .ok root) ∧
      File.Finds desk.host value (children.map Prod.fst)
        (desk.openByStep ("json:" ++ document) label children).1 := by
  have generated := generate?_json customs config document
  rw [← registered] at generated
  let root : File := .ofAddress desk.registry ("json:" ++ document) (.ofFormat .json)
    (.ofBytes (Utf8.encode document))
  have opened : desk.openAt ("json:" ++ document) label = (.ok root, desk.keepFile label root) := by
    rw [openAt, access, Registry.open_eq, generated]
    rfl
  refine ⟨⟨root, by rw [opened]⟩, ?_⟩
  rw [openByStep, opened]
  dsimp only
  have hinted : desk.registry.findHint? Document.hint = some (.ofFormat .json) := by
    rw [registered, Registry.foldl_register]
    rfl
  have limits : desk.registry.config.limits = config.limits := by
    rw [registered, Registry.foldl_register]
    rfl
  have unfolds : root.Unfolds desk.host value := ⟨rfl, rfl, _, rfl, parsed⟩
  have idle : root.held = [] := rfl
  have sound : desk.store.Sound (root.held ++ desk.held) := reached.sound
  have clear (brokered : desk.store.broker.isSome = true) :
      root.Clear desk.host (desk.held.map (·.image)) (children.map Prod.fst) := by
    rw [free brokered]
    exact File.clear_of_shorter (List.forall_mem_nil _) _
  have same := result_of_gives
    (File.descend_gives sound (tells_alive desk) (children.map Prod.fst) clear)
  rw [stepDown_keepFile reached.sound idle rfl fresh] at same
  cases children with
  | nil => exact absurd rfl down
  | cons child children =>
    have finds : File.Finds desk.host value (child.1 :: children.map Prod.fst)
        (root.ownDescent desk.host (child.1 :: children.map Prod.fst)) := by
      apply unfolds.ownDescent (Json.canonical_of_parse? parsed) (Nat.le_refl _) hinted
      · rw [← limits] at passable
        exact passable
      · intro name member
        rw [← List.map_cons (f := Prod.fst) (a := child)] at member
        obtain ⟨pair, here, rfl⟩ := List.mem_map.1 member
        exact plain pair here
    exact finds_of_plain same finds

/-- A record of one list, which has one text in it. -/
def listRecord : Json := .object [("a", .array [.string "x"])]

theorem reaches_listRecord {names : List String} {found : Json}
    (reached : listRecord.Reaches names found) :
    found = listRecord ∨ found = .array [.string "x"] ∨ found = .string "x" ∧ names = ["a", "0"] := by
  cases reached with
  | here => exact .inl rfl
  | member listed onward =>
    cases List.mem_singleton.1 listed
    cases onward with
    | here => exact .inr (.inl rfl)
    | @item _ place _ _ _ listed onward =>
      cases place with
      | succ place => cases listed
      | zero =>
        cases listed
        cases onward
        exact .inr (.inr ⟨rfl, rfl⟩)

theorem passable_listRecord : listRecord.Passable ["a", "0"] 4096 := by
  refine ⟨?_, ?_, ?_⟩
  · intro names number reached
    rcases reaches_listRecord reached with same | same | ⟨same, _⟩ <;> cases same
  · intro names inner reached
    rcases reaches_listRecord reached with rfl | rfl | ⟨rfl, _⟩ <;> decide
  · intro before inner _ proper reached
    rcases reaches_listRecord reached with rfl | rfl | ⟨_, whole⟩
    · rfl
    · rfl
    · exact absurd whole proper

/-- The text is found in the list of the record, and reads as it is, without quotation marks. -/
theorem document_by_step_of_listRecord :
    ∃ file, ((shared {} (.standard {})).openByStep
        "json:\x7b\"a\":[\"x\"]\x7d" "list" [("a", "list"), ("0", "text")]).1 = .ok file ∧
      file.Shows {} (.string "x") ∧ file.ReadsAs {} [0x78] := by
  have canonical : listRecord.Canonical 2 :=
    .object (by decide) (by simpa using .array (by simpa using .string 0 "x"))
  have parsed : Json.parse? (Utf8.encode "\x7b\"a\":[\"x\"]\x7d") = some listRecord :=
    Json.parse?_compact canonical (by decide) passable_listRecord.exact
  have path : listRecord.Reaches ["a", "0"] (.string "x") :=
    .member List.mem_cons_self (@Json.Reaches.item _ 0 _ _ _ rfl (.here _))
  have plain : ∀ child ∈ [("a", "list"), ("0", "text")], Wildcard.Plain child.1 := by
    simp [Wildcard.Plain]
  obtain ⟨file, found, shows⟩ := (@document_by_step (shared {} (.standard {})) {} [] _ _ "list"
    [("a", "list"), ("0", "text")] ⟨_, _, [], .inl rfl⟩ (fun _ => rfl) rfl parsed passable_listRecord
    nofun plain (fun _ _ => rfl)).2.1 _ path
  exact ⟨file, found, shows, shows.text "x" rfl⟩

end Desk
end RetroMedia
