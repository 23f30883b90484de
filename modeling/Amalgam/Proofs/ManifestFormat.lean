import Amalgam.Manifest
import Amalgam.Proofs.Artifacts
import Amalgam.Proofs.DecoderChecks

/-! # The format of a manifest

A manifest is an object with a list of entries, each an object that gives its fields by name.
Decoding accepts exactly the spellings of entries, in whatever order the fields stand and whether
an absent one is left out or null, and keeps every field. Otherwise the first check that fails
decides the error, where the checks of an entry come before those of the next.
-/

namespace Amalgam

theorem Platform.ofName?_eq_some_iff {s : Text} {platform : Platform} :
    ofName? s = some platform ↔ s = platform.name := by
  constructor
  · intro h
    have hName := List.find?_some (p := fun platform : Platform => platform.name = s) h
    exact (of_decide_eq_true hName).symm
  · rintro rfl
    cases platform <;> rfl

namespace Manifest

/-! ## Entries -/

/-- An entry names a file, relative to the manifest, or holds the text itself. -/
inductive Body where
  | file (path : Text)
  | inline (text : Text)

namespace Body

def path? : Body → Option Text
  | .file path => some path
  | .inline _ => none

def text? : Body → Option Text
  | .file _ => none
  | .inline text => some text

def content (root : Path) : Body → Content
  | .file path => .stored (root / .ofText path)
  | .inline text => .text text

end Body

/-- What an entry says, of a module of the registry and under a filename that is not empty. -/
structure Entry (registry : Registry) where
  module : ModuleInfo
  platform : Option Platform
  filename : Text
  body : Body
  groupingKey : Option Text
  priority : Int
  relativePath : Option Text
  dependencies : List Text
  origin : Option Text
  moduleKnown : module ∈ registry.modules
  filenameNonempty : filename ≠ ""

namespace Entry

variable {registry : Registry}

/-- An empty key counts as none. -/
def key (entry : Entry registry) : Text :=
  match entry.groupingKey with
  | none | some "" => entry.filename
  | some key => key

def sourcePath (entry : Entry registry) : Path :=
  match entry.origin with
  | none | some "" => entry.module.baseDir
  | some origin => entry.module.baseDir / .ofText origin

def item (root : Path) (entry : Entry registry) : Item where
  sourcePath := some entry.sourcePath
  origin := entry.origin
  kind := .payload <| .native {
    filename := entry.filename
    content := entry.body.content root
    groupingKey := entry.key
    priority := entry.priority
    relativePath := entry.relativePath
    dependencies := .ofList entry.dependencies }
  module := entry.module
  platform := entry.platform
  target := .all

end Entry

/-! ## Spellings -/

/-- The value of a field that may be absent or null. -/
def Gives (value : Option Json.Value) : Option Text → Prop
  | none => value = none ∨ value = some .null
  | some s => value = some (.text s)

/-- The value of a field that may be absent but not null. -/
def Numbers (value : Option Json.Value) (i : Int) : Prop :=
  value = some (.integer i) ∨ value = none ∧ i = 0

def Names (value : Option Json.Value) (names : List Text) : Prop :=
  value = some (.array (names.map .text)) ∨ value = none ∧ names = []

structure Spells {registry : Registry} (members : Json.Members) (entry : Entry registry) :
    Prop where
  known : ∀ name ∈ members.keys, name ∈ fields
  filename : members.get? "filename" = some (.text entry.filename)
  module : members.get? "module" = some (.text entry.module.name)
  platform : Gives (members.get? "platform") (entry.platform.map Platform.name)
  path : Gives (members.get? "path") entry.body.path?
  content : Gives (members.get? "content") entry.body.text?
  priority : Numbers (members.get? "grouping_priority") entry.priority
  dependencies : Names (members.get? "local_dependencies") entry.dependencies
  groupingKey : Gives (members.get? "grouping_key") entry.groupingKey
  relativePath : Gives (members.get? "relative_path") entry.relativePath
  origin : Gives (members.get? "source") entry.origin

def SpellsAll {registry : Registry} (value : Json.Value) (entries : List (Entry registry)) :
    Prop :=
  ∃ members values, value = .object members ∧
    Table.get? members "fragments" = some (.array values) ∧
    List.Forall₂ (fun value entry => ∃ members, value = .object members ∧ Spells members entry)
      values entries

/-! ## Checks -/

def optionalCheck (members : Json.Members) (filename field : Text) : Check ManifestError where
  holds := ∃ s, Gives (members.get? field) s
  error := .notText filename field

/-- The checks of an entry in order. Once the entry has a filename, errors name it by that. -/
def entryChecks (registry : Registry) (index : Nat) (value : Json.Value) :
    List (Check ManifestError) :=
  let members := Json.membersOf value
  let filename := members.textAt "filename"
  [ ⟨value = .object members, .fragmentNotObject index⟩,
    ⟨∀ name ∈ members.keys, name ∈ fields, .unknownFields index (members.unknown fields)⟩,
    ⟨∃ s, members.get? "filename" = some (.text s) ∧ s ≠ "", .filenameMissing index⟩,
    ⟨∃ s, members.get? "module" = some (.text s), .moduleMissing filename⟩,
    ⟨∃ m ∈ registry.modules, m.name = members.textAt "module",
      .unknownModule (members.textAt "module")⟩,
    ⟨∃ platform : Option Platform,
        Gives (members.get? "platform") (platform.map Platform.name),
      .unknownPlatform filename ((members.get? "platform").getD .null)⟩,
    optionalCheck members filename "path",
    optionalCheck members filename "content",
    ⟨∃ body : Body, Gives (members.get? "path") body.path? ∧
      Gives (members.get? "content") body.text?, .notOneContent filename⟩,
    ⟨∃ i, Numbers (members.get? "grouping_priority") i, .priorityNotInteger filename⟩,
    ⟨∃ names, Names (members.get? "local_dependencies") names, .dependenciesNotNames filename⟩,
    optionalCheck members filename "grouping_key",
    optionalCheck members filename "relative_path",
    optionalCheck members filename "source" ]

/-- The checks of a manifest: those of the document, then those of its entries in turn. -/
def checks (path : Path) (registry : Registry) (value : Json.Value) : List (Check ManifestError) :=
  let members := Json.membersOf value
  [ ⟨value = .object members, .notObject path⟩,
    ⟨∃ values, Table.get? members "fragments" = some (.array values), .noFragmentList path⟩ ] ++
  (Json.elementsOf (Table.get? members "fragments")).zipIdx.flatMap fun entry =>
    entryChecks registry entry.2 entry.1

/-! ## Fields -/

section Fields

variable {registry : Registry} {members : Json.Members} {index : Nat} {filename field : Text}

theorem optionalText_eq_ok_iff {s : Option Text} :
    optionalText members filename field = .ok s ↔ Gives (members.get? field) s := by
  rw [optionalText]
  split <;> cases s <;> simp_all [Gives]

theorem guards_optionalText :
    Guards [optionalCheck members filename field]
      (optionalText members filename field) := by
  refine .one (by simp only [optionalText_eq_ok_iff]) fun e he => ?_
  rw [optionalText] at he
  split at he <;> cases he
  rfl

theorem decodeFilename_eq_nonemptyText :
    decodeFilename members index =
      Json.nonemptyText (.filenameMissing index) (members.get? "filename") := rfl

theorem decodeFilename_eq_ok_iff {s : Text} :
    decodeFilename members index = .ok s ↔ members.get? "filename" = some (.text s) ∧ s ≠ "" := by
  rw [decodeFilename_eq_nonemptyText, Json.nonemptyText_eq_ok_iff]

theorem guards_decodeFilename :
    Guards [⟨∃ s, members.get? "filename" = some (.text s) ∧ s ≠ "", .filenameMissing index⟩]
      (decodeFilename members index) := by
  rw [decodeFilename_eq_nonemptyText]
  exact Json.guards_nonemptyText

theorem decodeModule_eq_ok_iff {m : ModuleInfo} :
    decodeModule registry members filename = .ok m ↔
      m ∈ registry.modules ∧ members.get? "module" = some (.text m.name) := by
  rw [decodeModule]
  split
  · next name hText =>
    simp only [hText, Option.some.injEq, Json.Value.text.injEq, eq_comm (a := name)]
    rw [← Registry.lookup?_eq_some_iff]
    cases registry.lookup? name <;> simp
  · next hOther => simpa using fun _ hText => hOther m.name hText

theorem guards_decodeModule :
    Guards [
        ⟨∃ s, members.get? "module" = some (.text s), .moduleMissing filename⟩,
        ⟨∃ m ∈ registry.modules, m.name = members.textAt "module",
          .unknownModule (members.textAt "module")⟩]
      (decodeModule registry members filename) := by
  intro e
  rw [decodeModule, Json.Members.textAt]
  simp only [FirstFails, and_false, or_false]
  split
  · next name hText =>
    simp only [hText, ← Registry.lookup?_eq_some_iff]
    cases registry.lookup? name <;> simp [eq_comm]
  · next hOther =>
    have hNone : ¬∃ s, members.get? "module" = some (.text s) := not_exists.mpr hOther
    simp [hNone]

theorem decodePlatform_eq_ok_iff {platform : Option Platform} :
    decodePlatform members filename = .ok platform ↔
      Gives (members.get? "platform") (platform.map Platform.name) := by
  rw [decodePlatform]
  split
  · next hAbsent => cases platform <;> simp [hAbsent, Gives]
  · next hNull => cases platform <;> simp [hNull, Gives]
  · next s hText =>
    cases platform with
    | none =>
      simp only [hText, Gives, Option.map_none, Option.some.injEq, reduceCtorEq, or_self, iff_false]
      split <;> exact nofun
    | some platform =>
      simp only [hText, Gives, Option.map_some, Option.some.injEq, Json.Value.text.injEq,
        ← Platform.ofName?_eq_some_iff]
      cases Platform.ofName? s <;> simp
  · next value hNotNull hNotText hValue =>
    cases platform with
    | none => simpa [hValue, Gives] using hNotNull
    | some platform => simpa [hValue, Gives] using hNotText platform.name

theorem guards_decodePlatform :
    Guards [⟨∃ platform : Option Platform,
          Gives (members.get? "platform") (platform.map Platform.name),
        .unknownPlatform filename ((members.get? "platform").getD .null)⟩]
      (decodePlatform members filename) := by
  refine .one (by simp only [decodePlatform_eq_ok_iff]) fun e he => ?_
  rw [decodePlatform] at he
  split at he
  · cases he
  · cases he
  · next s hText =>
    split at he <;> cases he
    rw [hText, Option.getD_some]
  · next hValue =>
    cases he
    rw [hValue, Option.getD_some]

theorem reads_decodePriority :
    Json.Reads (members.get? "grouping_priority") .integer 0 (.priorityNotInteger filename)
      (decodePriority members filename) where
  absent h := by rw [decodePriority, h]
  spelled i h := by rw [decodePriority, h]
  other value h hOther := by
    rw [decodePriority, h]
    cases value with
    | integer i => exact absurd rfl (hOther i)
    | _ => rfl

theorem decodePriority_eq_ok_iff {i : Int} :
    decodePriority members filename = .ok i ↔ Numbers (members.get? "grouping_priority") i :=
  reads_decodePriority.eq_ok_iff

theorem guards_decodePriority :
    Guards [⟨∃ i, Numbers (members.get? "grouping_priority") i, .priorityNotInteger filename⟩]
      (decodePriority members filename) :=
  reads_decodePriority.guards

theorem texts?_eq_some_iff {values : List Json.Value} {names : List Text} :
    texts? values = some names ↔ values = names.map .text := by
  induction values generalizing names with
  | nil => cases names <;> simp [texts?]
  | cons value rest ih =>
    cases value with
    | text s => cases names <;> simp [texts?, ih, and_comm]
    | _ => cases names <;> simp [texts?]

theorem decodeDependencies_eq_ok_iff {dependencies : NameSet} :
    decodeDependencies members filename = .ok dependencies ↔
      ∃ names, Names (members.get? "local_dependencies") names ∧ dependencies = .ofList names := by
  rw [decodeDependencies]
  split
  · next hAbsent =>
    simp only [hAbsent, Names, reduceCtorEq, true_and, false_or, exists_eq_left]
    rw [Except.ok.injEq, eq_comm]
    rfl
  · next values hValues =>
    simp only [hValues, Names, Option.some.injEq, Json.Value.array.injEq, reduceCtorEq, false_and,
      or_false, ← texts?_eq_some_iff]
    cases texts? values <;> simp [eq_comm]
  · next value hOther hValue =>
    simpa [hValue, Names] using fun names h => absurd h (hOther _)

theorem guards_decodeDependencies :
    Guards [⟨∃ names, Names (members.get? "local_dependencies") names,
        .dependenciesNotNames filename⟩]
      (decodeDependencies members filename) := by
  refine .one ?_ fun e he => ?_
  · simp only [decodeDependencies_eq_ok_iff, exists_comm (β := List Text),
      exists_and_left, exists_eq, and_true]
  · rw [decodeDependencies] at he
    split at he
    · cases he
    · split at he <;> cases he
      rfl
    · cases he
      rfl

theorem decodeContent_eq_ok_iff {root : Path} {content : Content} :
    decodeContent root members filename = .ok content ↔
      ∃ body : Body, (Gives (members.get? "path") body.path? ∧
        Gives (members.get? "content") body.text?) ∧ content = body.content root := by
  simp only [decodeContent, bind_eq_ok_iff, optionalText_eq_ok_iff]
  constructor
  · rintro ⟨path, hPath, text, hText, hContent⟩
    split at hContent <;> cases hContent
    · next path => exact ⟨.file path, ⟨hPath, hText⟩, rfl⟩
    · next text => exact ⟨.inline text, ⟨hPath, hText⟩, rfl⟩
  · rintro ⟨body, ⟨hPath, hText⟩, rfl⟩
    refine ⟨body.path?, hPath, body.text?, hText, ?_⟩
    cases body <;> rfl

theorem guards_decodeContent {root : Path} :
    Guards [
        optionalCheck members filename "path",
        optionalCheck members filename "content",
        ⟨∃ body : Body, Gives (members.get? "path") body.path? ∧
          Gives (members.get? "content") body.text?, .notOneContent filename⟩]
      (decodeContent root members filename) := by
  refine guards_optionalText.bind fun path hPath => ?_
  refine guards_optionalText.bind fun text hText => ?_
  refine .one ?_ fun e he => ?_
  · have hOk : ∀ content, decodeContent root members filename = .ok content ↔ _ :=
      fun _ => decodeContent_eq_ok_iff
    simp only [decodeContent, hPath, hText, ok_bind] at hOk
    simp only [hOk, exists_comm (α := Content), exists_and_left, exists_eq, and_true]
  · split at he <;> cases he
    rfl

end Fields

/-! ## Entries decoded -/

section Entries

variable {registry : Registry} {index : Nat} {root : Path}

theorem groupingKey_eq_key (entry : Entry registry) :
    groupingKey entry.filename entry.groupingKey = entry.key := by
  rw [Entry.key]
  split
  · next hNone => rw [hNone, groupingKey]
  · next hEmpty =>
    rw [hEmpty, groupingKey]
    exact if_pos rfl
  · next key hNonempty hKey =>
    rw [hKey, groupingKey]
    exact if_neg hNonempty

theorem sourcePath_eq_sourcePath (entry : Entry registry) :
    sourcePath entry.module entry.origin = entry.sourcePath := by
  rw [Entry.sourcePath]
  split
  · next hNone => rw [hNone, sourcePath]
  · next hEmpty =>
    rw [hEmpty, sourcePath]
    exact if_pos rfl
  · next origin hNonempty hOrigin =>
    rw [hOrigin, sourcePath]
    exact if_neg hNonempty

theorem decodeFragment_eq_ok_iff {value : Json.Value} {item : Item} :
    decodeFragment root registry index value = .ok item ↔
      ∃ entry : Entry registry, (∃ members, value = .object members ∧ Spells members entry) ∧
        item = entry.item root := by
  cases value with
  | object members =>
    simp only [Json.Value.object.injEq, exists_eq_left', decodeFragment]
    split
    · next hUnknown =>
      refine iff_of_false nofun ?_
      rintro ⟨entry, h, _⟩
      exact hUnknown (Json.Members.unknown_eq_nil_iff.mpr h.known)
    · next hKnown =>
      simp only [bind_eq_ok_iff, decodeFilename_eq_ok_iff, decodeModule_eq_ok_iff,
        decodePlatform_eq_ok_iff, decodeContent_eq_ok_iff, decodePriority_eq_ok_iff,
        decodeDependencies_eq_ok_iff, optionalText_eq_ok_iff]
      constructor
      · rintro ⟨filename, ⟨hFilename, hNonempty⟩, m, ⟨hListed, hModule⟩, platform, hPlatform, _,
          ⟨body, ⟨hPath, hContent⟩, rfl⟩, priority, hPriority, _,
          ⟨dependencies, hDependencies, rfl⟩, key, hKey, relativePath, hRelative, origin, hOrigin,
          hItem⟩
        cases hItem
        let entry : Entry registry := {
          module := m, platform, filename, body, groupingKey := key, priority, relativePath,
          dependencies, origin, moduleKnown := hListed, filenameNonempty := hNonempty }
        refine ⟨entry, ⟨Json.Members.unknown_eq_nil_iff.mp (not_not.mp hKnown), hFilename, hModule,
          hPlatform, hPath, hContent, hPriority, hDependencies, hKey, hRelative, hOrigin⟩, ?_⟩
        rw [Entry.item, ← groupingKey_eq_key, ← sourcePath_eq_sourcePath]
      · rintro ⟨entry, h, rfl⟩
        refine ⟨entry.filename, ⟨h.filename, entry.filenameNonempty⟩, entry.module,
          ⟨entry.moduleKnown, h.module⟩, entry.platform, h.platform, _,
          ⟨entry.body, ⟨h.path, h.content⟩, rfl⟩, entry.priority, h.priority, _,
          ⟨entry.dependencies, h.dependencies, rfl⟩, entry.groupingKey, h.groupingKey,
          entry.relativePath, h.relativePath, entry.origin, h.origin, ?_⟩
        rw [groupingKey_eq_key, sourcePath_eq_sourcePath]
        rfl
  | _ =>
    constructor
    · intro h
      cases h
    · rintro ⟨_, ⟨_, h, _⟩, _⟩
      cases h

theorem guards_decodeFragment {value : Json.Value} :
    Guards (entryChecks registry index value) (decodeFragment root registry index value) := by
  cases value with
  | object members =>
    simp only [decodeFragment, entryChecks, Json.membersOf]
    refine .pass trivial ?_
    split
    · next hUnknown => exact .stop fun h => hUnknown (Json.Members.unknown_eq_nil_iff.mpr h)
    · next hKnown =>
      refine .pass (Json.Members.unknown_eq_nil_iff.mp (not_not.mp hKnown)) ?_
      refine guards_decodeFilename.bind fun filename hFilename => ?_
      have hText : Json.Members.textAt members "filename" = filename :=
        Json.Members.textAt_eq (decodeFilename_eq_ok_iff.mp hFilename).1
      rw [hText]
      exact guards_decodeModule.bind fun m _ => guards_decodePlatform.bind fun platform _ =>
        guards_decodeContent.bind fun content _ => guards_decodePriority.bind fun priority _ =>
        guards_decodeDependencies.bind fun dependencies _ => guards_optionalText.bind fun key _ =>
        guards_optionalText.bind fun relativePath _ => guards_optionalText.map _
  | _ =>
    refine .stop fun h => ?_
    cases h

theorem decodeFragments_eq_ok_iff {values : List Json.Value} {items : List Item} :
    decodeFragments root registry index values = .ok items ↔
      ∃ entries : List (Entry registry), List.Forall₂ (fun value entry =>
          ∃ members, value = .object members ∧ Spells members entry) values entries ∧
        items = entries.map (Entry.item root) := by
  induction values generalizing index items with
  | nil => simp [decodeFragments, eq_comm]
  | cons value rest ih =>
    rw [decodeFragments]
    simp only [bind_eq_ok_iff, decodeFragment_eq_ok_iff, ih,
      List.forall₂_cons_left_iff]
    constructor
    · rintro ⟨_, ⟨entry, hSpells, rfl⟩, _, ⟨entries, hRest, rfl⟩, hItems⟩
      cases hItems
      exact ⟨entry :: entries, ⟨entry, entries, hSpells, hRest, rfl⟩, rfl⟩
    · rintro ⟨_, ⟨entry, entries, hSpells, hRest, rfl⟩, rfl⟩
      exact ⟨_, ⟨entry, hSpells, rfl⟩, _, ⟨entries, hRest, rfl⟩, rfl⟩

theorem guards_decodeFragments {values : List Json.Value} :
    Guards ((values.zipIdx index).flatMap fun entry => entryChecks registry entry.2 entry.1)
      (decodeFragments root registry index values) := by
  induction values generalizing index with
  | nil => exact .ok []
  | cons value rest ih =>
    rw [List.zipIdx_cons, List.flatMap_cons, decodeFragments]
    refine guards_decodeFragment.bind fun item _ => ?_
    exact ih.map (item :: ·)

end Entries

/-! ## Documents -/

section Documents

variable {path : Path} {registry : Registry}

theorem decode_eq_listUnder {value : Json.Value} :
    decode path registry value =
      Json.listUnder "fragments" (.notObject path) (.noFragmentList path)
        (decodeFragments path.parent registry 0) value := rfl

theorem decode_eq_ok_iff {value : Json.Value} {items : List Item} :
    decode path registry value = .ok items ↔
      ∃ entries : List (Entry registry), SpellsAll value entries ∧
        items = entries.map (Entry.item path.parent) := by
  simp only [decode_eq_listUnder, Json.listUnder_eq_ok_iff, decodeFragments_eq_ok_iff, SpellsAll]
  constructor
  · rintro ⟨members, values, hObject, hList, entries, hEntries, rfl⟩
    exact ⟨entries, ⟨members, values, hObject, hList, hEntries⟩, rfl⟩
  · rintro ⟨entries, ⟨members, values, hObject, hList, hEntries⟩, rfl⟩
    exact ⟨members, values, hObject, hList, entries, hEntries, rfl⟩

theorem guards_decode {value : Json.Value} :
    Guards (checks path registry value) (decode path registry value) := by
  rw [decode_eq_listUnder]
  exact Json.guards_listUnder fun _ => guards_decodeFragments

/-! ## The documented spelling -/

/-- The members that are there. -/
def present (members : List (Text × Option Json.Value)) : Json.Members :=
  members.filterMap fun member => member.2.map (member.1, ·)

/-- An entry with its fields in order, each left out that the entry does not have. -/
def Entry.members (entry : Entry registry) : Json.Members :=
  present [
    ("module", some (.text entry.module.name)),
    ("platform", entry.platform.map fun platform => .text platform.name),
    ("filename", some (.text entry.filename)),
    ("path", entry.body.path?.map .text),
    ("content", entry.body.text?.map .text),
    ("grouping_key", entry.groupingKey.map .text),
    ("grouping_priority", some (.integer entry.priority)),
    ("relative_path", entry.relativePath.map .text),
    ("local_dependencies", some (.array (entry.dependencies.map .text))),
    ("source", entry.origin.map .text)]

def document (entries : List (Entry registry)) : Json.Value :=
  .object [("fragments", .array (entries.map fun entry => .object entry.members))]

theorem get?_present_cons (name field : Text) (value : Option Json.Value)
    (rest : List (Text × Option Json.Value)) :
    Table.get? (present ((name, value) :: rest)) field =
      if name = field then value.or (Table.get? (present rest) field)
      else Table.get? (present rest) field := by
  cases value <;> simp [present, Table.get?]

@[simp] theorem get?_present_nil (field : Text) : Table.get? (present []) field = none := rfl

theorem keys_present (members : List (Text × Option Json.Value)) :
    Table.keys (present members) ⊆ members.map Prod.fst := by
  intro name hName
  simp only [Table.keys, present, List.mem_map, List.mem_filterMap, Option.map_eq_some_iff] at hName
  obtain ⟨_, ⟨member, hMember, _, _, rfl⟩, rfl⟩ := hName
  exact List.mem_map_of_mem hMember

theorem gives_map_text (s : Option Text) : Gives (s.map .text) s := by
  cases s with
  | none => exact .inl rfl
  | some s => rfl

theorem spells_members (entry : Entry registry) : Spells entry.members entry where
  known := keys_present _
  filename := by simp [Entry.members, get?_present_cons]
  module := by simp [Entry.members, get?_present_cons]
  platform := by
    have h := gives_map_text (entry.platform.map Platform.name)
    simpa [Entry.members, get?_present_cons, Function.comp_def] using h
  path := by simpa [Entry.members, get?_present_cons] using gives_map_text entry.body.path?
  content := by simpa [Entry.members, get?_present_cons] using gives_map_text entry.body.text?
  priority := .inl (by simp [Entry.members, get?_present_cons])
  dependencies := .inl (by simp [Entry.members, get?_present_cons])
  groupingKey := by simpa [Entry.members, get?_present_cons] using gives_map_text entry.groupingKey
  relativePath := by
    simpa [Entry.members, get?_present_cons] using gives_map_text entry.relativePath
  origin := by simpa [Entry.members, get?_present_cons] using gives_map_text entry.origin

theorem spellsAll_document (entries : List (Entry registry)) :
    SpellsAll (document entries) entries := by
  refine ⟨_, _, rfl, rfl, ?_⟩
  rw [List.forall₂_map_left_iff]
  exact List.forall₂_same.mpr fun entry _ => ⟨entry.members, rfl, spells_members entry⟩

end Documents

/-- Decoding ends well exactly if all checks hold. It then yields what the spelled entries say, and
otherwise ends with the error of the first check that fails. -/
theorem decode_reads_spellings (path : Path) (registry : Registry) (value : Json.Value) :
    ((∃ items, decode path registry value = .ok items) ↔
      ∀ check ∈ checks path registry value, check.holds) ∧
    (∀ items, decode path registry value = .ok items ↔
      ∃ entries : List (Entry registry), SpellsAll value entries ∧
        items = entries.map (Entry.item path.parent)) ∧
    (∀ e, decode path registry value = .error e ↔ FirstFails (checks path registry value) e) ∧
    ∀ entries : List (Entry registry),
      decode path registry (document entries) = .ok (entries.map (Entry.item path.parent)) :=
  ⟨guards_decode.exists_ok_iff, fun _ => decode_eq_ok_iff, guards_decode, fun entries =>
    decode_eq_ok_iff.mpr ⟨entries, spellsAll_document entries, rfl⟩⟩

/-- The module is looked up before the platform is read. -/
example :
    decode .here .empty (.object [("fragments", .array [.object [("platform", .text "tv"),
      ("module", .text "Core"), ("filename", .text "A.m")]])]) =
    .error (.unknownModule "Core") := rfl

end Manifest

end Amalgam
