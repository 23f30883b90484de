import Amalgam.Proofs.ManifestFormat

/-! # The format of a registry

A registry is an object with a list of entries, each an object that describes a module by name.
Decoding accepts exactly the lists of entries that describe modules with distinct names, and keeps
the modules in order. Otherwise the first check that fails decides the error. The checks of an entry
end with the one that its name is new, and come before those of the next.
-/

namespace Amalgam

theorem IosLanguage.ofName?_eq_some_iff {s : Text} {language : IosLanguage} :
    ofName? s = some language ↔ s = language.name := by
  constructor
  · intro h
    have hName := List.find?_some (p := fun language : IosLanguage => language.name = s) h
    exact (of_decide_eq_true hName).symm
  · rintro rfl
    cases language <;> rfl

namespace Registry

open Json (Sets Reads)

open Manifest (Gives)

/-! ## Descriptions -/

/-- What the members of an entry say of a module, whose directory is resolved against the root. -/
structure Describes (root : Path) (members : Json.Members) (m : ModuleInfo) : Prop where
  name : members.get? "name" = some (.text m.name)
  nameNonempty : m.name ≠ ""
  known : ∀ name ∈ members.keys, name ∈ fields
  baseDir : ∃ dir, Sets (members.get? "base_dir") .text m.name dir ∧
    m.baseDir = root / .ofText dir
  iosLanguage : Sets (members.get? "ios_language") (.text ·.name) .objc m.iosLanguage
  iosName : ∃ s, Gives (members.get? "ios_module_name") s ∧
    m.iosNameOverride = s.filter (· ≠ ("" : Text))
  singleFile : Sets (members.get? "single_file_codegen") .bool false m.singleFile
  android : Sets (members.get? "android_codegen") .bool false m.android
  ios : Sets (members.get? "ios_codegen") .bool false m.ios
  cpp : Sets (members.get? "cpp_codegen") .bool false m.cpp

def Entry (root : Path) (value : Json.Value) (m : ModuleInfo) : Prop :=
  ∃ members, value = .object members ∧ Describes root members m

def Entries (root : Path) (value : Json.Value) (modules : List ModuleInfo) : Prop :=
  ∃ members values, value = .object members ∧
    Table.get? members "modules" = some (.array values) ∧
    List.Forall₂ (Entry root) values modules

/-! ## Checks -/

def nameOf (value : Json.Value) : Text := (Json.membersOf value).textAt "name"

def flagCheck (members : Json.Members) (name field : Text) : Check RegistryError where
  holds := ∃ b, Sets (members.get? field) .bool false b
  error := .flagNotBool name field

/-- The checks of an entry in order, less the one that compares it with others. Once the entry has
a name, errors name it by that. -/
def entryChecks (value : Json.Value) : List (Check RegistryError) :=
  let members := Json.membersOf value
  let name := nameOf value
  [ ⟨value = .object members, .entryNotObject⟩,
    ⟨∃ s, members.get? "name" = some (.text s) ∧ s ≠ "", .nameMissing⟩,
    ⟨∀ field ∈ members.keys, field ∈ fields, .unknownFields name (members.unknown fields)⟩,
    ⟨∃ dir, Sets (members.get? "base_dir") .text name dir, .baseDirNotText name⟩,
    ⟨∃ language : IosLanguage, Sets (members.get? "ios_language") (.text ·.name) .objc language,
      .unknownLanguage name ((members.get? "ios_language").getD .null)⟩,
    ⟨∃ s, Gives (members.get? "ios_module_name") s, .iosNameNotText name⟩,
    flagCheck members name "single_file_codegen",
    flagCheck members name "android_codegen",
    flagCheck members name "ios_codegen",
    flagCheck members name "cpp_codegen" ]

def newNameCheck (earlier : List Text) (name : Text) : Check RegistryError where
  holds := name ∉ earlier
  error := .duplicateName name

/-- The checks of a registry: those of the document, then those of its entries in turn. -/
def checks (path : Path) (value : Json.Value) : List (Check RegistryError) :=
  let members := Json.membersOf value
  let values := Json.elementsOf (Table.get? members "modules")
  [ ⟨value = .object members, .notObject path⟩,
    ⟨∃ values, Table.get? members "modules" = some (.array values), .noModuleList path⟩ ] ++
  values.zipIdx.flatMap fun entry =>
    entryChecks entry.1 ++ [newNameCheck ((values.take entry.2).map nameOf) (nameOf entry.1)]

/-! ## Fields -/

section Fields

variable {members : Json.Members} {name field : Text}

theorem decodeName_eq_nonemptyText :
    decodeName members = Json.nonemptyText .nameMissing (members.get? "name") := rfl

theorem decodeName_eq_ok_iff {s : Text} :
    decodeName members = .ok s ↔ members.get? "name" = some (.text s) ∧ s ≠ "" := by
  rw [decodeName_eq_nonemptyText, Json.nonemptyText_eq_ok_iff]

theorem guards_decodeName :
    Guards [⟨∃ s, members.get? "name" = some (.text s) ∧ s ≠ "", .nameMissing⟩]
      (decodeName members) := by
  rw [decodeName_eq_nonemptyText]
  exact Json.guards_nonemptyText

theorem reads_decodeBaseDir :
    Reads (members.get? "base_dir") .text name (.baseDirNotText name)
      (decodeBaseDir members name) where
  absent h := by rw [decodeBaseDir, h]
  spelled dir h := by rw [decodeBaseDir, h]
  other value h hOther := by
    rw [decodeBaseDir, h]
    cases value with
    | text s => exact absurd rfl (hOther s)
    | _ => rfl

theorem reads_decodeLanguage :
    Reads (members.get? "ios_language") (fun language : IosLanguage => .text language.name) .objc
      (.unknownLanguage name ((members.get? "ios_language").getD .null))
      (decodeLanguage members name) where
  absent h := by rw [decodeLanguage, h]
  spelled language h := by
    rw [decodeLanguage, h]
    simp only [IosLanguage.ofName?_eq_some_iff.mpr rfl]
  other value h hOther := by
    rw [decodeLanguage, h, Option.getD_some]
    cases value with
    | text s =>
      cases hName : IosLanguage.ofName? s with
      | none => simp only [hName]
      | some language =>
        exact absurd (congrArg _ (IosLanguage.ofName?_eq_some_iff.mp hName)) (hOther language)
    | _ => rfl

theorem reads_decodeFlag :
    Reads (members.get? field) .bool false (.flagNotBool name field)
      (decodeFlag members name field) where
  absent h := by rw [decodeFlag, h]
  spelled b h := by rw [decodeFlag, h]
  other value h hOther := by
    rw [decodeFlag, h]
    cases value with
    | bool b => exact absurd rfl (hOther b)
    | _ => rfl

theorem decodeIosName_eq_ok_iff {override : Option Text} :
    decodeIosName members name = .ok override ↔
      ∃ s, Gives (members.get? "ios_module_name") s ∧ override = s.filter (· ≠ ("" : Text)) := by
  rw [decodeIosName]
  split
  · next hAbsent => simp [hAbsent, Gives, Option.exists, eq_comm]
  · next hNull => simp [hNull, Gives, Option.exists, eq_comm]
  · next s hText =>
    simp only [hText, Gives, Option.exists, Option.some.injEq, Json.Value.text.injEq, reduceCtorEq,
      or_self, false_and, false_or, exists_eq_left', Except.ok.injEq]
    by_cases hEmpty : s = "" <;> simp [hEmpty, Option.filter, eq_comm]
  · next value hNotNull hNotText hValue =>
    have hNull : value ≠ .null := hNotNull
    have hText : ∀ s, value ≠ .text s := hNotText
    simp [hValue, Gives, Option.exists, hNull, hText]

theorem guards_decodeIosName :
    Guards [⟨∃ s, Gives (members.get? "ios_module_name") s, .iosNameNotText name⟩]
      (decodeIosName members name) := by
  refine .one ?_ fun e he => ?_
  · simp only [decodeIosName_eq_ok_iff, exists_comm (α := Option Text) (β := Option Text),
      exists_and_left, exists_eq, and_true]
  · rw [decodeIosName] at he
    split at he <;> cases he
    rfl

end Fields

/-! ## Entries -/

section Entries

variable {root : Path}

theorem decodeEntry_eq_ok_iff {value : Json.Value} {m : ModuleInfo} :
    decodeEntry root value = .ok m ↔ Entry root value m := by
  cases value with
  | object members =>
    simp only [Entry, Json.Value.object.injEq, exists_eq_left', decodeEntry, bind_eq_ok_iff]
    constructor
    · rintro ⟨name, hName, h⟩
      obtain ⟨hText, hNonempty⟩ := decodeName_eq_ok_iff.mp hName
      split at h
      · cases h
      · next hKnown =>
        simp only [bind_eq_ok_iff, reads_decodeBaseDir.eq_ok_iff, reads_decodeLanguage.eq_ok_iff,
          decodeIosName_eq_ok_iff, reads_decodeFlag.eq_ok_iff] at h
        obtain ⟨dir, hDir, language, hLanguage, override, hIosName, singleFile, hSingle, android,
          hAndroid, ios, hIos, cpp, hCpp, hModule⟩ := h
        cases hModule
        exact ⟨hText, hNonempty, Json.Members.unknown_eq_nil_iff.mp (not_not.mp hKnown),
          ⟨dir, hDir, rfl⟩, hLanguage, hIosName, hSingle, hAndroid, hIos, hCpp⟩
    · intro h
      obtain ⟨dir, hDir, hBaseDir⟩ := h.baseDir
      refine ⟨m.name, decodeName_eq_ok_iff.mpr ⟨h.name, h.nameNonempty⟩, ?_⟩
      rw [if_neg (not_not.mpr (Json.Members.unknown_eq_nil_iff.mpr h.known))]
      simp only [bind_eq_ok_iff, reads_decodeBaseDir.eq_ok_iff, reads_decodeLanguage.eq_ok_iff,
        decodeIosName_eq_ok_iff, reads_decodeFlag.eq_ok_iff]
      refine ⟨dir, hDir, _, h.iosLanguage, _, h.iosName, _, h.singleFile, _, h.android, _, h.ios, _,
        h.cpp, ?_⟩
      rw [← hBaseDir]
      rfl
  | _ =>
    constructor
    · intro h
      cases h
    · rintro ⟨_, h, _⟩
      cases h

theorem guards_decodeEntry {value : Json.Value} :
    Guards (entryChecks value) (decodeEntry root value) := by
  cases value with
  | object members =>
    simp only [decodeEntry, entryChecks, nameOf, Json.membersOf]
    refine .pass trivial (guards_decodeName.bind fun name hName => ?_)
    have hText : Json.Members.textAt members "name" = name :=
      Json.Members.textAt_eq (decodeName_eq_ok_iff.mp hName).1
    rw [hText]
    split
    · next hUnknown => exact .stop fun h => hUnknown (Json.Members.unknown_eq_nil_iff.mpr h)
    · next hKnown =>
      refine .pass (Json.Members.unknown_eq_nil_iff.mp (not_not.mp hKnown)) ?_
      exact reads_decodeBaseDir.guards.bind fun dir _ =>
        reads_decodeLanguage.guards.bind fun language _ =>
        guards_decodeIosName.bind fun override _ =>
        reads_decodeFlag.guards.bind fun singleFile _ =>
        reads_decodeFlag.guards.bind fun android _ =>
        reads_decodeFlag.guards.bind fun ios _ => reads_decodeFlag.guards.map _
  | _ =>
    refine .stop fun h => ?_
    cases h

theorem nameOf_of_decodeEntry {value : Json.Value} {m : ModuleInfo}
    (h : decodeEntry root value = .ok m) : nameOf value = m.name := by
  obtain ⟨members, rfl, hDescribes⟩ := decodeEntry_eq_ok_iff.mp h
  exact Json.Members.textAt_eq hDescribes.name

theorem eq_iff_modules_eq {r r' : Registry} : r = r' ↔ r.modules = r'.modules := by
  cases r
  cases r'
  rw [mk.injEq]

theorem add_eq_ok_iff {r r' : Registry} {m : ModuleInfo} :
    r.add m = .ok r' ↔ r'.modules = r.modules ++ [m] := by
  rw [add]
  split
  · next hListed =>
    refine iff_of_false nofun fun hModules => ?_
    have hDistinct := r'.distinct
    rw [hModules, List.map_append, List.nodup_append] at hDistinct
    exact hDistinct.2.2 _ hListed _ (List.mem_singleton.mpr rfl) rfl
  · rw [Except.ok.injEq, eq_comm, eq_iff_modules_eq]

theorem guards_add {r : Registry} {m : ModuleInfo} :
    Guards [newNameCheck (r.modules.map (·.name)) m.name] (r.add m) := by
  rw [add]
  split
  · next hListed => exact .stop (not_not.mpr hListed)
  · next hNew => exact .pass hNew (.ok _)

theorem decodeEntries_eq_ok_iff {r r' : Registry} {values : List Json.Value} :
    decodeEntries root r values = .ok r' ↔
      ∃ modules, List.Forall₂ (Entry root) values modules ∧
        r'.modules = r.modules ++ modules := by
  induction values generalizing r with
  | nil =>
    rw [decodeEntries, Except.ok.injEq, eq_comm, eq_iff_modules_eq]
    simp only [List.forall₂_nil_left_iff, exists_eq_left, List.append_nil]
  | cons value rest ih =>
    simp only [decodeEntries, bind_eq_ok_iff, decodeEntry_eq_ok_iff, ih,
      List.forall₂_cons_left_iff]
    constructor
    · rintro ⟨m, hDescribes, added, hAdded, modules, hRest, hModules⟩
      refine ⟨m :: modules, ⟨m, modules, hDescribes, hRest, rfl⟩, ?_⟩
      rw [hModules, add_eq_ok_iff.mp hAdded, List.append_assoc, List.singleton_append]
    · rintro ⟨_, ⟨m, modules, hDescribes, hRest, rfl⟩, hModules⟩
      rw [List.append_cons] at hModules
      -- A part of a registry is a registry.
      have hDistinct := r'.distinct
      rw [hModules, List.map_append, List.nodup_append] at hDistinct
      exact ⟨m, hDescribes, ⟨r.modules ++ [m], hDistinct.1⟩, add_eq_ok_iff.mpr rfl, modules, hRest,
        hModules⟩

theorem guards_decodeEntries {r : Registry} {before rest : List Json.Value}
    (h : r.modules.map (·.name) = before.map nameOf) :
    Guards ((rest.zipIdx before.length).flatMap fun entry => entryChecks entry.1 ++
        [newNameCheck (((before ++ rest).take entry.2).map nameOf) (nameOf entry.1)])
      (decodeEntries root r rest) := by
  induction rest generalizing r before with
  | nil => exact .ok r
  | cons value rest ih =>
    have hLength : (before ++ [value]).length = before.length + 1 := List.length_append
    rw [List.zipIdx_cons, List.flatMap_cons, List.take_left, List.append_assoc, decodeEntries]
    refine guards_decodeEntry.bind fun m hm => ?_
    have hName := nameOf_of_decodeEntry hm
    rw [hName, ← h]
    refine guards_add.bind fun added hAdded => ?_
    rw [List.append_cons, ← hLength]
    refine ih ?_
    rw [add_eq_ok_iff.mp hAdded, List.map_append, List.map_append, h, List.map_singleton,
      List.map_singleton, hName]

end Entries

/-! ## Documents -/

section Documents

variable {path : Path} {value : Json.Value}

theorem decode_eq_listUnder :
    decode path value =
      Json.listUnder "modules" (.notObject path) (.noModuleList path)
        (decodeEntries path.parent empty) value := rfl

theorem decode_eq_ok_iff {r : Registry} :
    decode path value = .ok r ↔ Entries path.parent value r.modules := by
  simp only [decode_eq_listUnder, Json.listUnder_eq_ok_iff, decodeEntries_eq_ok_iff, Entries, empty,
    List.nil_append, exists_eq_right']

theorem guards_decode : Guards (checks path value) (decode path value) := by
  rw [decode_eq_listUnder]
  exact Json.guards_listUnder fun values => @guards_decodeEntries _ empty [] values rfl

end Documents

theorem lookup?_eq_none_iff {r : Registry} {name : Text} :
    r.lookup? name = none ↔ ∀ m ∈ r.modules, m.name ≠ name := by
  simp [lookup?]

/-- A registry is what its entries describe, in order, where the names are distinct. Decoding ends
well exactly if all checks hold, and otherwise with the error of the first that fails. A name is
looked up as the one module of that name. -/
theorem decode_reads_distinct (path : Path) (value : Json.Value) :
    (∀ modules, (∃ r, decode path value = .ok r ∧ r.modules = modules) ↔
      Entries path.parent value modules ∧ (modules.map (·.name)).Nodup) ∧
    ((∃ r, decode path value = .ok r) ↔ ∀ check ∈ checks path value, check.holds) ∧
    (∀ e, decode path value = .error e ↔ FirstFails (checks path value) e) ∧
    ∀ r, decode path value = .ok r → ∀ name,
      (∀ m, r.lookup? name = some m ↔ m ∈ r.modules ∧ m.name = name) ∧
      (r.lookup? name = none ↔ ∀ m ∈ r.modules, m.name ≠ name) := by
  refine ⟨fun modules => ⟨?_, ?_⟩, guards_decode.exists_ok_iff, guards_decode,
    fun r _ name => ⟨fun m => lookup?_eq_some_iff, lookup?_eq_none_iff⟩⟩
  · rintro ⟨r, hDecode, rfl⟩
    exact ⟨decode_eq_ok_iff.mp hDecode, r.distinct⟩
  · rintro ⟨hDescribes, hDistinct⟩
    exact ⟨⟨modules, hDistinct⟩, decode_eq_ok_iff.mpr hDescribes, rfl⟩

/-- Names that differ in case are distinct, and a third spelling is no name. -/
theorem decode_reads_distinct_cased :
    let swift : ModuleInfo := {
      name := "Core", baseDir := .here / .ofText "Core", singleFile := false, android := false,
      ios := true, iosLanguage := .swift, cpp := false, iosNameOverride := none }
    let plain : ModuleInfo := {
      name := "core", baseDir := .here / .ofText "src/core", singleFile := false,
      android := false, ios := false, iosLanguage := .objc, cpp := false, iosNameOverride := none }
    let value := Json.Value.object [("modules", .array [
      .object [("name", .text "Core"), ("ios_codegen", .bool true),
        ("ios_language", .text "swift")],
      .object [("base_dir", .text "src/core"), ("name", .text "core")]])]
    ∃ r, decode .here value = .ok r ∧ r.modules = [swift, plain] ∧
      r.lookup? "core" = some plain ∧ r.lookup? "CORE" = none := by
  intro swift plain value
  let r : Registry := ⟨[swift, plain], by decide⟩
  have hDecode : decode .here value = .ok r := rfl
  obtain ⟨_, _, _, hLookup⟩ := decode_reads_distinct .here value
  refine ⟨r, hDecode, rfl, ?_, ?_⟩
  · exact ((hLookup r hDecode "core").1 plain).mpr ⟨List.mem_cons_of_mem _ List.mem_cons_self, rfl⟩
  · exact (hLookup r hDecode "CORE").2.mpr (by decide)

/-- A repeated name is found before a later entry is looked at. -/
example :
    decode .here (.object [("modules", .array [
      .object [("name", .text "Core")], .object [("name", .text "Core")], .null])]) =
    .error (.duplicateName "Core") := rfl

end Registry

end Amalgam
