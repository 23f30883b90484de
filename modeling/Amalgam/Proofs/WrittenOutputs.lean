import Amalgam.Proofs.TreeChanges

/-! # What written outputs leave

Where every attempt succeeds, the files that are made are the destinations, the directories that are
made are those on the way to them, and no other file is touched but those with the name of a
temporary file. A destination holds what was last written there.
-/

namespace Amalgam

namespace Output

open FileTree (MakesOnly)

variable {process : Nat} {out : Setting Path}

/-! ## Changes by written files -/

/-- A tree differs from another by files at the destinations and directories on the way to them, and
of the other files at most those with the name of a temporary file are gone. -/
structure Changes (process : Nat) (destinations : List Path) (t t' : FileTree) : Prop where
  workingDirectory : t'.workingDirectory = t.workingDirectory
  written : ∀ l octets, t'.node? l = some (.file octets) →
    t.node? l = some (.file octets) ∨ ∃ p ∈ destinations, l = t.place p
  kept : ∀ l octets, t.node? l = some (.file octets) → t'.node? l = some (.file octets) ∨
    ∃ p ∈ destinations, l = t.place p ∨ l = t.place (temporary process p)
  made : ∀ l, t'.node? l = some .directory → t.node? l = some .directory ∨
    ∃ p ∈ destinations, ∃ q : Path, q.LeadsTo p.parent ∧ l = t.place q
  directory : ∀ l, t.node? l = some .directory → t'.node? l = some .directory

namespace Changes

variable {first second : List Path} {t t' t'' : FileTree}

theorem refl (process : Nat) (t : FileTree) : Changes process [] t t where
  workingDirectory := rfl
  written _ _ h := .inl h
  kept _ _ h := .inl h
  made _ h := .inl h
  directory _ h := h

theorem place_eq (h : Changes process first t t') (p : Path) : t'.place p = t.place p :=
  FileTree.place_congr h.workingDirectory p

theorem trans (h : Changes process first t t') (h' : Changes process second t' t'') :
    Changes process (first ++ second) t t'' where
  workingDirectory := h'.workingDirectory.trans h.workingDirectory
  written l octets hFile := by
    rcases h'.written l octets hFile with hBetween | ⟨p, hp, hPlace⟩
    · rcases h.written l octets hBetween with hBefore | ⟨p, hp, hPlace⟩
      · exact .inl hBefore
      · exact .inr ⟨p, List.mem_append_left _ hp, hPlace⟩
    · exact .inr ⟨p, List.mem_append_right _ hp, h.place_eq p ▸ hPlace⟩
  kept l octets hFile := by
    rcases h.kept l octets hFile with hBetween | ⟨p, hp, hPlace⟩
    · rcases h'.kept l octets hBetween with hAfter | ⟨p, hp, hPlace⟩
      · exact .inl hAfter
      · rw [h.place_eq, h.place_eq] at hPlace
        exact .inr ⟨p, List.mem_append_right _ hp, hPlace⟩
    · exact .inr ⟨p, List.mem_append_left _ hp, hPlace⟩
  made l hDirectory := by
    rcases h'.made l hDirectory with hBetween | ⟨p, hp, q, hq, hPlace⟩
    · rcases h.made l hBetween with hBefore | ⟨p, hp, q, hq, hPlace⟩
      · exact .inl hBefore
      · exact .inr ⟨p, List.mem_append_left _ hp, q, hq, hPlace⟩
    · exact .inr ⟨p, List.mem_append_right _ hp, q, hq, h.place_eq q ▸ hPlace⟩
  directory l hDirectory := h'.directory l (h.directory l hDirectory)

theorem resolve (h : Changes process first t t') {p : Path} {l : Location}
    (hResolve : t.resolve p = .ok l) : t'.resolve p = .ok l :=
  FileTree.resolve_of_directories h.workingDirectory h.directory hResolve

/-- What is read from a path stays, unless its place is a destination or has the name of a temporary
file. -/
theorem read (h : Changes process first t t') {p : Path} {octets : List UInt8}
    (hApart : ∀ q ∈ first, t.place p ≠ t.place q ∧ t.place p ≠ t.place (temporary process q))
    (hRead : t.read p = .ok octets) : t'.read p = .ok octets := by
  obtain ⟨hResolve, hNode⟩ := FileTree.read_eq_ok_iff.mp hRead
  rw [FileTree.read_eq_ok_iff, h.place_eq]
  refine ⟨h.resolve hResolve, ?_⟩
  rcases h.kept _ _ hNode with hKept | ⟨q, hq, hSame | hSame⟩
  · exact hKept
  · exact absurd hSame (hApart q hq).1
  · exact absurd hSame (hApart q hq).2

end Changes

/-! ## One file -/

theorem writeFile_steps {destination : Path} {content : Text} {t last : FileTree}
    (h : writeFile process destination content t = .ok () last) : ∃ made written,
      FileTree.makeDirectories destination.parent t = .ok () made ∧
      FileTree.write (temporary process destination) content made = .ok () written ∧
      FileTree.replace (temporary process destination) destination written = .ok () last := by
  rcases writeFile_cases process destination content t with
    ⟨_, _, _, hFile⟩ | ⟨made, hMake, ⟨_, hFile⟩ | ⟨_, ⟨_, _, _, hFile⟩ | ⟨written, hWrite, hFile⟩⟩⟩
  · cases hFile.symm.trans h
  · cases hFile.symm.trans h
  · cases hFile.symm.trans h
  · exact ⟨made, written, hMake, hWrite, hFile.symm.trans h⟩

/-- Writing a file makes directories, puts the file in its place, and leaves nothing in the place of
the temporary file. -/
theorem node?_of_writeFile {destination : Path} {content : Text} {t last : FileTree}
    (h : writeFile process destination content t = .ok () last) : ∃ made octets,
      Text.Utf8.encode content = .ok octets ∧
      MakesOnly (fun l => ∃ q : Path, q.LeadsTo destination.parent ∧ l = t.place q) t made ∧
      made.node? (t.place destination) ≠ some .directory ∧
      made.node? (t.place (temporary process destination)) ≠ some .directory ∧
      last.workingDirectory = t.workingDirectory ∧
      last.resolve destination = .ok (t.place destination) ∧
      ∀ l, last.node? l = if l = t.place destination then some (.file octets)
        else if l = t.place (temporary process destination) then none else made.node? l := by
  obtain ⟨made, written, hMake, hWrite, hReplace⟩ := writeFile_steps h
  have hMakes := FileTree.makesOnly_makeDirectories destination.parent t
  rw [leaves_of_ok hMake] at hMakes
  obtain ⟨⟨_, hFree⟩, hWorking, octets, hEncode, hWritten⟩ := FileTree.write_eq_ok hWrite
  obtain ⟨hResolve, hTarget, hWorking', moved, hFile, hMoved⟩ := FileTree.replace_eq_ok hReplace
  have hPlace (p : Path) : made.place p = t.place p :=
    FileTree.place_congr hMakes.workingDirectory p
  have hPlace' (p : Path) : written.place p = t.place p :=
    (FileTree.place_congr hWorking p).trans (hPlace p)
  simp only [hPlace, hPlace'] at hFree hWritten hResolve hTarget hFile hMoved
  have hOctets : moved = octets := by
    rw [hWritten, if_pos rfl] at hFile
    cases hFile
    rfl
  have hFreeTarget : made.node? (t.place destination) ≠ some .directory := by
    by_cases hSame : t.place destination = t.place (temporary process destination)
    · exact hSame ▸ hFree
    · rwa [hWritten, if_neg hSame] at hTarget
  refine ⟨made, octets, hEncode, hMakes, hFreeTarget, hFree,
    hWorking'.trans (hWorking.trans hMakes.workingDirectory), ?_, fun l => ?_⟩
  · refine FileTree.resolve_of_directories hWorking' (fun l hDirectory => ?_) hResolve
    have hNotTarget : l ≠ t.place destination := fun hl => hTarget (hl ▸ hDirectory)
    have hNotSource : l ≠ t.place (temporary process destination) := by
      rintro rfl
      cases hDirectory.symm.trans hFile
    rw [hMoved, if_neg hNotTarget, if_neg hNotSource]
    exact hDirectory
  · rw [hMoved, hOctets]
    by_cases hDestination : l = t.place destination
    · rw [if_pos hDestination, if_pos hDestination]
    · rw [if_neg hDestination, if_neg hDestination]
      by_cases hTemporary : l = t.place (temporary process destination)
      · rw [if_pos hTemporary, if_pos hTemporary]
      · rw [if_neg hTemporary, if_neg hTemporary, hWritten, if_neg hTemporary]

/-- A file that is written can be read, and is all that is written. -/
theorem writeFile_eq_ok {destination : Path} {content : Text} {t last : FileTree}
    (h : writeFile process destination content t = .ok () last) :
    (∃ octets, Text.Utf8.encode content = .ok octets ∧ last.read destination = .ok octets) ∧
      Changes process [destination] t last := by
  obtain ⟨made, octets, hEncode, hMakes, hFree, hFreeTemporary, hWorking, hResolve, hNode⟩ :=
    node?_of_writeFile h
  constructor
  · refine ⟨octets, hEncode, ?_⟩
    rw [FileTree.read_eq_ok_iff, FileTree.place_congr hWorking, hNode, if_pos rfl]
    exact ⟨hResolve, rfl⟩
  · refine ⟨hWorking, fun l octets hFile => ?_, fun l octets hFile => ?_, fun l hDirectory => ?_,
      fun l hDirectory => ?_⟩
    · rw [hNode] at hFile
      split at hFile
      · next hDestination => exact .inr ⟨destination, List.mem_singleton_self _, hDestination⟩
      · split at hFile
        · cases hFile
        · exact .inl (hMakes.file_iff.mp hFile)
    · by_cases hDestination : l = t.place destination
      · exact .inr ⟨destination, List.mem_singleton_self _, .inl hDestination⟩
      · by_cases hTemporary : l = t.place (temporary process destination)
        · exact .inr ⟨destination, List.mem_singleton_self _, .inr hTemporary⟩
        · rw [hNode, if_neg hDestination, if_neg hTemporary]
          exact .inl (hMakes.file_iff.mpr hFile)
    · rw [hNode] at hDirectory
      split at hDirectory
      · cases hDirectory
      · split at hDirectory
        · cases hDirectory
        · rcases hMakes.node? l with hSame | ⟨_, _, q, hq, hPlace⟩
          · exact .inl (hSame ▸ hDirectory)
          · exact .inr ⟨destination, List.mem_singleton_self _, q, hq, hPlace⟩
    · have hMade : made.node? l = some .directory := by
        rcases hMakes.node? l with hSame | ⟨hNone, _⟩
        · exact hSame ▸ hDirectory
        · cases hNone.symm.trans hDirectory
      have hNotDestination : l ≠ t.place destination := fun hl => hFree (hl ▸ hMade)
      have hNotTemporary : l ≠ t.place (temporary process destination) :=
        fun hl => hFreeTemporary (hl ▸ hMade)
      rw [hNode, if_neg hNotDestination, if_neg hNotTemporary]
      exact hMade

/-! ## Attempts that succeed -/

/-- No attempt of an item fails, and no item is a failure. -/
def AllWritten (process : Nat) (out : Setting Path) (t : FileTree) (items : List Item) : Prop :=
  ∀ attempt ∈ attempts process out t items, diagnostic? process out attempt = none

theorem allWritten_cons {t : FileTree} {item : Item} {rest : List Item} :
    AllWritten process out t (item :: rest) ↔ diagnostic? process out (item, t) = none ∧
      AllWritten process out (after process out t item) rest := by
  rw [AllWritten, attempts, List.forall_mem_cons]
  rfl

theorem allWritten_append {t : FileTree} {before later : List Item} :
    AllWritten process out t (before ++ later) ↔ AllWritten process out t before ∧
      AllWritten process out (before.foldl (after process out) t) later := by
  induction before generalizing t with
  | nil => exact (and_iff_right (List.forall_mem_nil _)).symm
  | cons item rest ih =>
    rw [List.cons_append, allWritten_cons, allWritten_cons, ih, and_assoc, List.foldl_cons]

theorem native_of_written {t : FileTree} {item : Item} {source : NativeSource}
    (hNative : item.native? = some source) (h : diagnostic? process out (item, t) = none) :
    ∃ p text, destination? out item = some p ∧ source.content.read t = .ok text ∧
      writeFile process p text t = .ok () (after process out t item) := by
  have hKind : item.kind = .payload (.native source) := Item.native?_eq_some_iff.mp hNative
  simp only [diagnostic?, hKind, Option.map_eq_none_iff, failure?] at h
  rw [after_eq_leaves_write hNative]
  cases hWritten : written? out item t with
  | none =>
    obtain ⟨e, hWrite⟩ := write_of_not_written process hNative hWritten
    rw [hWrite] at h
    cases h
  | some written =>
    obtain ⟨p, text⟩ := written
    obtain ⟨hDestination, hRead⟩ := (written?_eq_some_iff hNative).mp hWritten
    have hWrite := write_of_written process hNative hWritten
    refine ⟨p, text, hDestination, hRead, ?_⟩
    cases hFile : writeFile process p text t with
    | ok _ last =>
      rw [hFile] at hWrite
      rw [leaves_of_ok hWrite]
    | error e last =>
      rw [hWrite, hFile] at h
      cases h

theorem read_after {t : FileTree} {item : Item} {p : Path}
    (h : diagnostic? process out (item, t) = none) (hDestination : destination? out item = some p) :
    ∃ source text octets, item.native? = some source ∧ source.content.read t = .ok text ∧
      Text.Utf8.encode text = .ok octets ∧ (after process out t item).read p = .ok octets := by
  obtain ⟨_, source, _, hNative⟩ := native_of_destination hDestination
  obtain ⟨p', text, hSame, hRead, hWrite⟩ := native_of_written hNative h
  cases hDestination.symm.trans hSame
  obtain ⟨octets, hEncode, hAfter⟩ := (writeFile_eq_ok hWrite).1
  exact ⟨source, text, octets, hNative, hRead, hEncode, hAfter⟩

theorem changes_after {t : FileTree} {item : Item}
    (h : diagnostic? process out (item, t) = none) :
    Changes process (destination? out item).toList t (after process out t item) := by
  cases hNative : item.native? with
  | none =>
    rw [after_of_not_native process out t hNative, destination?_of_not_native out hNative]
    exact .refl process t
  | some source =>
    obtain ⟨p, text, hDestination, _, hWrite⟩ := native_of_written hNative h
    rw [hDestination]
    exact (writeFile_eq_ok hWrite).2

theorem changes_run {t : FileTree} {items : List Item} (h : AllWritten process out t items) :
    Changes process (destinations out items) t (items.foldl (after process out) t) := by
  induction items generalizing t with
  | nil => exact .refl process t
  | cons item rest ih =>
    obtain ⟨hItem, hRest⟩ := allWritten_cons.mp h
    rw [destinations_cons, List.foldl_cons]
    exact (changes_after hItem).trans (ih hRest)

/-! ## What remains -/

/-- An output stays unless a later one, or its temporary file, goes to the same place. -/
theorem read_of_written {t : FileTree} {before later : List Item} {item : Item} {p : Path}
    (h : AllWritten process out t (before ++ item :: later))
    (hDestination : destination? out item = some p)
    (hLater : ∀ q ∈ destinations out later, p.fileNames ≠ q.fileNames ∧
      p.fileNames ≠ (temporary process q).fileNames) :
    ∃ source text octets, item.native? = some source ∧
      source.content.read (before.foldl (after process out) t) = .ok text ∧
      Text.Utf8.encode text = .ok octets ∧
      ((before ++ item :: later).foldl (after process out) t).read p = .ok octets := by
  obtain ⟨dir, _, rfl, _⟩ := native_of_destination hDestination
  obtain ⟨_, hFrom⟩ := allWritten_append.mp h
  obtain ⟨hItem, hRest⟩ := allWritten_cons.mp hFrom
  obtain ⟨source, text, octets, hNative, hRead, hEncode, hAfter⟩ := read_after hItem hDestination
  refine ⟨source, text, octets, hNative, hRead, hEncode, ?_⟩
  rw [List.foldl_append, List.foldl_cons]
  refine (changes_run hRest).read (fun q hq => ?_) hAfter
  have hBelow : p.IsBelow dir := isBelow_of_destination hDestination
  have hBelow' : q.IsBelow dir := isBelow_of_mem_destinations hq
  obtain ⟨hOther, hOtherTemporary⟩ := hLater q hq
  exact ⟨(FileTree.place_inj hBelow hBelow').not.mpr hOther,
    (FileTree.place_inj hBelow (temporary_isBelow process hBelow')).not.mpr hOtherTemporary⟩

theorem resolve_destination {t : FileTree} {items : List Item} (h : AllWritten process out t items)
    {p : Path} (hp : p ∈ destinations out items) :
    (items.foldl (after process out) t).resolve p = .ok (t.place p) := by
  obtain ⟨before, item, later, rfl, hDestination⟩ := exists_of_mem_destinations hp
  obtain ⟨hBefore, hFrom⟩ := allWritten_append.mp h
  obtain ⟨hItem, hRest⟩ := allWritten_cons.mp hFrom
  obtain ⟨_, _, _, _, _, _, hAfter⟩ := read_after hItem hDestination
  have hResolve := (changes_run hRest).resolve (FileTree.read_eq_ok_iff.mp hAfter).1
  rwa [(changes_after hItem).place_eq, (changes_run hBefore).place_eq, ← List.foldl_cons,
    ← List.foldl_append] at hResolve

theorem directory_on_way {t : FileTree} {items : List Item} (h : AllWritten process out t items)
    {p q : Path} (hp : p ∈ destinations out items) (hq : q.LeadsTo p.parent) :
    (items.foldl (after process out) t).node? (t.place q) = some .directory := by
  obtain ⟨_, _, _, _, hDestination⟩ := exists_of_mem_destinations hp
  obtain ⟨dir, _, rfl, _⟩ := native_of_destination hDestination
  have hParts : p.parts ≠ [] := (isBelow_of_mem_destinations hp).parts_ne_nil
  rw [← (changes_run h).place_eq]
  exact FileTree.directory_of_resolve (resolve_destination h hp) hParts hq

/-- Neither a destination nor a file that is already there has the name of a temporary file. -/
structure Apart (process : Nat) (destinations : List Path) (t : FileTree) : Prop where
  destination : ∀ p ∈ destinations, ∀ q ∈ destinations,
    p.fileNames ≠ (temporary process q).fileNames
  file : ∀ q ∈ destinations, ∀ octets,
    t.node? (t.place (temporary process q)) ≠ some (.file octets)

/-- Each destination holds the content of the last item that goes to that file, as the content was
read when the item was written. There are no other new files, no file is gone, and the new
directories are those on the way to the destinations. -/
structure Remains (process : Nat) (out : Setting Path) (items : List Item) (t last : FileTree) :
    Prop where
  content : ∀ p ∈ destinations out items, ∃ before item later q,
    items = before ++ item :: later ∧ destination? out item = some q ∧
      q.fileNames = p.fileNames ∧ p.fileNames ∉ (destinations out later).map Path.fileNames ∧
      ∃ source text octets, item.native? = some source ∧
        source.content.read (before.foldl (after process out) t) = .ok text ∧
        Text.Utf8.encode text = .ok octets ∧ last.read p = .ok octets
  file_iff : ∀ l, (∀ p ∈ destinations out items, l ≠ t.place p) → ∀ octets,
    last.node? l = some (.file octets) ↔ t.node? l = some (.file octets)
  temporary : ∀ p ∈ destinations out items, ∀ octets,
    last.node? (t.place (Output.temporary process p)) ≠ some (.file octets)
  directory_iff : ∀ l, last.node? l = some .directory ↔ t.node? l = some .directory ∨
    ∃ p ∈ destinations out items, ∃ q : Path, q.LeadsTo p.parent ∧ l = t.place q

theorem remains_of_apart {t : FileTree} {items : List Item} (h : AllWritten process out t items)
    (hApart : Apart process (destinations out items) t) :
    Remains process out items t (items.foldl (after process out) t) := by
  have hChanges := changes_run h
  refine ⟨fun p hp => ?_, fun l hl octets => ?_, fun p hp octets hFile => ?_, fun l => ?_⟩
  · obtain ⟨before, item, later, q, hSplit, hDestination, hNames, hLast⟩ :=
      exists_last_destination (List.mem_map_of_mem hp)
    have hOther : ∀ other ∈ destinations out later, q.fileNames ≠ other.fileNames ∧
        q.fileNames ≠ (Output.temporary process other).fileNames := by
      intro other hOther
      have hMem : other ∈ destinations out items := by
        rw [hSplit, destinations_append, destinations_cons]
        exact List.mem_append_right _ (List.mem_append_right _ hOther)
      rw [hNames]
      exact ⟨(ne_of_mem_of_not_mem (List.mem_map_of_mem hOther) hLast).symm,
        hApart.destination p hp other hMem⟩
    obtain ⟨source, text, octets, hNative, hRead, hEncode, hLeft⟩ :=
      read_of_written (hSplit ▸ h) hDestination hOther
    refine ⟨before, item, later, q, hSplit, hDestination, hNames, hLast, source, text, octets,
      hNative, hRead, hEncode, ?_⟩
    -- Both paths lead to the place that the last item was written to.
    obtain ⟨dir, _, rfl, _⟩ := native_of_destination hDestination
    have hPlace : t.place q = t.place p :=
      (FileTree.place_inj (isBelow_of_destination hDestination)
        (isBelow_of_mem_destinations hp)).mpr hNames
    rw [← hSplit, FileTree.read_eq_ok_iff, hChanges.place_eq, hPlace] at hLeft
    rw [FileTree.read_eq_ok_iff, hChanges.place_eq]
    exact ⟨resolve_destination h hp, hLeft.2⟩
  · constructor
    · intro hFile
      rcases hChanges.written l octets hFile with hBefore | ⟨p, hp, hPlace⟩
      · exact hBefore
      · exact absurd hPlace (hl p hp)
    · intro hFile
      rcases hChanges.kept l octets hFile with hAfter | ⟨p, hp, hPlace | hPlace⟩
      · exact hAfter
      · exact absurd hPlace (hl p hp)
      · exact absurd (hPlace ▸ hFile) (hApart.file p hp octets)
  · rcases hChanges.written _ octets hFile with hBefore | ⟨q, hq, hPlace⟩
    · exact hApart.file p hp octets hBefore
    · obtain ⟨item, _, hDestination⟩ := List.mem_filterMap.mp hp
      obtain ⟨dir, _, rfl, _⟩ := native_of_destination hDestination
      have hBelow := temporary_isBelow process (isBelow_of_mem_destinations hp)
      have hSame := (FileTree.place_inj hBelow (isBelow_of_mem_destinations hq)).mp hPlace
      exact hApart.destination q hq p hp hSame.symm
  · constructor
    · exact hChanges.made l
    · rintro (hDirectory | ⟨p, hp, q, hq, rfl⟩)
      · exact hChanges.directory l hDirectory
      · exact directory_on_way h hp hq

end Output

end Amalgam
