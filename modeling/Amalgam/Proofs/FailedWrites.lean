import Amalgam.Proofs.WrittenOutputs

/-! # Writing that fails

A file is written in three steps: the directories above it are made, a temporary file is written
beside it, and this file is moved to its place. Once the temporary file can be opened, writing fails
for two reasons only. The content may be impossible to encode, and then an empty file stays; or the
destination is a directory, and then a file with the content stays. A destination is never touched.
-/

namespace Amalgam

/-! ## Names and places -/

theorem Text.joinWith_append_singleton (separator : Text) (before : List Text) (last more : Text) :
    joinWith separator (before ++ [last ++ more]) =
      joinWith separator (before ++ [last]) ++ more := by
  induction before with
  | nil => rfl
  | cons piece rest ih =>
    rw [List.cons_append, List.cons_append, joinWith_cons _ _ (by simp),
      joinWith_cons _ _ (by simp), ih, Text.append_assoc (piece ++ separator)]

namespace FileTree

/-- The same places hold the same files. The directories may differ. -/
def SameFiles (t t' : FileTree) : Prop :=
  ∀ l octets, t'.node? l = some (.file octets) ↔ t.node? l = some (.file octets)

theorem walk_append (t : FileTree) (here : Location) (before after : List FileName) :
    t.walk here (before ++ after) = t.walk here before >>= fun l => t.walk l after := by
  induction before generalizing here with
  | nil => rfl
  | cons name rest ih =>
    rw [List.cons_append, walk, walk]
    split
    · rfl
    · rfl
    · split
      · rfl
      · exact ih _

theorem walk_singleton_of_le {t : FileTree} {here l : Location} {name other : FileName}
    (hWalk : t.walk here [other] = .ok l) (h : name.length ≤ other.length) :
    ∃ l', t.walk here [name] = .ok l' := by
  rw [walk] at hWalk ⊢
  split at hWalk
  · cases hWalk
  · cases hWalk
  · split at hWalk
    · cases hWalk
    · exact ⟨_, if_neg (by omega)⟩

theorem locate_of_resolve {t : FileTree} {p : Path} {l : Location} (h : t.resolve p = .ok l) :
    p.barrier? = none ∧ t.locate p = .ok l := by
  rw [resolve] at h
  split at h
  · cases h
  · next hBarrier => exact ⟨hBarrier, mapError_eq_ok_iff.mp h⟩

theorem replace_of_resolve {source target : Path} {t : FileTree} {octets : List UInt8}
    (hSource : t.resolve source = .ok (t.place source))
    (hTarget : t.resolve target = .ok (t.place target))
    (hFile : t.node? (t.place source) = some (.file octets)) :
    if t.node? (t.place target) = some .directory then
      replace source target t = .error (.refused .isDirectory source (some target)) t
    else ∃ last, replace source target t = .ok () last := by
  obtain ⟨hSourceBarrier, hSourcePlace⟩ := locate_of_resolve hSource
  obtain ⟨hTargetBarrier, hTargetPlace⟩ := locate_of_resolve hTarget
  have hBarriers := Path.barriers_eq_none_iff.mpr ⟨hSourceBarrier, hTargetBarrier⟩
  simp only [replace, hBarriers, hSourcePlace, hTargetPlace, hFile]
  cases hNode : t.node? (t.place target) with
  | none => exact ⟨_, rfl⟩
  | some node =>
    cases node with
    | file other => exact ⟨_, rfl⟩
    | directory => rfl

end FileTree

namespace Output

open FileTree (SameFiles)

variable {process : Nat} {destination : Path} {content : Text} {t t' made written : FileTree}
  {e : FileError} {octets : List UInt8}

theorem text_temporary (process : Nat) (hName : destination.parts ≠ []) :
    (temporary process destination).text = destination.text ++ (".tmp." ++ toString process) := by
  obtain ⟨anchor, parts⟩ := destination
  obtain ⟨before, name, rfl⟩ := (List.eq_nil_or_concat parts).resolve_left hName
  have hSome (last : Text) : (⟨anchor, before ++ [last]⟩ : Path) ≠ .here := by
    simp [Path.here]
  rw [List.concat_eq_append, temporary_concat, Path.text, Path.text, if_neg (hSome _),
    if_neg (hSome _), temporaryName, Text.append_assoc name, Text.joinWith_append_singleton,
    Text.append_assoc anchor.text]

theorem barrier?_of_temporary (hName : destination.parts ≠ [])
    (h : (temporary process destination).barrier? = none) : destination.barrier? = none := by
  rw [Path.barrier?_eq_none_iff, text_temporary process hName, Text.toList_append] at h
  obtain ⟨hNull, hOctets⟩ := h
  exact Path.barrier?_eq_none_iff.mpr ⟨fun hMem => hNull (List.mem_append_left _ hMem),
    fun c hc => hOctets c (List.mem_append_left _ hc)⟩

theorem length_lt_temporaryName (name : Text) (process : Nat) :
    (Text.Utf8.octets name).length + 4 <
      (Text.Utf8.octets (temporaryName process name)).length := by
  have hMiddle : (Text.Utf8.octets ".tmp.").length = 5 := by decide
  simp only [temporaryName, Text.Utf8.octets_append, List.length_append, hMiddle]
  omega

/-- A destination can be found wherever its temporary file can, as that has the longer name. -/
theorem resolve_of_temporary {l : Location} (hName : destination.parts ≠ [])
    (h : t.resolve (temporary process destination) = .ok l) :
    t.resolve destination = .ok (t.place destination) := by
  obtain ⟨hBarrier, hShort, hWalk⟩ := FileTree.resolve_eq_ok_iff.mp h
  have hDestination := barrier?_of_temporary hName hBarrier
  rw [text_temporary process hName, Text.Utf8.octets_append, List.length_append] at hShort
  obtain ⟨anchor, parts⟩ := destination
  obtain ⟨before, name, rfl⟩ := (List.eq_nil_or_concat parts).resolve_left hName
  rw [List.concat_eq_append] at *
  rw [temporary_concat, Path.fileNames, List.map_append, FileTree.walk_append] at hWalk
  obtain ⟨above, hAbove, hLast⟩ := bind_eq_ok_iff.mp hWalk
  have hLonger : (Text.Utf8.octets name).length ≤
      (Text.Utf8.octets (temporaryName process name)).length :=
    Nat.le_trans (Nat.le_add_right _ 5) (length_lt_temporaryName name process)
  obtain ⟨l', hHere⟩ := FileTree.walk_singleton_of_le hLast hLonger
  have hFound : t.resolve ⟨anchor, before ++ [name]⟩ = .ok l' := by
    refine FileTree.resolve_eq_ok_iff.mpr ⟨hDestination, by omega, ?_⟩
    rw [Path.fileNames, List.map_append, FileTree.walk_append]
    exact bind_eq_ok_iff.mpr ⟨above, hAbove, hHere⟩
  rw [hFound, FileTree.resolve_eq_ok hFound]

theorem place_ne_temporary (hName : destination.parts ≠ []) :
    t.place destination ≠ t.place (temporary process destination) := by
  have hTemporary : (temporary process destination).parts ≠ [] := by simp [temporary]
  have hParent : (temporary process destination).parent = destination.parent := by
    simp [temporary, Path.parent]
  have hLast : (temporary process destination).name =
      temporaryName process destination.name := by simp [temporary, Path.name]
  rw [FileTree.place_of_parts_ne_nil hName, FileTree.place_of_parts_ne_nil hTemporary, hParent,
    hLast]
  have hLonger := length_lt_temporaryName destination.name process
  have hDown : Text.Utf8.octets (temporaryName process destination.name) ≠ FileTree.upward := by
    intro hUp
    have hLength : FileTree.upward.length = 2 := by decide
    rw [hUp, hLength] at hLonger
    omega
  intro hSame
  rw [FileTree.follow, FileTree.follow, if_neg hDown] at hSame
  split at hSame
  · have hLengths := congrArg List.length hSame
    rw [List.length_append, List.length_dropLast, List.length_singleton] at hLengths
    omega
  · have hLengths := congrArg List.length (List.singleton_inj.mp (List.append_cancel_left hSame))
    omega

/-! ## What a failure leaves -/

/-- The directories above a destination are made and its temporary file can be opened. -/
structure Ready (process : Nat) (destination : Path) (t made : FileTree) : Prop where
  named : destination.parts ≠ []
  makes : FileTree.makeDirectories destination.parent t = .ok () made
  opens : made.Opens (temporary process destination)

/-- The octets with which a failing write leaves the temporary file. -/
inductive Leftover (process : Nat) (destination : Path) (content : Text) (t : FileTree) :
    List UInt8 → Prop
  | empty {made : FileTree} {cause : Text.Utf8.EncodeError}
      (hReady : Ready process destination t made)
      (hEncode : Text.Utf8.encode content = .error cause) :
      Leftover process destination content t []
  | whole {made : FileTree} {octets : List UInt8} (hReady : Ready process destination t made)
      (hEncode : Text.Utf8.encode content = .ok octets)
      (hDirectory : made.node? (t.place destination) = some .directory) :
      Leftover process destination content t octets

theorem Leftover.ready (h : Leftover process destination content t octets) :
    ∃ made, Ready process destination t made := by
  cases h with
  | empty hReady => exact ⟨_, hReady⟩
  | whole hReady => exact ⟨_, hReady⟩

theorem Leftover.octets_unique {other : List UInt8}
    (h : Leftover process destination content t octets)
    (h' : Leftover process destination content t other) : octets = other := by
  cases h with
  | empty _ hEncode =>
    cases h' with
    | empty => rfl
    | whole _ hEncode' => cases hEncode.symm.trans hEncode'
  | whole _ hEncode =>
    cases h' with
    | empty _ hEncode' => cases hEncode.symm.trans hEncode'
    | whole _ hEncode' => exact Except.ok.inj (hEncode.symm.trans hEncode')

theorem replace_of_write (hName : destination.parts ≠ [])
    (hWrite : FileTree.write (temporary process destination) content made = .ok () written) :
    if made.node? (made.place destination) = some .directory then
      FileTree.replace (temporary process destination) destination written =
        .error (.refused .isDirectory (temporary process destination) (some destination)) written
    else ∃ last, FileTree.replace (temporary process destination) destination written =
      .ok () last := by
  obtain ⟨⟨hResolve, hFree⟩, hWorking, octets, _, hNode⟩ := FileTree.write_eq_ok hWrite
  have hPlace (p : Path) : written.place p = made.place p := FileTree.place_congr hWorking p
  have hKept : ∀ l, made.node? l = some .directory → written.node? l = some .directory := by
    intro l hDirectory
    have hOther : l ≠ made.place (temporary process destination) := by
      rintro rfl
      exact hFree hDirectory
    rw [hNode, if_neg hOther]
    exact hDirectory
  have hSource : written.resolve (temporary process destination) =
      .ok (written.place (temporary process destination)) := by
    rw [hPlace]
    exact FileTree.resolve_of_directories hWorking hKept hResolve
  have hFile : written.node? (written.place (temporary process destination)) =
      some (.file octets) := by
    rw [hPlace, hNode, if_pos rfl]
  have hTarget : written.node? (written.place destination) =
      made.node? (made.place destination) := by
    rw [hPlace, hNode, if_neg (place_ne_temporary hName)]
  have hMove := FileTree.replace_of_resolve hSource (resolve_of_temporary hName hSource) hFile
  rwa [hTarget] at hMove

theorem writeFile_error_cases (h : writeFile process destination content t = .error e t') :
    ((∀ octets, ¬Leftover process destination content t octets) ∧ SameFiles t t') ∨
      ∃ octets, Leftover process destination content t octets ∧
        ∀ l bytes, t'.node? l = some (.file bytes) ↔
          if l = t.place (temporary process destination) then bytes = octets
          else t.node? l = some (.file bytes) := by
  have hMakes := FileTree.makesOnly_makeDirectories destination.parent t
  -- Up to the opening of the temporary file only directories are made.
  have hUnready (hNot : ∀ made, ¬Ready process destination t made) :
      ∀ octets, ¬Leftover process destination content t octets := by
    intro octets hLeftover
    obtain ⟨made, hReady⟩ := hLeftover.ready
    exact hNot made hReady
  rcases writeFile_cases process destination content t with
    ⟨e', made, hMake, hFile⟩ | ⟨made, hMake, ⟨hNone, hFile⟩ | ⟨hName, hRest⟩⟩
  · cases hFile.symm.trans h
    rw [leaves_of_error hMake] at hMakes
    refine .inl ⟨hUnready fun made' hReady => ?_, fun _ _ => hMakes.file_iff⟩
    cases hMake.symm.trans hReady.makes
  · cases hFile.symm.trans h
    rw [leaves_of_ok hMake] at hMakes
    exact .inl ⟨hUnready fun _ hReady => hReady.named hNone, fun _ _ => hMakes.file_iff⟩
  · rw [leaves_of_ok hMake] at hMakes
    have hPlace (p : Path) : made.place p = t.place p :=
      FileTree.place_congr hMakes.workingDirectory p
    -- Whatever is written to the temporary file then, nothing else is another file than before.
    have hOnly {last : FileTree} {octets : List UInt8} (hNode : ∀ l, last.node? l =
        if l = made.place (temporary process destination) then some (.file octets)
        else made.node? l) (l : Location) (bytes : List UInt8) :
        last.node? l = some (.file bytes) ↔
          if l = t.place (temporary process destination) then bytes = octets
          else t.node? l = some (.file bytes) := by
      rw [hNode, hPlace]
      split
      · simp [eq_comm]
      · exact hMakes.file_iff
    rcases hRest with ⟨e', last, hWrite, hFile⟩ | ⟨written, hWrite, hFile⟩
    · cases hFile.symm.trans h
      rcases FileTree.write_eq_error hWrite with ⟨hClosed, rfl⟩ | ⟨hOpens, _, ⟨_, hEncode⟩, hNode⟩
      · refine .inl ⟨hUnready fun other hReady => ?_, fun _ _ => hMakes.file_iff⟩
        cases hMake.symm.trans hReady.makes
        exact hClosed hReady.opens
      · exact .inr ⟨[], .empty ⟨hName, hMake, hOpens⟩ hEncode, hOnly hNode⟩
    · obtain ⟨hOpens, _, octets, hEncode, hNode⟩ := FileTree.write_eq_ok hWrite
      have hMove := replace_of_write hName hWrite
      rw [hPlace] at hMove
      split at hMove
      · next hDirectory =>
        cases hMove.symm.trans (hFile.symm.trans h)
        exact .inr ⟨octets, .whole ⟨hName, hMake, hOpens⟩ hEncode hDirectory, hOnly hNode⟩
      · obtain ⟨last, hMoved⟩ := hMove
        cases hMoved.symm.trans (hFile.symm.trans h)

/-- A write that fails leaves the files as they were exactly if it leaves nothing in a temporary
file that was not there before. If it leaves something, nothing but the temporary file differs, and
in no case the destination. -/
theorem failed_write_keeps_files_iff
    (h : writeFile process destination content t = .error e t') :
    (SameFiles t t' ↔ ∀ octets, Leftover process destination content t octets →
      t.node? (t.place (temporary process destination)) = some (.file octets)) ∧
    (∀ octets, Leftover process destination content t octets →
      ∀ l bytes, t'.node? l = some (.file bytes) ↔
        if l = t.place (temporary process destination) then bytes = octets
        else t.node? l = some (.file bytes)) ∧
    ∀ bytes, t'.node? (t.place destination) = some (.file bytes) ↔
      t.node? (t.place destination) = some (.file bytes) := by
  rcases writeFile_error_cases h with ⟨hNone, hSame⟩ | ⟨octets, hLeftover, hFiles⟩
  · exact ⟨iff_of_true hSame fun octets hLeftover => absurd hLeftover (hNone octets),
      fun octets hLeftover => absurd hLeftover (hNone octets), hSame _⟩
  · obtain ⟨made, hReady⟩ := hLeftover.ready
    refine ⟨⟨fun hSame other hOther => ?_, fun hThere l bytes => ?_⟩, fun other hOther => ?_,
      fun bytes => ?_⟩
    · obtain rfl := hLeftover.octets_unique hOther
      exact (hSame _ _).mp ((hFiles _ _).mpr (by rw [if_pos rfl]))
    · rw [hFiles]
      split
      · next hTemporary =>
        rw [hTemporary, hThere octets hLeftover]
        simp [eq_comm]
      · exact Iff.rfl
    · obtain rfl := hLeftover.octets_unique hOther
      exact hFiles
    · rw [hFiles, if_neg (place_ne_temporary hReady.named)]

end Output

namespace Sample

def occupied : FileTree where
  entries := [
    (Path.fileNames ⟨.relative, ["out"]⟩, .directory),
    (Path.fileNames ⟨.relative, ["out", "any"]⟩, .directory),
    (Path.fileNames ⟨.relative, ["out", "any", "A"]⟩, .directory)]
  workingDirectory := []

def occupiedPath : Path := ⟨.relative, ["out", "any", "A"]⟩

def halfPair : Text := .singleton (.surrogate ⟨0, by decide⟩)

end Sample

namespace Output

/-- One write fails as its destination is a directory, another as its content cannot be encoded. -/
theorem failed_write_occupied :
    (∃ e t', writeFile 1 Sample.occupiedPath "a" Sample.occupied = .error e t' ∧
      Leftover 1 Sample.occupiedPath "a" Sample.occupied [0x61] ∧
      ∀ l octets, t'.node? l = some (.file octets) ↔
        if l = Path.fileNames ⟨.relative, ["out", "any", "A.tmp.1"]⟩ then octets = [0x61]
        else Sample.occupied.node? l = some (.file octets)) ∧
    ∃ e t', writeFile 1 Sample.occupiedPath Sample.halfPair .empty = .error e t' ∧
      Leftover 1 Sample.occupiedPath Sample.halfPair .empty [] ∧
      ∀ l octets, t'.node? l = some (.file octets) ↔
        if l = Path.fileNames ⟨.relative, ["out", "any", "A.tmp.1"]⟩ then octets = []
        else FileTree.empty.node? l = some (.file octets) := by
  constructor
  · have hReady : Ready 1 Sample.occupiedPath Sample.occupied Sample.occupied :=
      ⟨List.cons_ne_nil _ _, rfl, by decide +kernel, by decide +kernel⟩
    have hLeftover : Leftover 1 Sample.occupiedPath "a" Sample.occupied [0x61] :=
      .whole hReady rfl rfl
    obtain ⟨e, t', hWrite⟩ : ∃ e t',
        writeFile 1 Sample.occupiedPath "a" Sample.occupied = .error e t' := ⟨_, _, rfl⟩
    exact ⟨e, t', hWrite, hLeftover, (failed_write_keeps_files_iff hWrite).2.1 _ hLeftover⟩
  · obtain ⟨made, hMake⟩ : ∃ made, FileTree.makeDirectories Sample.occupiedPath.parent .empty =
        .ok () made := ⟨_, rfl⟩
    have hLeftover : Leftover 1 Sample.occupiedPath Sample.halfPair .empty [] :=
      .empty ⟨List.cons_ne_nil _ _, hMake, by cases hMake; decide +kernel,
        by cases hMake; decide +kernel⟩ rfl
    obtain ⟨e, t', hWrite⟩ : ∃ e t',
        writeFile 1 Sample.occupiedPath Sample.halfPair .empty = .error e t' := ⟨_, _, rfl⟩
    exact ⟨e, t', hWrite, hLeftover, (failed_write_keeps_files_iff hWrite).2.1 _ hLeftover⟩

/-- The destination is a directory: the write fails, and a file is there that was not before. -/
theorem temporary_file_left : ∃ e t',
    writeFile 1 Sample.occupiedPath "a" Sample.occupied = .error e t' ∧
      ¬FileTree.SameFiles Sample.occupied t' := by
  refine ⟨_, _, rfl, fun hSame => ?_⟩
  have hFile := (hSame (Path.fileNames ⟨.relative, ["out", "any", "A.tmp.1"]⟩) [0x61]).mp
    (by decide +kernel)
  exact absurd hFile (by decide +kernel)

end Output

end Amalgam
