import Amalgam.Output
import Amalgam.Proofs.FileNames
import Mathlib.Logic.Function.Iterate

/-! # Attempts to write outputs

Every item is attempted on the tree that the attempts before it leave, whether they succeed or not.
Unless an attempt ends the run, there is one diagnostic for each failed item and for each output
that could not be written, in the order of the items.
-/

namespace Amalgam

theorem Item.native?_eq_some_iff {item : Item} {source : NativeSource} :
    item.native? = some source ↔ item.kind = .payload (.native source) := by
  rw [native?]
  split
  · next found hKind =>
    rw [hKind]
    simp
  · next hOther => exact iff_of_false (Option.some_ne_none source).symm (hOther source)

/-! ## Missing directories -/

namespace FileTree

theorem resolve_ne_tooDeep (t : FileTree) (p : Path) : t.resolve p ≠ .error .tooDeep := by
  rw [resolve]
  split
  · next e hBarrier =>
    intro h
    cases h
    rcases Path.barrier?_cases hBarrier with h | ⟨_, h⟩ <;> cases h
  · cases t.locate p <;> exact nofun

theorem ensureAt_cases (p : Path) (l : Location) (t : FileTree) :
    (∃ after, ensureAt p l t = .ok l after) ∨
      ensureAt p l t = .error (.refused .alreadyExists p none) t := by
  rw [ensureAt]
  split
  · exact .inl ⟨_, rfl⟩
  · exact .inr rfl
  · exact .inl ⟨_, rfl⟩

theorem ensureDirectory_cases (p : Path) (t : FileTree) :
    (∃ e, t.resolve p = .error e ∧ ensureDirectory p t = .error e t) ∨
      ∃ l, t.resolve p = .ok l ∧ ((∃ after, ensureDirectory p t = .ok l after) ∨
        ensureDirectory p t = .error (.refused .alreadyExists p none) t) := by
  rw [ensureDirectory.eq_def]
  cases hResolve : t.resolve p with
  | error e => exact .inl ⟨e, rfl, rfl⟩
  | ok l => exact .inr ⟨l, rfl, ensureAt_cases p l t⟩

theorem ensureBelow_ne_tooDeep (p : Path) (above : Location) (t after : FileTree) :
    ensureBelow p above t ≠ .error .tooDeep after := by
  rw [ensureBelow]
  split
  · exact nofun
  · next l _ =>
    rcases ensureAt_cases p l t with ⟨_, h⟩ | h <;> rw [h] <;> exact nofun

/-- Directories are not made exactly if the place of each of the lowest ones is missing. -/
theorem makeDirectoriesWithin_tooDeep_iff {room : Nat} {p : Path} {t : FileTree} :
    (∃ after, makeDirectoriesWithin room p t = .error .tooDeep after) ↔
      ∀ i < room, (Path.parent^[i] p).parts ≠ [] ∧
        t.resolve (Path.parent^[i] p) = .error (.refused .notFound (Path.parent^[i] p) none) := by
  induction room generalizing p with
  | zero => exact iff_of_true ⟨t, rfl⟩ nofun
  | succ room ih =>
    rw [Nat.forall_lt_succ_left]
    simp only [Function.iterate_succ_apply, Function.iterate_zero_apply, ← ih]
    rw [makeDirectoriesWithin]
    rcases ensureDirectory_cases p t with ⟨e, hResolve, hEnsure⟩ | ⟨l, hResolve, hEnsure⟩
    · -- Nothing was made yet, so the directories above are looked for on the same tree.
      rw [hResolve]
      simp only [hEnsure, Except.error.injEq]
      rw [and_comm (a := p.parts ≠ [])]
      by_cases hMissing : e = .refused .notFound p none ∧ p.parts ≠ []
      · rw [if_pos hMissing, and_iff_right hMissing]
        cases hAbove : makeDirectoriesWithin room p.parent t with
        | error e' last => simp
        | ok above last =>
          apply iff_of_false ?_ nofun
          rintro ⟨after, h⟩
          exact ensureBelow_ne_tooDeep p above last after h
      · rw [if_neg hMissing]
        apply iff_of_false ?_ fun h => hMissing h.1
        rintro ⟨_, h⟩
        cases h
        exact resolve_ne_tooDeep t p hResolve
    · rw [hResolve]
      refine iff_of_false ?_ (by rintro ⟨⟨_, h⟩, _⟩; cases h)
      rcases hEnsure with ⟨after, hEnsure⟩ | hEnsure
      · simp [hEnsure]
      · simp [hEnsure]

/-- So many directories on the way to this one are missing that none of them is made. -/
def TooManyMissing (t : FileTree) (p : Path) : Prop :=
  ∀ i < longestMissingWay, (Path.parent^[i] p).parts ≠ [] ∧
    t.resolve (Path.parent^[i] p) = .error (.refused .notFound (Path.parent^[i] p) none)

theorem makeDirectories_tooDeep_iff {p : Path} {t : FileTree} :
    (∃ after, makeDirectories p t = .error .tooDeep after) ↔ t.TooManyMissing p := by
  rw [TooManyMissing, ← makeDirectoriesWithin_tooDeep_iff, makeDirectories]
  simp only [bind, EStateM.bind]
  cases makeDirectoriesWithin longestMissingWay p t with
  | ok l after => exact iff_of_false nofun nofun
  | error e after => simp

theorem write_ne_tooDeep (p : Path) (content : Text) (t after : FileTree) :
    write p content t ≠ .error .tooDeep after := by
  rw [write.eq_def]
  cases hResolve : t.resolve p with
  | error e =>
    intro h
    cases h
    exact resolve_ne_tooDeep t p hResolve
  | ok l =>
    simp only
    split
    · exact nofun
    · split <;> exact nofun

theorem replace_ne_tooDeep (source target : Path) (t after : FileTree) :
    replace source target t ≠ .error .tooDeep after := by
  rw [replace.eq_def]
  split
  · next e hBarrier =>
    intro h
    cases h
    rcases Path.barriers_cases hBarrier with h | h <;>
      rcases Path.barrier?_cases h with h | ⟨_, h⟩ <;> cases h
  · split
    · exact nofun
    · exact nofun
    · split <;> exact nofun

end FileTree

namespace Output

variable {process : Nat} {out : Setting Path}

/-! ## Writing one file -/

/-- The temporary file of an output. -/
def temporary (process : Nat) (p : Path) : Path :=
  ⟨p.anchor, p.parts.dropLast ++ [temporaryName process p.name]⟩

theorem withName?_temporaryName (process : Nat) (p : Path) :
    p.withName? (temporaryName process p.name) =
      if p.parts = [] then none else some (temporary process p) := rfl

/-- A file is written in steps, each of which is taken if the one before it succeeds. -/
theorem writeFile_cases (process : Nat) (destination : Path) (content : Text) (t : FileTree) :
    (∃ e made, FileTree.makeDirectories destination.parent t = .error e made ∧
      writeFile process destination content t = .error e made) ∨
    ∃ made, FileTree.makeDirectories destination.parent t = .ok () made ∧
      ((destination.parts = [] ∧
        writeFile process destination content t = .error (.nameless destination) made) ∨
      (destination.parts ≠ [] ∧
        ((∃ e last, FileTree.write (temporary process destination) content made = .error e last ∧
          writeFile process destination content t = .error e last) ∨
        ∃ written, FileTree.write (temporary process destination) content made = .ok () written ∧
          writeFile process destination content t =
            FileTree.replace (temporary process destination) destination written))) := by
  simp only [writeFile, withName?_temporaryName, bind, EStateM.bind]
  cases FileTree.makeDirectories destination.parent t with
  | error e made => exact .inl ⟨e, made, rfl, rfl⟩
  | ok _ made =>
    refine .inr ⟨made, rfl, ?_⟩
    by_cases hName : destination.parts = []
    · simp only [if_pos hName]
      exact .inl ⟨hName, rfl⟩
    · simp only [if_neg hName, EStateM.bind]
      refine .inr ⟨hName, ?_⟩
      cases FileTree.write (temporary process destination) content made with
      | error e last => exact .inl ⟨e, last, rfl, rfl⟩
      | ok _ written => exact .inr ⟨written, rfl, rfl⟩

theorem writeFile_tooDeep_iff {destination : Path} {content : Text} {t : FileTree} :
    (∃ after, writeFile process destination content t = .error .tooDeep after) ↔
      t.TooManyMissing destination.parent := by
  rw [← FileTree.makeDirectories_tooDeep_iff]
  rcases writeFile_cases process destination content t with
    ⟨e, made, hMake, hFile⟩ | ⟨made, hMake, ⟨_, hFile⟩ | ⟨_, hRest⟩⟩
  · rw [hMake, hFile]
  · rw [hMake, hFile]
    exact iff_of_false nofun nofun
  · rw [hMake]
    apply iff_of_false ?_ nofun
    rintro ⟨after, h⟩
    rcases hRest with ⟨e, last, hWrite, hFile⟩ | ⟨written, _, hFile⟩
    · cases hFile.symm.trans h
      exact FileTree.write_ne_tooDeep _ _ _ _ hWrite
    · exact FileTree.replace_ne_tooDeep _ _ _ _ (hFile.symm.trans h)

/-! ## One attempt -/

/-- An output fails where its destination, its content or the writing fails. -/
inductive Fails (process : Nat) (item : Item) (source : NativeSource) (tree : FileTree) :
    Setting Path → OutputError → Prop
  | place {out e} (hPlace : OutputPath.place item.platform source = .error e) :
      Fails process item source tree out (.place e)
  | blankDirectory {place} (hPlace : OutputPath.place item.platform source = .ok place) :
      Fails process item source tree .blank .blankDirectory
  | content {out place e} (hPlace : OutputPath.place item.platform source = .ok place)
      (hRead : source.content.read tree = .error e) :
      Fails process item source tree (.value out) (.content e)
  | file {out place content e after} (hPlace : OutputPath.place item.platform source = .ok place)
      (hRead : source.content.read tree = .ok content)
      (hWrite : writeFile process (out / place) content tree = .error e after) :
      Fails process item source tree (.value out) (.file e)

def failure? (process : Nat) (out : Setting Path) (item : Item) (source : NativeSource)
    (tree : FileTree) : Option OutputError :=
  match write process out item.platform source tree with
  | .ok _ _ => none
  | .error e _ => some e

theorem failure?_eq_some_iff {item : Item} {source : NativeSource} {tree : FileTree}
    {e : OutputError} :
    failure? process out item source tree = some e ↔ Fails process item source tree out e := by
  constructor
  · rw [failure?, write.eq_def]
    intro h
    cases hPlace : OutputPath.place item.platform source with
    | error e' =>
      rw [hPlace] at h
      cases h
      exact .place hPlace
    | ok place =>
      rw [hPlace] at h
      cases out with
      | blank =>
        cases h
        exact .blankDirectory hPlace
      | value dir =>
        cases hRead : source.content.read tree with
        | error e' =>
          rw [hRead] at h
          cases h
          exact .content hPlace hRead
        | ok content =>
          simp only [hRead] at h
          cases hWrite : writeFile process (dir / place) content tree with
          | ok _ after =>
            rw [hWrite] at h
            cases h
          | error e' after =>
            rw [hWrite] at h
            cases h
            exact .file hPlace hRead hWrite
  · intro h
    cases h with
    | place hPlace => simp [failure?, write, hPlace]
    | blankDirectory hPlace => simp [failure?, write, hPlace]
    | content hPlace hRead => simp [failure?, write, hPlace, hRead]
    | file hPlace hRead hWrite => simp [failure?, write, hPlace, hRead, hWrite]

/-- What is reported of an item that is attempted on a tree. -/
def diagnostic? (process : Nat) (out : Setting Path) (attempt : Item × FileTree) :
    Option Diagnostic :=
  match attempt.1.kind with
  | .failed problem | .struck problem _ => some (problemDiagnostic attempt.1 problem)
  | .payload (.final _) => none
  | .payload (.native source) =>
    (failure? process out attempt.1 source attempt.2).map (failureDiagnostic attempt.1 source)

theorem isSome_diagnostic?_iff {item : Item} {tree : FileTree} :
    (diagnostic? process out (item, tree)).isSome = true ↔ item.problem?.isSome = true ∨
      ∃ source e, item.native? = some source ∧ Fails process item source tree out e := by
  rw [diagnostic?, Item.problem?, Item.native?]
  cases item.kind with
  | failed problem => simp
  | struck problem original => simp
  | payload payload =>
    cases payload with
    | final file => simp
    | native source =>
      rw [Option.isSome_map, Option.isSome_iff_exists]
      simp [failure?_eq_some_iff]

/-- An attempt that ends the run. -/
def Ends (process : Nat) (out : Setting Path) (attempt : Item × FileTree) : Prop :=
  ∃ source e, attempt.1.native? = some source ∧
    Fails process attempt.1 source attempt.2 out e ∧ e.isFinal = true

theorem ends_iff {item : Item} {tree : FileTree} :
    Ends process out (item, tree) ↔ ∃ source place, item.native? = some source ∧
      OutputPath.place item.platform source = .ok place ∧
      (out = .blank ∨ ∃ dir content, out = .value dir ∧ source.content.read tree = .ok content ∧
        tree.TooManyMissing (dir / place).parent) := by
  constructor
  · rintro ⟨source, e, hNative, hFails, hFinal⟩
    cases hFails with
    | place hPlace => cases hFinal
    | blankDirectory hPlace => exact ⟨source, _, hNative, hPlace, .inl rfl⟩
    | content hPlace hRead => cases hFinal
    | @file dir place content e after hPlace hRead hWrite =>
      cases e with
      | tooDeep =>
        refine ⟨source, place, hNative, hPlace, .inr ⟨dir, content, rfl, hRead, ?_⟩⟩
        exact writeFile_tooDeep_iff.mp ⟨after, hWrite⟩
      | _ => cases hFinal
  · rintro ⟨source, place, hNative, hPlace, rfl | ⟨dir, content, rfl, hRead, hMissing⟩⟩
    · exact ⟨source, _, hNative, .blankDirectory hPlace, rfl⟩
    · obtain ⟨last, hWrite⟩ := writeFile_tooDeep_iff.mpr hMissing
      exact ⟨source, _, hNative, .file hPlace hRead hWrite, rfl⟩

/-- The tree that an attempt leaves. -/
def after (process : Nat) (out : Setting Path) (tree : FileTree) (item : Item) : FileTree :=
  match writeItem process out item tree with
  | .ok _ last | .error _ last => last

theorem writeItem_of_ends {item : Item} {tree : FileTree} (h : Ends process out (item, tree)) :
    ∃ e, writeItem process out item tree = .error e (after process out tree item) := by
  obtain ⟨source, e, hNative, hFails, hFinal⟩ := h
  have hKind : item.kind = .payload (.native source) := Item.native?_eq_some_iff.mp hNative
  rw [← failure?_eq_some_iff, failure?] at hFails
  rw [after, writeItem.eq_def, hKind]
  simp only
  cases hWrite : write process out item.platform source tree with
  | ok destination last =>
    rw [hWrite] at hFails
    cases hFails
  | error e' last =>
    rw [hWrite] at hFails
    cases hFails
    simp only [if_pos hFinal]
    exact ⟨e, rfl⟩

theorem writeItem_of_not_ends {item : Item} {tree : FileTree}
    (h : ¬Ends process out (item, tree)) :
    ∃ events, writeItem process out item tree = .ok
      ⟨(diagnostic? process out (item, tree)).toList, events⟩ (after process out tree item) := by
  rw [after, diagnostic?, writeItem.eq_def]
  cases hKind : item.kind with
  | failed problem => exact ⟨[], rfl⟩
  | struck problem original => exact ⟨[], rfl⟩
  | payload payload =>
    cases payload with
    | final file => exact ⟨[], rfl⟩
    | native source =>
      have hNative : item.native? = some source := Item.native?_eq_some_iff.mpr hKind
      simp only
      cases hWrite : write process out item.platform source tree with
      | ok destination last =>
        rw [failure?, hWrite]
        exact ⟨_, rfl⟩
      | error e last =>
        have hFailure : failure? process out item source tree = some e := by rw [failure?, hWrite]
        rw [hFailure]
        have hGoesOn : ¬e.isFinal = true := fun hFinal =>
          h ⟨source, e, hNative, failure?_eq_some_iff.mp hFailure, hFinal⟩
        simp only [if_neg hGoesOn]
        exact ⟨[], rfl⟩

/-! ## All attempts -/

/-- The items with the trees on which they are attempted. -/
def attempts (process : Nat) (out : Setting Path) (tree : FileTree) : List Item →
    List (Item × FileTree)
  | [] => []
  | item :: rest => (item, tree) :: attempts process out (after process out tree item) rest

theorem map_fst_attempts (tree : FileTree) (items : List Item) :
    (attempts process out tree items).map Prod.fst = items := by
  induction items generalizing tree with
  | nil => rfl
  | cons item rest ih => rw [attempts, List.map_cons, ih]

theorem writeItems_eq_ok_iff {items : List Item} {tree last : FileTree}
    {diagnostics : List Diagnostic} :
    (∃ events, writeItems process out items tree = .ok ⟨diagnostics, events⟩ last) ↔
      (∀ attempt ∈ attempts process out tree items, ¬Ends process out attempt) ∧
        diagnostics = (attempts process out tree items).filterMap (diagnostic? process out) ∧
        last = items.foldl (after process out) tree := by
  -- An attempt hands on the tree that it leaves, so the induction is for every tree.
  induction items generalizing tree diagnostics with
  | nil =>
    rw [writeItems, attempts]
    constructor
    · rintro ⟨events, h⟩
      cases h
      exact ⟨List.forall_mem_nil _, rfl, rfl⟩
    · rintro ⟨_, rfl, rfl⟩
      exact ⟨[], rfl⟩
  | cons item rest ih =>
    rw [writeItems, attempts, List.forall_mem_cons]
    simp only [bind, EStateM.bind]
    by_cases hEnds : Ends process out (item, tree)
    · obtain ⟨e, hItem⟩ := writeItem_of_ends hEnds
      rw [hItem]
      exact iff_of_false nofun fun h => h.1.1 hEnds
    · obtain ⟨events, hItem⟩ := writeItem_of_not_ends hEnds
      have hFirst (others : List (Item × FileTree)) :
          ((item, tree) :: others).filterMap (diagnostic? process out) =
            (diagnostic? process out (item, tree)).toList ++
              others.filterMap (diagnostic? process out) := by
        rw [List.filterMap_cons]
        cases diagnostic? process out (item, tree) <;> rfl
      rw [hItem, and_iff_right hEnds, hFirst, List.foldl_cons]
      simp only
      constructor
      · rintro ⟨_, h⟩
        cases hRest : writeItems process out rest (after process out tree item) with
        | error e last' =>
          rw [hRest] at h
          cases h
        | ok written last' =>
          rw [hRest] at h
          cases h
          obtain ⟨hRestEnds, hDiagnostics, hLast⟩ := ih.mp ⟨written.events, hRest⟩
          exact ⟨hRestEnds, congrArg _ hDiagnostics, hLast⟩
      · rintro ⟨hRestEnds, rfl, rfl⟩
        obtain ⟨more, hRest⟩ := ih.mpr ⟨hRestEnds, rfl, rfl⟩
        rw [hRest]
        exact ⟨_, rfl⟩

end Output

end Amalgam
