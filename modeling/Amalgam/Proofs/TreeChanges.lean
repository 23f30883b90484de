import Amalgam.Proofs.OutputAttempts
import Amalgam.Proofs.OutputPlaces

/-! # What operations change in a file tree

Names alone decide where a path leads, if it leads anywhere. Making directories changes nothing that
is there, and adds directories on the way to a path only. Writing a file and moving one change the
places of the paths they name. An operation that fails leaves the files as they are, but for a file
that was opened and whose content cannot be encoded: it is left empty.
-/

namespace Amalgam

/-- The state that is left, whether the computation succeeds or fails. -/
def leaves {ε σ α : Type} (x : EStateM ε σ α) (s : σ) : σ :=
  match x s with
  | .ok _ last | .error _ last => last

theorem leaves_of_ok {ε σ α : Type} {x : EStateM ε σ α} {s last : σ} {a : α}
    (h : x s = .ok a last) : leaves x s = last := by
  rw [leaves, h]

theorem leaves_of_error {ε σ α : Type} {x : EStateM ε σ α} {s last : σ} {e : ε}
    (h : x s = .error e last) : leaves x s = last := by
  rw [leaves, h]

theorem leaves_bind_of_ok {ε σ α β : Type} {x : EStateM ε σ α} {f : α → EStateM ε σ β}
    {s last : σ} {a : α} (h : x s = .ok a last) : leaves (x >>= f) s = leaves (f a) last := by
  simp only [leaves, bind, EStateM.bind, h]

theorem leaves_bind_of_error {ε σ α β : Type} {x : EStateM ε σ α} {f : α → EStateM ε σ β}
    {s last : σ} {e : ε} (h : x s = .error e last) : leaves (x >>= f) s = last := by
  simp only [leaves, bind, EStateM.bind, h]

namespace FileTree

/-! ## Where paths lead -/

def follow (here : Location) (name : FileName) : Location :=
  if name = upward then here.dropLast else here ++ [name]

/-- Where a path leads by its names, whatever is there. -/
def place (t : FileTree) (p : Path) : Location := p.fileNames.foldl follow (t.start p)

theorem place_congr {t t' : FileTree} (h : t'.workingDirectory = t.workingDirectory) (p : Path) :
    t'.place p = t.place p := by
  rw [place, place, start, start, h]

theorem place_of_parts_ne_nil {t : FileTree} {p : Path} (h : p.parts ≠ []) :
    t.place p = follow (t.place p.parent) (Text.Utf8.octets p.name) := by
  obtain ⟨before, name, hParts⟩ := (List.eq_nil_or_concat p.parts).resolve_left h
  rw [List.concat_eq_append] at hParts
  simp [place, Path.fileNames, Path.parent, Path.name, hParts, start, Path.isAbsolute]

theorem place_append (t : FileTree) (p : Path) {names : List Text}
    (h : ∀ name ∈ names, Path.IsDown name) :
    t.place ⟨p.anchor, p.parts ++ names⟩ = t.place p ++ names.map Text.Utf8.octets := by
  have hDown (here : Location) :
      (names.map Text.Utf8.octets).foldl follow here = here ++ names.map Text.Utf8.octets := by
    induction names generalizing here with
    | nil => rw [List.map_nil, List.foldl_nil, List.append_nil]
    | cons name rest ih =>
      obtain ⟨hName, hRest⟩ := List.forall_mem_cons.mp h
      have hOther : Text.Utf8.octets name ≠ upward :=
        Text.Utf8.octets_eq_upward_iff.not.mpr hName.ne_up
      rw [List.map_cons, List.foldl_cons, ih hRest, follow, if_neg hOther, List.append_assoc]
      rfl
  simp only [place, Path.fileNames, List.map_append, List.foldl_append, hDown]
  rfl

/-- Paths below one path lead to one place exactly if they have the same names in octets. -/
theorem place_inj {t : FileTree} {out p q : Path} (hp : p.IsBelow out) (hq : q.IsBelow out) :
    t.place p = t.place q ↔ p.fileNames = q.fileNames := by
  obtain ⟨names, _, hDown, rfl⟩ := hp
  obtain ⟨others, _, hOthers, rfl⟩ := hq
  rw [place_append t out hDown, place_append t out hOthers, List.append_cancel_left_eq,
    Path.fileNames, Path.fileNames, List.map_append, List.map_append, List.append_cancel_left_eq]

theorem walk_eq_ok {t : FileTree} {here l : Location} {names : List FileName}
    (h : t.walk here names = .ok l) : l = names.foldl follow here := by
  induction names generalizing here with
  | nil =>
    cases h
    rfl
  | cons name rest ih =>
    rw [walk] at h
    split at h
    · cases h
    · cases h
    · split at h
      · cases h
      · exact ih h

theorem locate_eq_ok {t : FileTree} {p : Path} {l : Location} (h : t.locate p = .ok l) :
    l = t.place p := by
  rw [locate] at h
  split at h
  · cases h
  · exact walk_eq_ok h

theorem resolve_eq_ok_iff {t : FileTree} {p : Path} {l : Location} :
    t.resolve p = .ok l ↔ p.barrier? = none ∧ ¬longestPath < (Text.Utf8.octets p.text).length ∧
      t.walk (t.start p) p.fileNames = .ok l := by
  rw [resolve]
  cases hBarrier : p.barrier? with
  | some e => simp
  | none =>
    simp only [mapError_eq_ok_iff, locate, true_and]
    split
    · next hLong => simp [hLong]
    · next hShort => rw [and_iff_right hShort]

theorem resolve_eq_ok {t : FileTree} {p : Path} {l : Location} (h : t.resolve p = .ok l) :
    l = t.place p :=
  walk_eq_ok (resolve_eq_ok_iff.mp h).2.2

theorem read_eq_ok_iff {t : FileTree} {p : Path} {octets : List UInt8} :
    t.read p = .ok octets ↔
      t.resolve p = .ok (t.place p) ∧ t.node? (t.place p) = some (.file octets) := by
  rw [read, bind_eq_ok_iff]
  constructor
  · rintro ⟨l, hResolve, h⟩
    obtain rfl := resolve_eq_ok hResolve
    refine ⟨hResolve, ?_⟩
    split at h
    · next hNode =>
      cases h
      exact hNode
    · cases h
    · cases h
  · rintro ⟨hResolve, hNode⟩
    refine ⟨_, hResolve, ?_⟩
    rw [hNode]
    rfl

/-- A way that leads somewhere still leads there where all directories are kept. -/
theorem walk_of_directories {t t' : FileTree}
    (h : ∀ l, t.node? l = some .directory → t'.node? l = some .directory) {here l : Location}
    {names : List FileName} (hWalk : t.walk here names = .ok l) : t'.walk here names = .ok l := by
  induction names generalizing here with
  | nil => exact hWalk
  | cons name rest ih =>
    rw [walk] at hWalk ⊢
    split at hWalk
    · cases hWalk
    · cases hWalk
    · next hHere =>
      split at hWalk
      · cases hWalk
      · next hName =>
        rw [h here hHere]
        exact (if_neg hName).trans (ih hWalk)

theorem resolve_of_directories {t t' : FileTree}
    (hWorking : t'.workingDirectory = t.workingDirectory)
    (h : ∀ l, t.node? l = some .directory → t'.node? l = some .directory) {p : Path} {l : Location}
    (hResolve : t.resolve p = .ok l) : t'.resolve p = .ok l := by
  obtain ⟨hBarrier, hShort, hWalk⟩ := resolve_eq_ok_iff.mp hResolve
  have hStart : t'.start p = t.start p := by rw [start, start, hWorking]
  exact resolve_eq_ok_iff.mpr ⟨hBarrier, hShort, hStart ▸ walk_of_directories h hWalk⟩

theorem directory_of_walk {t : FileTree} {here l : Location} {before after : List FileName}
    (hWalk : t.walk here (before ++ after) = .ok l) (hAfter : after ≠ []) :
    t.node? (before.foldl follow here) = some .directory := by
  induction before generalizing here with
  | nil =>
    obtain ⟨name, rest, rfl⟩ := List.exists_cons_of_ne_nil hAfter
    rw [List.nil_append, walk] at hWalk
    split at hWalk
    · cases hWalk
    · cases hWalk
    · next hHere => exact hHere
  | cons name rest ih =>
    rw [List.cons_append, walk] at hWalk
    split at hWalk
    · cases hWalk
    · cases hWalk
    · split at hWalk
      · cases hWalk
      · exact ih hWalk

/-- All that is on the way to a path that leads somewhere are directories. -/
theorem directory_of_resolve {t : FileTree} {p q : Path} {l : Location}
    (hResolve : t.resolve p = .ok l) (hParts : p.parts ≠ []) (h : q.LeadsTo p.parent) :
    t.node? (t.place q) = some .directory := by
  obtain ⟨hAnchor, rest, hRest⟩ := h
  obtain ⟨_, _, hWalk⟩ := resolve_eq_ok_iff.mp hResolve
  have hStart : t.start q = t.start p := by
    rw [start, start, Path.isAbsolute, Path.isAbsolute, hAnchor]
    rfl
  have hSplit : p.parts = q.parts ++ (rest ++ [p.parts.getLast hParts]) := by
    rw [← List.append_assoc, hRest]
    exact (List.dropLast_concat_getLast hParts).symm
  rw [Path.fileNames, hSplit, List.map_append] at hWalk
  rw [place, hStart]
  exact directory_of_walk hWalk (by simp)

/-! ## Single changes -/

theorem ne_nil_of_node?_ne {t : FileTree} {l : Location} (h : t.node? l ≠ some .directory) :
    l ≠ [] := by
  rintro rfl
  exact h rfl

theorem node?_put_of_ne_nil {t : FileTree} {l : Location} (h : l ≠ []) (node : Node)
    (m : Location) : (t.put l node).node? m = if m = l then some node else t.node? m := by
  by_cases hm : m = []
  · subst hm
    rw [if_neg (Ne.symm h)]
    rfl
  · exact node?_put t l m node hm

theorem node?_erase_of_ne_nil {t : FileTree} {l : Location} (h : l ≠ []) (m : Location) :
    (t.erase l).node? m = if m = l then none else t.node? m := by
  by_cases hm : m = []
  · subst hm
    rw [if_neg (Ne.symm h)]
    rfl
  · exact node?_erase t l m hm

/-! ## Making directories -/

/-- Nothing is different but that directories were made, in some of the given places. -/
structure MakesOnly (places : Location → Prop) (t t' : FileTree) : Prop where
  workingDirectory : t'.workingDirectory = t.workingDirectory
  node? : ∀ l, t'.node? l = t.node? l ∨
    (t.node? l = none ∧ t'.node? l = some .directory ∧ places l)

namespace MakesOnly

variable {places more : Location → Prop} {t t' t'' : FileTree}

theorem refl (places : Location → Prop) (t : FileTree) : MakesOnly places t t :=
  ⟨rfl, fun _ => .inl rfl⟩

theorem mono (h : MakesOnly places t t') (hMore : ∀ l, places l → more l) : MakesOnly more t t' :=
  ⟨h.workingDirectory, fun l => (h.node? l).imp_right fun hl => ⟨hl.1, hl.2.1, hMore l hl.2.2⟩⟩

theorem trans (h : MakesOnly places t t') (h' : MakesOnly places t' t'') :
    MakesOnly places t t'' := by
  refine ⟨h'.workingDirectory.trans h.workingDirectory, fun l => ?_⟩
  rcases h'.node? l with hSame | ⟨hNone, hMade, hPlace⟩
  · rw [hSame]
    exact h.node? l
  · rcases h.node? l with hSame | ⟨_, hMade', _⟩
    · exact .inr ⟨hSame ▸ hNone, hMade, hPlace⟩
    · cases hNone.symm.trans hMade'

theorem file_iff (h : MakesOnly places t t') {l : Location} {octets : List UInt8} :
    t'.node? l = some (.file octets) ↔ t.node? l = some (.file octets) := by
  rcases h.node? l with hSame | ⟨hNone, hMade, _⟩
  · rw [hSame]
  · rw [hNone, hMade]
    exact iff_of_false nofun nofun

end MakesOnly

theorem makesOnly_ensureAt (p : Path) (l : Location) (t : FileTree) :
    MakesOnly (· = l) t (leaves (ensureAt p l) t) := by
  rw [leaves, ensureAt]
  cases hNode : t.node? l with
  | some node => cases node <;> exact .refl _ t
  | none =>
    have hFree : t.node? l ≠ some .directory := by simp [hNode]
    refine ⟨rfl, fun m => ?_⟩
    rw [node?_put_of_ne_nil (ne_nil_of_node?_ne hFree)]
    by_cases hm : m = l
    · rw [if_pos hm, hm]
      exact .inr ⟨hNode, rfl, rfl⟩
    · exact .inl (if_neg hm)

theorem ensureAt_eq_ok {p : Path} {l l' : Location} {t t' : FileTree}
    (h : ensureAt p l t = .ok l' t') : l' = l := by
  rw [ensureAt] at h
  split at h
  · cases h
    rfl
  · cases h
  · cases h
    rfl

theorem ensureAt_error {p : Path} {l : Location} {e : FileError} {t t' : FileTree}
    (h : ensureAt p l t = .error e t') : e = .refused .alreadyExists p none := by
  rcases ensureAt_cases p l t with ⟨after, hOk⟩ | hError
  · cases hOk.symm.trans h
  · cases hError.symm.trans h
    rfl

theorem makesOnly_ensureBelow (p : Path) (above : Location) (t : FileTree) :
    MakesOnly (· = follow above (Text.Utf8.octets p.name)) t (leaves (ensureBelow p above) t) := by
  rw [leaves, ensureBelow]
  cases hWalk : t.walk above [Text.Utf8.octets p.name] with
  | error cause => exact .refl _ t
  | ok l =>
    obtain rfl := walk_eq_ok hWalk
    exact makesOnly_ensureAt p (follow above (Text.Utf8.octets p.name)) t

theorem ensureBelow_eq_ok {p : Path} {above l : Location} {t t' : FileTree}
    (h : ensureBelow p above t = .ok l t') : l = follow above (Text.Utf8.octets p.name) := by
  rw [ensureBelow] at h
  split at h
  · cases h
  · next l' hWalk =>
    obtain rfl := walk_eq_ok hWalk
    exact ensureAt_eq_ok h

/-- Directories are made on the way to the path, and what is returned is where it leads. -/
theorem makeDirectoriesWithin_spec (room : Nat) (p : Path) (t : FileTree) :
    MakesOnly (fun l => ∃ q : Path, q.LeadsTo p ∧ l = t.place q) t
        (leaves (makeDirectoriesWithin room p) t) ∧
      ∀ l t', makeDirectoriesWithin room p t = .ok l t' → l = t.place p := by
  induction room generalizing p with
  | zero =>
    refine ⟨.refl _ t, ?_⟩
    rintro _ _ ⟨⟩
  | succ room ih =>
    cases hResolve : t.resolve p with
    | ok l =>
      obtain rfl := resolve_eq_ok hResolve
      have hRun : makeDirectoriesWithin (room + 1) p t = ensureAt p (t.place p) t := by
        simp only [makeDirectoriesWithin, ensureDirectory, hResolve]
        cases hEnsure : ensureAt p (t.place p) t with
        | ok l t' => rfl
        | error e t' =>
          obtain rfl := ensureAt_error hEnsure
          rfl
      rw [leaves, hRun, ← leaves]
      refine ⟨(makesOnly_ensureAt p (t.place p) t).mono ?_, fun l t' h => ensureAt_eq_ok h⟩
      rintro _ rfl
      exact ⟨p, p.leadsTo_refl, rfl⟩
    | error e =>
      by_cases hMissing : e = .refused .notFound p none ∧ p.parts ≠ []
      · obtain ⟨hAbove, hReturned⟩ := ih p.parent
        have hWay : MakesOnly (fun l => ∃ q : Path, q.LeadsTo p ∧ l = t.place q) t
            (leaves (makeDirectoriesWithin room p.parent) t) := by
          apply hAbove.mono
          rintro l ⟨q, hq, rfl⟩
          exact ⟨q, hq.trans p.parent_leadsTo, rfl⟩
        cases hParent : makeDirectoriesWithin room p.parent t with
        | error e' t' =>
          have hRun : makeDirectoriesWithin (room + 1) p t = .error e' t' := by
            simp only [makeDirectoriesWithin, ensureDirectory, hResolve, if_pos hMissing, hParent]
          rw [leaves_of_error hParent] at hWay
          rw [leaves_of_error hRun, hRun]
          refine ⟨hWay, ?_⟩
          rintro _ _ ⟨⟩
        | ok above t' =>
          have hRun : makeDirectoriesWithin (room + 1) p t = ensureBelow p above t' := by
            simp only [makeDirectoriesWithin, ensureDirectory, hResolve, if_pos hMissing, hParent]
          have hPlace : follow above (Text.Utf8.octets p.name) = t.place p := by
            rw [hReturned above t' hParent, place_of_parts_ne_nil hMissing.2]
          rw [leaves_of_ok hParent] at hWay
          rw [leaves, hRun, ← leaves]
          refine ⟨hWay.trans ((makesOnly_ensureBelow p above t').mono ?_),
            fun l last h => (ensureBelow_eq_ok h).trans hPlace⟩
          rintro _ rfl
          exact ⟨p, p.leadsTo_refl, hPlace⟩
      · have hRun : makeDirectoriesWithin (room + 1) p t = .error e t := by
          simp only [makeDirectoriesWithin, ensureDirectory, hResolve, if_neg hMissing]
        rw [leaves_of_error hRun, hRun]
        refine ⟨.refl _ t, ?_⟩
        rintro _ _ ⟨⟩

theorem makesOnly_makeDirectories (p : Path) (t : FileTree) :
    MakesOnly (fun l => ∃ q : Path, q.LeadsTo p ∧ l = t.place q) t
      (leaves (makeDirectories p) t) := by
  have hLeaves : leaves (makeDirectories p) t =
      leaves (makeDirectoriesWithin longestMissingWay p) t := by
    rw [makeDirectories]
    simp only [leaves, bind, EStateM.bind]
    cases makeDirectoriesWithin longestMissingWay p t <;> rfl
  rw [hLeaves]
  exact (makeDirectoriesWithin_spec longestMissingWay p t).1

/-! ## Writing and moving files -/

/-- The file can be opened for writing. -/
def Opens (t : FileTree) (p : Path) : Prop :=
  t.resolve p = .ok (t.place p) ∧ t.node? (t.place p) ≠ some .directory

/-- A file that can be opened then holds the octets, or nothing if there are none. -/
theorem write_of_opens {p : Path} {content : Text} {t : FileTree} (h : t.Opens p) :
    write p content t =
      match Text.Utf8.encode content with
      | .ok octets => .ok () (t.put (t.place p) (.file octets))
      | .error e => .error (.unencodable e) (t.put (t.place p) (.file [])) := by
  rw [write.eq_def, h.1]
  simp only
  split
  · next hDirectory => exact absurd hDirectory h.2
  · rfl

theorem node?_put_of_opens {p : Path} {t : FileTree} (h : t.Opens p) (node : Node) (l : Location) :
    (t.put (t.place p) node).node? l = if l = t.place p then some node else t.node? l :=
  node?_put_of_ne_nil (ne_nil_of_node?_ne h.2) node l

theorem write_of_not_opens {p : Path} {t : FileTree} (content : Text) (h : ¬t.Opens p) :
    ∃ e, write p content t = .error e t := by
  rw [write.eq_def]
  split
  · next e _ => exact ⟨e, rfl⟩
  · next l hResolve =>
    obtain rfl := resolve_eq_ok hResolve
    split
    · exact ⟨_, rfl⟩
    · next hNode => exact absurd ⟨hResolve, hNode⟩ h

theorem write_eq_ok {p : Path} {content : Text} {t t' : FileTree}
    (h : write p content t = .ok () t') :
    t.Opens p ∧ t'.workingDirectory = t.workingDirectory ∧ ∃ octets,
      Text.Utf8.encode content = .ok octets ∧
        ∀ l, t'.node? l = if l = t.place p then some (.file octets) else t.node? l := by
  by_cases hOpens : t.Opens p
  · rw [write_of_opens hOpens] at h
    split at h
    · next octets hEncode =>
      cases h
      exact ⟨hOpens, rfl, octets, hEncode, node?_put_of_opens hOpens _⟩
    · cases h
  · obtain ⟨e, hError⟩ := write_of_not_opens content hOpens
    cases hError.symm.trans h

/-- Writing fails where the file cannot be opened, or else where the content cannot be encoded. -/
theorem write_eq_error {p : Path} {content : Text} {e : FileError} {t t' : FileTree}
    (h : write p content t = .error e t') :
    (¬t.Opens p ∧ t' = t) ∨
      (t.Opens p ∧ t'.workingDirectory = t.workingDirectory ∧
        (∃ cause, Text.Utf8.encode content = .error cause) ∧
        ∀ l, t'.node? l = if l = t.place p then some (.file []) else t.node? l) := by
  by_cases hOpens : t.Opens p
  · rw [write_of_opens hOpens] at h
    split at h
    · cases h
    · next cause hEncode =>
      cases h
      exact .inr ⟨hOpens, rfl, ⟨cause, hEncode⟩, node?_put_of_opens hOpens _⟩
  · obtain ⟨e, hError⟩ := write_of_not_opens content hOpens
    cases hError.symm.trans h
    exact .inl ⟨hOpens, rfl⟩

theorem replace_eq_ok {source target : Path} {t t' : FileTree}
    (h : replace source target t = .ok () t') :
    t.resolve target = .ok (t.place target) ∧ t.node? (t.place target) ≠ some .directory ∧
      t'.workingDirectory = t.workingDirectory ∧
      ∃ octets, t.node? (t.place source) = some (.file octets) ∧
        ∀ l, t'.node? l = if l = t.place target then some (.file octets)
          else if l = t.place source then none else t.node? l := by
  rw [replace.eq_def] at h
  split at h
  · cases h
  · next hBarriers =>
    split at h
    · cases h
    · cases h
    · next s d hSource hTarget =>
      obtain rfl := locate_eq_ok hSource
      obtain rfl := locate_eq_ok hTarget
      have hResolve : t.resolve target = .ok (t.place target) := by
        rw [resolve, (Path.barriers_eq_none_iff.mp hBarriers).2, hTarget]
        rfl
      have hMoved (octets : List UInt8) (hFile : t.node? (t.place source) = some (.file octets))
          (hFree : t.node? (t.place target) ≠ some .directory) (l : Location) :
          ((t.erase (t.place source)).put (t.place target) (.file octets)).node? l =
            if l = t.place target then some (.file octets)
            else if l = t.place source then none else t.node? l := by
        have hSource : t.node? (t.place source) ≠ some .directory := by simp [hFile]
        rw [node?_put_of_ne_nil (ne_nil_of_node?_ne hFree),
          node?_erase_of_ne_nil (ne_nil_of_node?_ne hSource)]
      refine ⟨hResolve, ?_⟩
      split at h
      · next octets _ hFile hOther =>
        cases h
        have hFree : t.node? (t.place target) ≠ some .directory := by simp [hOther]
        exact ⟨hFree, rfl, octets, hFile, hMoved octets hFile hFree⟩
      · next octets hFile hNone =>
        cases h
        have hFree : t.node? (t.place target) ≠ some .directory := by simp [hNone]
        exact ⟨hFree, rfl, octets, hFile, hMoved octets hFile hFree⟩
      · cases h
      · cases h

theorem replace_eq_error {source target : Path} {e : FileError} {t t' : FileTree}
    (h : replace source target t = .error e t') : t' = t := by
  rw [replace.eq_def] at h
  split at h
  · cases h
    rfl
  · split at h
    · cases h
      rfl
    · cases h
      rfl
    · split at h
      · cases h
      · cases h
      · cases h
        rfl
      · cases h
        rfl

end FileTree

namespace Output

/-! ## What an attempt does -/

/-- The destination and the content with which an item is written, if it has both. -/
def written? (out : Setting Path) (item : Item) (t : FileTree) : Option (Path × Text) :=
  match destination? out item, item.native? with
  | some p, some source => (source.content.read t).toOption.map fun text => (p, text)
  | _, _ => none

section

variable {out : Setting Path} {t : FileTree} {item : Item} {source : NativeSource}

theorem written?_eq_some_iff {p : Path} {text : Text} (hNative : item.native? = some source) :
    written? out item t = some (p, text) ↔
      destination? out item = some p ∧ source.content.read t = .ok text := by
  rw [written?, hNative]
  cases destination? out item with
  | none => simp
  | some p' =>
    simp only [Option.map_eq_some_iff, Prod.mk.injEq, Option.some.injEq]
    cases source.content.read t <;> simp [Except.toOption, and_comm]

theorem written?_of_not_native (out : Setting Path) (t : FileTree) (h : item.native? = none) :
    written? out item t = none := by
  rw [written?, h]
  cases destination? out item <;> rfl

theorem destination_of_written {p : Path} {text : Text}
    (h : written? out item t = some (p, text)) : destination? out item = some p := by
  cases hNative : item.native? with
  | none => cases (written?_of_not_native out t hNative).symm.trans h
  | some source => exact ((written?_eq_some_iff hNative).mp h).1

theorem write_of_written (process : Nat) {p : Path} {text : Text}
    (hNative : item.native? = some source) (h : written? out item t = some (p, text)) :
    write process out item.platform source t =
      match writeFile process p text t with
      | .ok () last => .ok p last
      | .error e last => .error (.file e) last := by
  obtain ⟨hDestination, hRead⟩ := (written?_eq_some_iff hNative).mp h
  obtain ⟨dir, _, place, rfl, hSame, hPlace, rfl⟩ := destination?_eq_some_iff.mp hDestination
  cases hNative.symm.trans hSame
  cases hFile : writeFile process (dir / place) text t <;> simp only [write, hPlace, hRead, hFile]

theorem write_of_not_written (process : Nat) (hNative : item.native? = some source)
    (h : written? out item t = none) :
    ∃ e, write process out item.platform source t = .error e t := by
  cases hPlace : OutputPath.place item.platform source with
  | error e => exact ⟨.place e, by cases out <;> simp only [write, hPlace]⟩
  | ok place =>
    cases out with
    | blank => exact ⟨.blankDirectory, by simp only [write, hPlace]⟩
    | value dir =>
      have hDestination : destination? (.value dir) item = some (dir / place) :=
        destination?_eq_some_iff.mpr ⟨dir, source, place, rfl, hNative, hPlace, rfl⟩
      cases hRead : source.content.read t with
      | error e => exact ⟨.content e, by simp only [write, hPlace, hRead]⟩
      | ok text => cases h.symm.trans ((written?_eq_some_iff hNative).mpr ⟨hDestination, hRead⟩)

end

theorem after_eq_leaves_write {process : Nat} {out : Setting Path} {t : FileTree} {item : Item}
    {source : NativeSource} (h : item.native? = some source) :
    after process out t item = leaves (write process out item.platform source) t := by
  rw [after, writeItem.eq_def, Item.native?_eq_some_iff.mp h, leaves]
  simp only
  cases write process out item.platform source t with
  | ok destination last => rfl
  | error e last => cases hFinal : e.isFinal <;> simp [hFinal]

theorem after_of_not_native (process : Nat) (out : Setting Path) (t : FileTree) {item : Item}
    (h : item.native? = none) : after process out t item = t := by
  rw [after, writeItem.eq_def]
  cases hKind : item.kind with
  | failed problem => rfl
  | struck problem original => rfl
  | payload payload =>
    cases payload with
    | final file => rfl
    | native source => cases (Item.native?_eq_some_iff.mpr hKind).symm.trans h

/-- Only an item with a destination and a content changes the tree. -/
theorem after_eq (process : Nat) (out : Setting Path) (t : FileTree) (item : Item) :
    after process out t item =
      match written? out item t with
      | some (p, text) => leaves (writeFile process p text) t
      | none => t := by
  cases hNative : item.native? with
  | none => rw [after_of_not_native process out t hNative, written?_of_not_native out t hNative]
  | some source =>
    rw [after_eq_leaves_write hNative, leaves]
    cases hWritten : written? out item t with
    | none =>
      obtain ⟨e, hWrite⟩ := write_of_not_written process hNative hWritten
      rw [hWrite]
    | some written =>
      obtain ⟨p, text⟩ := written
      rw [write_of_written process hNative hWritten]
      change _ = leaves (writeFile process p text) t
      rw [leaves]
      cases writeFile process p text t <;> rfl

end Output

end Amalgam
