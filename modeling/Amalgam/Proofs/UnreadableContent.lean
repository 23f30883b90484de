import Amalgam.Proofs.CombinedItems
import Amalgam.Proofs.FileNames

/-! # Content that cannot be read

A bucket is stopped by the first fragment, in scheduled order, that is in conflict or cannot be
read, and becomes one failed item. The exception is a stored path that does not get to the system: a
pass that comes upon one in a bucket does not return. It is the only way in which a pass does not
return, so otherwise every bucket of every module has its item.
-/

namespace Amalgam

theorem ReadError.isExpected_of_barrier {p : Path} {e : FileError} (h : p.barrier? = some e) :
    (ReadError.file e).isExpected = false := by
  rcases Path.barrier?_cases h with rfl | ⟨_, rfl⟩ <;> rfl

theorem map_eq_error_iff {ε α β : Type} {x : Except ε α} {f : α → β} {e : ε} :
    x.map f = .error e ↔ x = .error e := by
  cases x with
  | error e' => simp [Except.map]
  | ok a => simp [Except.map]

theorem FileTree.isExpected_of_read {tree : FileTree} {p : Path} {e : FileError}
    (hBarrier : p.barrier? = none) (h : tree.read p = .error e) :
    (ReadError.file e).isExpected = true := by
  rw [read, resolve, hBarrier] at h
  cases hPlace : tree.locate p with
  | error cause =>
    rw [hPlace] at h
    cases h
    rfl
  | ok l =>
    simp only [hPlace, Except.mapError, bind, Except.bind] at h
    split at h <;> cases h <;> rfl

theorem FileTree.read_of_barrier {tree : FileTree} {p : Path} {e : FileError}
    (h : p.barrier? = some e) : tree.read p = .error e := by
  rw [read, resolve, h]
  rfl

theorem FileTree.readCharacters_cases {tree : FileTree} {p : Path} {e : ReadError}
    (h : tree.readCharacters p = .error e) :
    (∃ cause, tree.read p = .error cause ∧ e = .file cause) ∨ ∃ cause, e = .undecodable cause := by
  rw [readCharacters] at h
  cases hOctets : tree.read p with
  | error cause =>
    rw [hOctets] at h
    cases h
    exact .inl ⟨cause, rfl, rfl⟩
  | ok octets =>
    simp only [hOctets, Except.mapError, bind, Except.bind] at h
    split at h
    · cases h
      exact .inr ⟨_, rfl⟩
    · cases h

theorem Content.read_cases {tree : FileTree} {content : Content} {e : ReadError}
    (h : content.read tree = .error e) :
    (∃ path cause, content = .stored path ∧ tree.read path = .error cause ∧ e = .file cause) ∨
      ∃ cause, e = .undecodable cause := by
  cases content with
  | text s => cases h
  | octets bytes =>
    have hDecode := map_eq_error_iff.mp h
    cases hResult : Text.Utf8.decode bytes with
    | ok characters =>
      rw [hResult] at hDecode
      cases hDecode
    | error cause =>
      rw [hResult] at hDecode
      cases hDecode
      exact .inr ⟨cause, rfl⟩
  | stored path =>
    rcases FileTree.readCharacters_cases (map_eq_error_iff.mp h) with ⟨cause, hRead, rfl⟩ | hDecode
    · exact .inl ⟨path, cause, rfl, hRead, rfl⟩
    · exact .inr hDecode

/-- Reading fails in an unexpected way exactly at a path that does not get to the system. -/
theorem Content.read_unexpected_iff {tree : FileTree} {content : Content} {e : ReadError} :
    (content.read tree = .error e ∧ e.isExpected = false) ↔
      ∃ path cause, content = .stored path ∧ path.barrier? = some cause ∧ e = .file cause := by
  constructor
  · rintro ⟨hRead, hUnexpected⟩
    rcases Content.read_cases hRead with ⟨path, cause, rfl, hFile, rfl⟩ | ⟨_, rfl⟩
    · cases hBarrier : path.barrier? with
      | none =>
        rw [FileTree.isExpected_of_read hBarrier hFile] at hUnexpected
        cases hUnexpected
      | some other =>
        cases (FileTree.read_of_barrier hBarrier).symm.trans hFile
        exact ⟨path, cause, rfl, hBarrier, rfl⟩
    · cases hUnexpected
  · rintro ⟨path, cause, rfl, hBarrier, rfl⟩
    refine ⟨?_, ReadError.isExpected_of_barrier hBarrier⟩
    rw [Content.read, FileTree.readCharacters, FileTree.read_of_barrier hBarrier]
    rfl

namespace Bucket

/-! ## The fragment that stops a bucket -/

def Readable (tree : FileTree) (f : Fragment) : Prop :=
  ∃ text, f.source.content.read tree = .ok text

/-- Once a fragment has a relative path, those after it have the same. -/
def Agree (fragments : List Fragment) : Prop :=
  fragments.Pairwise fun f g =>
    f.source.relativePath ≠ none → g.source.relativePath = f.source.relativePath

/-- Fragments that agree with one another and with the owner of the path, if there is one. -/
def Follows (owner : Option Fragment) (fragments : List Fragment) : Prop :=
  match owner with
  | none => Agree fragments
  | some o => ∀ f ∈ fragments, f.source.relativePath = o.source.relativePath

/-- The fragment is the first that stops the others, and stops them because reading it fails. -/
def UnreadableAt (tree : FileTree) (owner : Option Fragment) (fragments : List Fragment)
    (f : Fragment) (e : ReadError) : Prop :=
  ∃ before after, fragments = before ++ f :: after ∧ Follows owner (before ++ [f]) ∧
    (∀ g ∈ before, Readable tree g) ∧ f.source.content.read tree = .error e

/-- A fragment stops the others by a conflict or by its content, or lets them go on. -/
theorem gather_cons_cases {tree : FileTree} {owner : Option Fragment} {f : Fragment}
    {rest : List Fragment} :
    (∃ failure, nextOwner owner f = .error failure ∧
        gather tree owner (f :: rest) = .error failure) ∨
      ∃ next, nextOwner owner f = .ok next ∧
        ((∃ e, f.source.content.read tree = .error e ∧
            gather tree owner (f :: rest) = .error (.unreadable f e)) ∨
          ∃ content, f.source.content.read tree = .ok content ∧
            gather tree owner (f :: rest) = (gather tree next rest).map fun gathered =>
              (⟨f.source.filename, content⟩ :: gathered.1, gathered.2)) := by
  rw [gather]
  cases nextOwner owner f with
  | error failure => exact .inl ⟨failure, rfl, rfl⟩
  | ok next =>
    cases f.source.content.read tree with
    | error e => exact .inr ⟨next, rfl, .inl ⟨e, rfl, rfl⟩⟩
    | ok content =>
      refine .inr ⟨next, rfl, .inr ⟨content, rfl, ?_⟩⟩
      cases hRest : gather tree next rest with
      | error failure => simp only [Except.mapError, bind, Except.bind, hRest, Except.map]
      | ok gathered =>
        simp only [Except.mapError, bind, Except.bind, hRest, Except.map]
        rfl

def StoppedBy (tree : FileTree) (bucket : List Fragment) (f : Fragment) (e : ReadError) : Prop :=
  UnreadableAt tree none (schedule bucket).order f e

/-- The fragment that stops the bucket has a stored path that does not get to the system. -/
def MeetsBarrier (tree : FileTree) (bucket : List Fragment) : Prop :=
  ∃ f path cause, f.source.content = .stored path ∧ path.barrier? = some cause ∧
    StoppedBy tree bucket f (.file cause)

theorem meetsBarrier_iff {tree : FileTree} {bucket : List Fragment} :
    MeetsBarrier tree bucket ↔ ∃ before f after path,
      (schedule bucket).order = before ++ f :: after ∧ Agree (before ++ [f]) ∧
        (∀ g ∈ before, Readable tree g) ∧ f.source.content = .stored path ∧
        path.barrier? ≠ none := by
  constructor
  · rintro ⟨f, path, cause, hPath, hBarrier, before, after, hSplit, hAgree, hReadable, _⟩
    exact ⟨before, f, after, path, hSplit, hAgree, hReadable, hPath,
      Option.ne_none_iff_exists'.mpr ⟨cause, hBarrier⟩⟩
  · rintro ⟨before, f, after, path, hSplit, hAgree, hReadable, hPath, hSome⟩
    obtain ⟨cause, hBarrier⟩ := Option.ne_none_iff_exists'.mp hSome
    have hError : f.source.content.read tree = .error (.file cause) :=
      (Content.read_unexpected_iff.mpr ⟨path, cause, hPath, hBarrier, rfl⟩).1
    exact ⟨f, path, cause, hPath, hBarrier, before, after, hSplit, hAgree, hReadable, hError⟩

end Bucket

/-! ## Passes that return -/

namespace Combiner

variable {registry : Registry} {c : Combiner}

/-- A pass comes upon a path that does not get to the system in a bucket that it makes. -/
def MeetsBarrierAfter (c : Combiner) (earlier : List Pass) (p : Pass) : Prop :=
  ∃ m, c.broughtFor m p.items ≠ [] ∧ ∃ k ∈ c.bucketKeys m (earlier ++ [p]),
    Bucket.MeetsBarrier p.tree (Cache.latest k (c.history m (earlier ++ [p])))

def MeetsBarrier (c : Combiner) (passes : List Pass) : Prop :=
  ∃ earlier p later, passes = earlier ++ p :: later ∧ c.MeetsBarrierAfter earlier p

end Combiner

end Amalgam
