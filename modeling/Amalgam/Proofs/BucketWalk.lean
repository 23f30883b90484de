import Amalgam.Proofs.UnreadableContent

/-! # The walk along a bucket

The fragments of a bucket are walked in scheduled order. The first one with a relative path owns the
path of the bucket. The walk ends at the first fragment that has another path after that, or none,
or that cannot be read, and the bucket becomes the failed item of this fragment. Where no fragment
offends, the bucket becomes one source that holds the contents of all.
-/

namespace Amalgam

namespace Bucket

variable {tree : FileTree} {before seen rest : List Fragment} {f owner : Fragment}
  {failure : BucketFailure}

/-! ## Fragments that offend -/

def pathOwner? (fragments : List Fragment) : Option Fragment :=
  fragments.find? fun f => f.source.relativePath.isSome

/-- The first fragment before this one that has a relative path has another one than this. -/
def ConflictsWith (before : List Fragment) (f owner : Fragment) : Prop :=
  pathOwner? before = some owner ∧ f.source.relativePath ≠ owner.source.relativePath

def Offends (tree : FileTree) (before : List Fragment) (f : Fragment) : Prop :=
  (∃ owner, ConflictsWith before f owner) ∨ ¬Readable tree f

/-- None of the fragments offends after those that are seen already. -/
def NoneOffends (tree : FileTree) (seen fragments : List Fragment) : Prop :=
  ∀ before f after, fragments = before ++ f :: after → ¬Offends tree (seen ++ before) f

/-- What a fragment makes of its bucket. That it conflicts goes before that it cannot be read. -/
inductive Strikes (tree : FileTree) (before : List Fragment) (f : Fragment) : BucketFailure → Prop
  | conflict {owner : Fragment} (h : ConflictsWith before f owner) :
    Strikes tree before f (.conflict owner f)
  | unreadable {e : ReadError} (hApart : ∀ owner, ¬ConflictsWith before f owner)
      (hRead : f.source.content.read tree = .error e) : Strikes tree before f (.unreadable f e)

theorem not_readable_iff : ¬Readable tree f ↔ ∃ e, f.source.content.read tree = .error e := by
  rw [Readable]
  cases f.source.content.read tree <;> simp

theorem exists_strikes_of_offends (h : Offends tree before f) :
    ∃ failure, Strikes tree before f failure := by
  by_cases hConflict : ∃ owner, ConflictsWith before f owner
  · obtain ⟨owner, hConflict⟩ := hConflict
    exact ⟨_, .conflict hConflict⟩
  · obtain ⟨e, hRead⟩ := not_readable_iff.mp (h.resolve_left hConflict)
    exact ⟨_, .unreadable (not_exists.mp hConflict) hRead⟩

theorem noneOffends_nil (tree : FileTree) (seen : List Fragment) : NoneOffends tree seen [] := by
  intro before f after hSplit
  simp at hSplit

theorem noneOffends_cons_iff :
    NoneOffends tree seen (f :: rest) ↔
      ¬Offends tree seen f ∧ NoneOffends tree (seen ++ [f]) rest := by
  constructor
  · intro h
    refine ⟨by simpa using h [] f rest rfl, fun before g after hSplit => ?_⟩
    rw [List.append_assoc]
    exact h (f :: before) g after (by rw [hSplit]; rfl)
  · rintro ⟨hFirst, hRest⟩ before g after hSplit
    cases before with
    | nil =>
      cases hSplit
      rwa [List.append_nil]
    | cons first others =>
      cases hSplit
      have hLater := hRest others g after rfl
      rwa [List.append_assoc] at hLater

/-- Either no fragment offends, or one of them is the first. -/
theorem noneOffends_or_exists (tree : FileTree) (seen fragments : List Fragment) :
    NoneOffends tree seen fragments ∨ ∃ before f after, fragments = before ++ f :: after ∧
      NoneOffends tree seen before ∧ Offends tree (seen ++ before) f := by
  induction fragments generalizing seen with
  | nil => exact .inl (noneOffends_nil tree seen)
  | cons f rest ih =>
    by_cases hFirst : Offends tree seen f
    · exact .inr ⟨[], f, rest, rfl, noneOffends_nil tree seen, by rwa [List.append_nil]⟩
    · rcases ih (seen ++ [f]) with hNone | ⟨before, g, after, rfl, hNone, hOffends⟩
      · exact .inl (noneOffends_cons_iff.mpr ⟨hFirst, hNone⟩)
      · rw [List.append_assoc] at hOffends
        exact .inr ⟨f :: before, g, after, rfl, noneOffends_cons_iff.mpr ⟨hFirst, hNone⟩, hOffends⟩

/-! ## One step of the walk -/

theorem nextOwner_of_conflictsWith (h : ConflictsWith seen f owner) :
    nextOwner (pathOwner? seen) f = .error (.conflict owner f) := by
  rw [h.1, nextOwner, if_neg h.2]

theorem nextOwner_of_not_conflictsWith (h : ∀ owner, ¬ConflictsWith seen f owner) :
    nextOwner (pathOwner? seen) f = .ok (pathOwner? (seen ++ [f])) := by
  have hAppend : pathOwner? (seen ++ [f]) = (pathOwner? seen).or (pathOwner? [f]) :=
    List.find?_append
  rw [hAppend]
  cases hOwner : pathOwner? seen with
  | none =>
    rw [Option.none_or, pathOwner?, List.find?_cons, nextOwner]
    cases f.source.relativePath <;> rfl
  | some owner =>
    have hSame : f.source.relativePath = owner.source.relativePath := by
      by_contra hOther
      exact h owner ⟨hOwner, hOther⟩
    rw [Option.some_or, nextOwner, if_pos hSame]

theorem gather_of_strikes (h : Strikes tree seen f failure) :
    gather tree (pathOwner? seen) (f :: rest) = .error failure := by
  cases h with
  | conflict hConflict => simp [gather, nextOwner_of_conflictsWith hConflict, bind, Except.bind]
  | unreadable hApart hRead =>
    simp [gather, nextOwner_of_not_conflictsWith hApart, hRead, bind, Except.bind, Except.mapError]

theorem gather_of_not_offends (h : ¬Offends tree seen f) : ∃ text,
    f.source.content.read tree = .ok text ∧
      gather tree (pathOwner? seen) (f :: rest) =
        (gather tree (pathOwner? (seen ++ [f])) rest).map fun gathered =>
          (⟨f.source.filename, text⟩ :: gathered.1, gathered.2) := by
  rw [Offends, not_or, not_exists, not_not] at h
  obtain ⟨hApart, text, hRead⟩ := h
  have hNext := nextOwner_of_not_conflictsWith hApart
  rcases @gather_cons_cases tree (pathOwner? seen) f rest with
    ⟨_, hError, _⟩ | ⟨next, hOwner, ⟨_, hError, _⟩ | ⟨text', hText, hGather⟩⟩
  · cases hNext.symm.trans hError
  · cases hRead.symm.trans hError
  · cases hNext.symm.trans hOwner
    cases hRead.symm.trans hText
    exact ⟨text, hRead, hGather⟩

/-! ## The whole walk -/

/-- The part of a merged file that a fragment contributes. -/
def IsPartOf (tree : FileTree) (f : Fragment) (part : Merge.Part) : Prop :=
  part.filename = f.source.filename ∧ f.source.content.read tree = .ok part.content

theorem gather_of_noneOffends (h : NoneOffends tree seen rest) : ∃ parts,
    List.Forall₂ (IsPartOf tree) rest parts ∧
      gather tree (pathOwner? seen) rest = .ok (parts, pathOwner? (seen ++ rest)) := by
  -- The owner that the walk carries is that of the fragments seen so far.
  induction rest generalizing seen with
  | nil => exact ⟨[], .nil, by rw [gather, List.append_nil]⟩
  | cons f rest ih =>
    obtain ⟨hFirst, hRest⟩ := noneOffends_cons_iff.mp h
    obtain ⟨text, hRead, hGather⟩ := @gather_of_not_offends tree seen rest f hFirst
    obtain ⟨parts, hParts, hOthers⟩ := ih hRest
    rw [List.append_assoc] at hOthers
    exact ⟨⟨f.source.filename, text⟩ :: parts, .cons ⟨rfl, hRead⟩ hParts, by
      rw [hGather, hOthers]; rfl⟩

theorem gather_of_first_offender {after : List Fragment} (hNone : NoneOffends tree seen before)
    (hStrikes : Strikes tree (seen ++ before) f failure) :
    gather tree (pathOwner? seen) (before ++ f :: after) = .error failure := by
  induction before generalizing seen with
  | nil =>
    rw [List.append_nil] at hStrikes
    exact gather_of_strikes hStrikes
  | cons g others ih =>
    obtain ⟨hFirst, hRest⟩ := noneOffends_cons_iff.mp hNone
    obtain ⟨text, _, hGather⟩ := @gather_of_not_offends tree seen (others ++ f :: after) g hFirst
    rw [List.append_cons] at hStrikes
    rw [List.cons_append, hGather, ih hRest hStrikes]
    rfl

theorem relativePath_of_noneOffends {fragments : List Fragment}
    (h : NoneOffends tree [] fragments) (hf : f ∈ fragments) {path : Text}
    (hPath : f.source.relativePath = some path) :
    ∃ owner, pathOwner? fragments = some owner ∧ owner.source.relativePath = some path := by
  obtain ⟨before, after, rfl⟩ := List.append_of_mem hf
  have hHere : pathOwner? (f :: after) = some f := by
    rw [pathOwner?, List.find?_cons, hPath]
    rfl
  have hAppend : pathOwner? (before ++ f :: after) = (pathOwner? before).or (some f) :=
    List.find?_append.trans (congrArg _ hHere)
  rw [hAppend]
  cases hOwner : pathOwner? before with
  | none => exact ⟨f, rfl, hPath⟩
  | some owner =>
    refine ⟨owner, rfl, ?_⟩
    by_contra hOther
    exact h before f after rfl (.inl ⟨owner, hOwner, fun hSame => hOther (hSame ▸ hPath)⟩)

/-! ## The item of the bucket -/

/-- The report that a fragment is struck with. -/
structure Reported (tree : FileTree) (m : ModuleInfo) (before : List Fragment) (f : Fragment)
    (r : Report) : Prop where
  conflict : ∀ owner, ConflictsWith before f owner → r = conflictReport m owner f ∧
    r.code = "output-path-conflict" ∧ r.site = owner.site ∧ r.conflicting = f.site
  unreadable : (∀ owner, ¬ConflictsWith before f owner) → ∃ e,
    f.source.content.read tree = .error e ∧ r = unreadableReport m f e ∧
      r.code = "native-source-read-failed" ∧ r.site = f.site ∧ r.cause = some (.read e)

/-- The source that holds all fragments, in order. -/
structure Merged (tree : FileTree) (k : BucketKey) (order : List Fragment) (source : NativeSource) :
    Prop where
  filename : source.filename = k.groupingKey
  groupingKey : source.groupingKey = k.groupingKey
  content : ∃ parts, List.Forall₂ (IsPartOf tree) order parts ∧
    source.content = .text
      ((Merge.MergeKind.resolve k.groupingKey (order.map fun f => f.source.filename)).merge parts)
  unplaced : (∀ f ∈ order, f.source.relativePath = none) → source.relativePath = none
  kotlin : (∃ f ∈ order, Text.endsWith f.source.filename ".kt" = true) → source.relativePath = none
  placed : (∀ f ∈ order, Text.endsWith f.source.filename ".kt" = false) → ∀ f ∈ order, ∀ path,
    f.source.relativePath = some path → source.relativePath = some path
  priority : source.priority = 0
  dependencies : source.dependencies = ∅

theorem exists_reported (h : Strikes tree before f failure) (m : ModuleInfo) :
    ∃ r, failedItem m failure = f.item.withProblem (.report r) ∧ Reported tree m before f r := by
  cases h with
  | @conflict owner hConflict =>
    refine ⟨_, rfl, ?_, fun hApart => absurd hConflict (hApart owner)⟩
    rintro other ⟨hOther, _⟩
    cases hConflict.1.symm.trans hOther
    exact ⟨rfl, rfl, rfl, rfl⟩
  | @unreadable e hApart hRead =>
    refine ⟨_, rfl, fun owner hConflict => absurd hConflict (hApart owner), fun _ => ?_⟩
    exact ⟨e, hRead, rfl, rfl, rfl, rfl⟩

theorem filenames_of_parts {fragments : List Fragment} {parts : List Merge.Part}
    (h : List.Forall₂ (IsPartOf tree) fragments parts) :
    parts.map (·.filename) = fragments.map fun f => f.source.filename := by
  induction h with
  | nil => rfl
  | cons hPart _ ih => rw [List.map_cons, List.map_cons, ih, hPart.1]

theorem placed_resolve (output : Text) (fragments : List Fragment) (path : Option Text) :
    (Merge.MergeKind.resolve output (fragments.map fun f => f.source.filename)).placed path =
      if ∃ f ∈ fragments, Text.endsWith f.source.filename ".kt" = true then none else path := by
  have hAny : (fragments.map fun f => f.source.filename).any (Text.endsWith · ".kt") = true ↔
      ∃ f ∈ fragments, Text.endsWith f.source.filename ".kt" = true := by simp
  rw [Merge.MergeKind.resolve]
  by_cases hKotlin : ∃ f ∈ fragments, Text.endsWith f.source.filename ".kt" = true
  · rw [if_pos (hAny.mpr hKotlin), if_pos hKotlin]
    rfl
  · rw [if_neg (hAny.not.mpr hKotlin), if_neg hKotlin]
    split
    · rfl
    · split <;> rfl

theorem merged_of_noneOffends {fragments : List Fragment} {parts : List Merge.Part}
    (h : NoneOffends tree [] fragments) (hParts : List.Forall₂ (IsPartOf tree) fragments parts)
    (m : ModuleInfo) (k : BucketKey) : ∃ source,
      mergedItem m k parts ((pathOwner? fragments).bind fun o => o.source.relativePath) =
        .generated m (.payload (.native source)) k.platform ∧ Merged tree k fragments source := by
  refine ⟨_, rfl, ?_⟩
  simp only [mergeKind, filenames_of_parts hParts]
  refine ⟨rfl, rfl, ⟨parts, hParts, rfl⟩, fun hNone => ?_, fun hKotlin => ?_,
    fun hOther f hf path hPath => ?_, rfl, rfl⟩
  · have hOwner : pathOwner? fragments = none := by
      rw [pathOwner?, List.find?_eq_none]
      intro f hf
      simp [hNone f hf]
    simp [NativeSource.single, placed_resolve, hOwner]
  · simp [NativeSource.single, placed_resolve, hKotlin]
  · obtain ⟨owner, hOwner, hOwnerPath⟩ := relativePath_of_noneOffends h hf hPath
    simpa [NativeSource.single, placed_resolve, hOwner, hOwnerPath] using hOther

/-- A bucket whose fragments fail to be read in the expected ways only becomes one item. It is the
failed item of the first fragment that offends, or else the source that holds all fragments. -/
theorem outcome_of_walk {bucket : List Fragment} (m : ModuleInfo) (k : BucketKey)
    (hReads : ∀ f ∈ bucket, ∀ e, f.source.content.read tree = .error e → e.isExpected = true) :
    ∃ item, outcome tree m k bucket = .ok item ∧
      ((∃ before f after r, (schedule bucket).order = before ++ f :: after ∧
          NoneOffends tree [] before ∧ Offends tree before f ∧ Reported tree m before f r ∧
          item = { f.item with kind := .struck (.report r) f.item.kind }) ∨
        (NoneOffends tree [] (schedule bucket).order ∧ ∃ source,
          Merged tree k (schedule bucket).order source ∧
          item = .generated m (.payload (.native source)) k.platform)) := by
  rcases noneOffends_or_exists tree [] (schedule bucket).order with
    hNone | ⟨before, f, after, hSplit, hNone, hOffends⟩
  · obtain ⟨parts, hParts, hGather⟩ := gather_of_noneOffends hNone
    obtain ⟨source, hItem, hMerged⟩ := merged_of_noneOffends hNone hParts m k
    refine ⟨_, ?_, .inr ⟨hNone, source, hMerged, hItem⟩⟩
    have hWalk : gather tree none (schedule bucket).order = _ := hGather
    rw [outcome, hWalk]
    rfl
  · obtain ⟨failure, hStrikes⟩ := exists_strikes_of_offends hOffends
    obtain ⟨r, hItem, hReported⟩ := exists_reported hStrikes m
    refine ⟨failedItem m failure, ?_,
      .inl ⟨before, f, after, r, hSplit, hNone, hOffends, hReported, hItem⟩⟩
    have hWalk : gather tree none (before ++ f :: after) = .error failure :=
      gather_of_first_offender hNone hStrikes
    rw [outcome, hSplit, hWalk]
    cases hStrikes with
    | conflict hConflict => rfl
    | @unreadable e hApart hRead =>
      have hMem : f ∈ bucket := mem_schedule.mp (hSplit ▸ by simp)
      exact if_pos (hReads f hMem e hRead)

end Bucket

namespace Sample

def header (filename : Text) (relativePath : Option Text) (content : Content) : Fragment :=
  let source :=
    { NativeSource.single filename content relativePath with groupingKey := "Core.h" }
  ⟨.generated core (.payload (.native source)) (some .ios), source⟩

end Sample

namespace Bucket

/-- The last fragment has no path after one that has, and cannot be read either: a conflict. -/
theorem outcome_of_walk_conflict :
    let plain := Sample.header "A.h" none (.text "a")
    let owner := Sample.header "B.h" (some "p") (.text "b")
    let offender := Sample.header "C.h" none (.octets [0xFF])
    let bucket := [offender, owner, plain]
    (∀ f ∈ bucket, ∀ e, f.source.content.read .empty = .error e → e.isExpected = true) ∧
      ∃ r, Reported .empty Sample.core [plain, owner] offender r ∧
        outcome .empty Sample.core ⟨some .ios, "Core.h"⟩ bucket =
          .ok { offender.item with
            kind := .struck (.report r) (.payload (.native offender.source)) } := by
  intro plain owner offender bucket
  have hReads : ∀ f ∈ bucket, ∀ e, f.source.content.read .empty = .error e →
      e.isExpected = true := by
    intro f hf e hError
    rw [← Bool.not_eq_false]
    intro hUnexpected
    obtain ⟨path, _, hStored, _⟩ := Content.read_unexpected_iff.mp ⟨hError, hUnexpected⟩
    simp only [bucket, List.mem_cons, List.not_mem_nil, or_false] at hf
    rcases hf with rfl | rfl | rfl <;> cases hStored
  have hOrder : (schedule bucket).order = [plain, owner, offender] := by decide +kernel
  have hPlain : ¬Offends .empty [] plain := by
    rintro (⟨_, h, _⟩ | h)
    · cases h
    · exact h ⟨"a", rfl⟩
  have hOwner : ¬Offends .empty [plain] owner := by
    rintro (⟨_, h, _⟩ | h)
    · cases h
    · exact h ⟨"b", rfl⟩
  have hOffends : Offends .empty [plain, owner] offender := .inl ⟨owner, rfl, nofun⟩
  refine ⟨hReads, ?_⟩
  obtain ⟨item, hItem, ⟨before, f, after, r, hSplit, _, hOffender, hReported, rfl⟩ | ⟨hNone, _⟩⟩ :=
    outcome_of_walk Sample.core ⟨some .ios, "Core.h"⟩ hReads
  · rw [hOrder] at hSplit
    -- The first two fragments do not offend, so the walk ends at the third.
    rcases before with _ | ⟨_, _ | ⟨_, _ | ⟨_, others⟩⟩⟩
    · cases hSplit
      exact absurd hOffender hPlain
    · cases hSplit
      exact absurd hOffender hOwner
    · cases hSplit
      exact ⟨r, hReported, hItem⟩
    · simp at hSplit
  · exact absurd hOffends (hNone [plain, owner] offender [] hOrder)

end Bucket

end Amalgam
