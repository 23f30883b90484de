import Amalgam.Bucket.Outcome
import Amalgam.Proofs.ScheduleRanks

/-! # What becomes of a bucket

A bucket becomes its merged file, or the failure of one of its own fragments. In either case the
item tells which bucket it comes from. Fragments of distinct filenames have one schedule, so the
order in which they are brought has no part in what becomes of them.
-/

namespace Amalgam

def BucketFailure.struck : BucketFailure → Fragment
  | .conflict _ offender => offender
  | .unreadable f _ => f

def Kind.payload? : Kind → Option Payload
  | .payload p => some p
  | .failed _ => none
  | .struck _ original => original.payload?

/-- The bucket of an item: of the source that it holds or that its failure struck. -/
def Item.bucketKey? (item : Item) : Option BucketKey :=
  match item.kind.payload? with
  | some (.native source) => some ⟨item.platform, source.groupingKey⟩
  | _ => none

namespace Bucket

theorem nextOwner_error {owner : Option Fragment} {f : Fragment} {failure : BucketFailure}
    (h : nextOwner owner f = .error failure) : failure.struck = f := by
  cases owner with
  | none => cases h
  | some o =>
    rw [nextOwner] at h
    split at h
    · cases h
    · cases h
      rfl

theorem gather_error_mem {tree : FileTree} {owner : Option Fragment} {fragments : List Fragment}
    {failure : BucketFailure} (h : gather tree owner fragments = .error failure) :
    failure.struck ∈ fragments := by
  induction fragments generalizing owner with
  | nil => cases h
  | cons f rest ih =>
    rw [gather] at h
    cases hOwner : nextOwner owner f with
    | error e =>
      rw [hOwner] at h
      cases h
      rw [nextOwner_error hOwner]
      exact List.mem_cons_self
    | ok next =>
      rw [hOwner] at h
      cases hRead : f.source.content.read tree with
      | error e =>
        rw [hRead] at h
        cases h
        exact List.mem_cons_self
      | ok content =>
        rw [hRead] at h
        cases hRest : gather tree next rest with
        | error e =>
          have hFailure : e = failure := by
            simp only [bind, Except.bind, Except.mapError, hRest] at h
            exact Except.error.inj h
          exact List.mem_cons_of_mem _ (ih (hFailure ▸ hRest))
        | ok parts =>
          simp only [bind, Except.bind, Except.mapError, hRest] at h
          cases h

theorem mem_schedule {bucket : List Fragment} {f : Fragment} :
    f ∈ (schedule bucket).order ↔ f ∈ bucket :=
  (Schedule.perm_order_ofEntries _ bucket).mem_iff

/-- The item of a bucket is its merged file or the failure of one of its fragments. -/
theorem outcome_cases {tree : FileTree} {m : ModuleInfo} {k : BucketKey} {bucket : List Fragment}
    {item : Item} (h : outcome tree m k bucket = .ok item) :
    (∃ parts owner, gather tree none (schedule bucket).order = .ok (parts, owner) ∧
      item = mergedItem m k parts (owner.bind fun o => o.source.relativePath)) ∨
    ∃ failure, gather tree none (schedule bucket).order = .error failure ∧
      failure.struck ∈ bucket ∧ item = failedItem m failure := by
  rw [outcome] at h
  cases hGather : gather tree none (schedule bucket).order with
  | ok gathered =>
    rw [hGather] at h
    exact .inl ⟨_, _, rfl, (Except.ok.inj h).symm⟩
  | error failure =>
    refine .inr ⟨failure, rfl, mem_schedule.mp (gather_error_mem hGather), ?_⟩
    rw [hGather] at h
    cases failure with
    | conflict owner offender => exact (Except.ok.inj h).symm
    | unreadable f e =>
      simp only at h
      split at h
      · exact (Except.ok.inj h).symm
      · cases h

theorem bucketKey?_failedItem {m : ModuleInfo} {failure : BucketFailure}
    (h : failure.struck.item.kind = .payload (.native failure.struck.source)) :
    (failedItem m failure).bucketKey? = some failure.struck.key := by
  cases failure <;> simp only [BucketFailure.struck] at h <;>
    simp [failedItem, Item.bucketKey?, Item.withProblem, Kind.payload?, h, Fragment.key,
      BucketFailure.struck]

theorem outcome_place {tree : FileTree} {m : ModuleInfo} {k : BucketKey} {bucket : List Fragment}
    {item : Item} (h : outcome tree m k bucket = .ok item)
    (hNative : ∀ f ∈ bucket, f.item.kind = .payload (.native f.source))
    (hModule : ∀ f ∈ bucket, f.item.module = m) (hKey : ∀ f ∈ bucket, f.key = k) :
    item.module = m ∧ item.bucketKey? = some k := by
  rcases outcome_cases h with ⟨parts, owner, _, rfl⟩ | ⟨failure, _, hStruck, rfl⟩
  · exact ⟨rfl, rfl⟩
  · constructor
    · cases failure <;> exact hModule _ hStruck
    · rw [bucketKey?_failedItem (hNative _ hStruck), hKey _ hStruck]

/-- Fragments of distinct filenames may be brought in any order. -/
theorem outcome_congr (tree : FileTree) (m : ModuleInfo) (k : BucketKey)
    {first second : List Fragment} (h : first.Perm second)
    (hNodup : (first.map fun f => f.source.filename).Nodup) :
    outcome tree m k first = outcome tree m k second := by
  rw [outcome, outcome, schedule, schedule,
    Schedule.ofEntries_congr h (Schedule.DistinctNames.nodup_ranks hNodup)]

end Bucket

end Amalgam
