import Amalgam.Cache
import Mathlib.Data.Finset.Card

/-! # The history of a cache

Merging is a recursion on what was remembered before, but what a cache holds for a module can be
read off the lists that were brought for it: they lie over each other, the last one on top, and a
list shows only the buckets that no later list brings. Merges for other modules have no part in it.
-/

namespace Amalgam.Cache

abbrev Update := ModuleInfo × List Fragment

/-- What each merge of a sequence gives back, and the cache after all of them. -/
def run (c : Cache) : List Update → List (List Fragment) × Cache
  | [] => ([], c)
  | (m, incoming) :: rest =>
    let (answers, last) := run (c.merge m.identity incoming) rest
    (c.merged m.identity incoming :: answers, last)

def brought (id : Identity) (updates : List Update) : List (List Fragment) :=
  (updates.filter fun u => u.1.identity = id).map Prod.snd

/-- Lists in the order in which they were brought, laid over each other from the last one down. -/
def overlay : List (List Fragment) → List Fragment
  | [] => []
  | first :: later =>
    overlay later ++ first.filter fun f => f.key ∉ later.flatten.map Fragment.key

/-- The fragments of a bucket in the last list that brings the bucket. -/
def latest (k : BucketKey) : List (List Fragment) → List Fragment
  | [] => []
  | first :: later =>
    if k ∈ later.flatten.map Fragment.key then latest k later else first.filter fun f => f.key = k

@[simp] theorem fragments_empty (id : Identity) : empty.fragments id = [] := rfl

@[simp] theorem brought_nil (id : Identity) : brought id [] = [] := rfl

theorem brought_cons (id : Identity) (m : ModuleInfo) (incoming : List Fragment)
    (rest : List Update) :
    brought id ((m, incoming) :: rest) =
      if m.identity = id then incoming :: brought id rest else brought id rest := by
  rw [brought, List.filter_cons]
  by_cases h : m.identity = id <;> simp [h, brought]

theorem brought_append (id : Identity) (earlier later : List Update) :
    brought id (earlier ++ later) = brought id earlier ++ brought id later := by
  simp [brought]

theorem brought_filter (id : Identity) (updates : List Update) :
    brought id (updates.filter fun u => u.1.identity = id) = brought id updates := by
  simp [brought]

theorem overlay_singleton (fragments : List Fragment) : overlay [fragments] = fragments := by
  simp [overlay]

theorem overlay_nil_cons (lists : List (List Fragment)) :
    overlay ([] :: lists) = overlay lists := by
  simp [overlay]

theorem mem_keys_cons {k : BucketKey} {first : List Fragment} {later : List (List Fragment)} :
    k ∈ (first :: later).flatten.map Fragment.key ↔
      k ∈ first.map Fragment.key ∨ k ∈ later.flatten.map Fragment.key := by
  rw [List.flatten_cons, List.map_append, List.mem_append]

/-- One merge makes one layer of the two lowest. -/
theorem overlay_merge (old incoming : List Fragment) (later : List (List Fragment)) :
    overlay ((incoming ++ old.filter fun f => f.key ∉ incoming.map Fragment.key) :: later) =
      overlay (old :: incoming :: later) := by
  have hOld : ∀ f : Fragment,
      (decide (f.key ∉ later.flatten.map Fragment.key) &&
        decide (f.key ∉ incoming.map Fragment.key)) =
      decide (f.key ∉ (incoming :: later).flatten.map Fragment.key) := by
    intro f
    rw [← Bool.decide_and]
    exact decide_eq_decide.mpr (by rw [mem_keys_cons, not_or, and_comm])
  simp only [overlay, List.filter_append, List.filter_filter, hOld, List.append_assoc]

theorem mem_overlay {f : Fragment} {lists : List (List Fragment)} (h : f ∈ overlay lists) :
    ∃ brought ∈ lists, f ∈ brought := by
  induction lists with
  | nil => simp [overlay] at h
  | cons first later ih =>
    rcases List.mem_append.mp h with hLater | hFirst
    · obtain ⟨fragments, hMem, hf⟩ := ih hLater
      exact ⟨fragments, List.mem_cons_of_mem _ hMem, hf⟩
    · exact ⟨first, List.mem_cons_self, List.mem_of_mem_filter hFirst⟩

theorem latest_eq_nil_iff {k : BucketKey} {lists : List (List Fragment)} :
    latest k lists = [] ↔ k ∉ lists.flatten.map Fragment.key := by
  induction lists with
  | nil => simp [latest]
  | cons first later ih =>
    rw [latest, mem_keys_cons]
    split
    · next hLater => exact iff_of_false (fun h => ih.mp h hLater) fun h => h (.inr hLater)
    · next hLater =>
      rw [or_iff_left hLater, List.filter_eq_nil_iff]
      simp

theorem filter_overlay (k : BucketKey) (lists : List (List Fragment)) :
    ((overlay lists).filter fun f => f.key = k) = latest k lists := by
  induction lists with
  | nil => rfl
  | cons first later ih =>
    have hFirst : ((first.filter fun f => f.key ∉ later.flatten.map Fragment.key).filter
        fun f => f.key = k) =
        if k ∈ later.flatten.map Fragment.key then [] else first.filter fun f => f.key = k := by
      rw [List.filter_filter]
      split
      · next hLater =>
        apply List.filter_eq_nil_iff.mpr
        intro f _
        simp only [Bool.and_eq_true, decide_eq_true_eq, not_and, not_not]
        rintro rfl
        exact hLater
      · next hLater =>
        apply List.filter_congr
        intro f _
        rw [← Bool.decide_and]
        refine decide_eq_decide.mpr (and_iff_left_of_imp ?_)
        rintro rfl
        exact hLater
    rw [overlay, List.filter_append, ih, hFirst, latest]
    split
    · rw [List.append_nil]
    · next hLater => rw [latest_eq_nil_iff.mpr hLater, List.nil_append]

theorem overlay_filter_ne_nil (lists : List (List Fragment)) :
    overlay (lists.filter fun fragments => fragments ≠ []) = overlay lists := by
  induction lists with
  | nil => rfl
  | cons first later ih =>
    cases first with
    | nil => exact ih.trans (overlay_nil_cons later).symm
    | cons f rest =>
      rw [List.filter_cons_of_pos (by simp), overlay, overlay, ih, List.flatten_filter_ne_nil]

theorem mem_latest {f : Fragment} {k : BucketKey} {lists : List (List Fragment)}
    (h : f ∈ latest k lists) : (∃ fragments ∈ lists, f ∈ fragments) ∧ f.key = k := by
  rw [← filter_overlay] at h
  obtain ⟨hMem, hKey⟩ := List.mem_filter.mp h
  exact ⟨mem_overlay hMem, of_decide_eq_true hKey⟩

theorem mem_keys_overlay {k : BucketKey} {lists : List (List Fragment)} :
    k ∈ (overlay lists).map Fragment.key ↔ k ∈ lists.flatten.map Fragment.key := by
  rw [← not_iff_not, ← latest_eq_nil_iff, ← filter_overlay, List.filter_eq_nil_iff]
  simp

/-- What is remembered before is the lowest layer of what is remembered after. -/
theorem fragments_run (c : Cache) (updates : List Update) (id : Identity) :
    (c.run updates).2.fragments id = overlay (c.fragments id :: brought id updates) := by
  induction updates generalizing c with
  | nil => exact (overlay_singleton _).symm
  | cons u rest ih =>
    obtain ⟨m, incoming⟩ := u
    rw [run, ih, brought_cons, fragments_merge]
    by_cases h : m.identity = id
    · subst h
      rw [if_pos rfl, if_pos rfl]
      exact overlay_merge (c.fragments m.identity) incoming (brought m.identity rest)
    · rw [if_neg h, if_neg (Ne.symm h)]

theorem fragments_run_empty (updates : List Update) (id : Identity) :
    (run .empty updates).2.fragments id = overlay (brought id updates) := by
  rw [fragments_run, fragments_empty, overlay_nil_cons]

theorem run_append (c : Cache) (earlier later : List Update) :
    c.run (earlier ++ later) =
      ((c.run earlier).1 ++ ((c.run earlier).2.run later).1, ((c.run earlier).2.run later).2) := by
  induction earlier generalizing c with
  | nil => rfl
  | cons u rest ih => simp only [List.cons_append, run, ih]

theorem length_run (c : Cache) (updates : List Update) :
    (c.run updates).1.length = updates.length := by
  induction updates generalizing c with
  | nil => rfl
  | cons u rest ih => simp only [run, List.length_cons, ih]

theorem getElem_run (c : Cache) (updates : List Update) (i : Nat)
    (hi : i < (c.run updates).1.length) (hu : i < updates.length) :
    (c.run updates).1[i] = (c.run (updates.take (i + 1))).2.fragments updates[i].1.identity := by
  induction updates generalizing c i with
  | nil => simp at hu
  | cons u rest ih =>
    obtain ⟨m, incoming⟩ := u
    cases i with
    | zero => simp [run, fragments_merge]
    | succ i =>
      simp only [run, List.getElem_cons_succ, List.take_succ_cons]
      exact ih _ i _ _

theorem keys_run_nodup {c : Cache} (updates : List Update) (h : (Table.keys c.entries).Nodup) :
    (Table.keys (c.run updates).2.entries).Nodup := by
  induction updates generalizing c with
  | nil => exact h
  | cons u rest ih =>
    apply ih
    rw [merge, Table.keys_put]
    split
    · exact h
    · next hNew => exact List.nodup_append.mpr ⟨h, List.nodup_singleton _, by
        intro a ha b hb hab
        rw [List.mem_singleton.mp hb] at hab
        exact hNew (hab ▸ ha)⟩

theorem mem_keys_run {c : Cache} {updates : List Update} {id : Identity} :
    id ∈ Table.keys (c.run updates).2.entries ↔
      id ∈ Table.keys c.entries ∨ id ∈ updates.map fun u => u.1.identity := by
  induction updates generalizing c with
  | nil => simp [run]
  | cons u rest ih =>
    have hMerge : id ∈ Table.keys (c.merge u.1.identity u.2).entries ↔
        id ∈ Table.keys c.entries ∨ id = u.1.identity := by
      rw [merge, Table.keys_put]
      split
      · next hOld =>
        refine ⟨Or.inl, ?_⟩
        rintro (h | rfl)
        · exact h
        · exact hOld
      · rw [List.mem_append, List.mem_singleton]
    rw [List.map_cons, List.mem_cons, ← or_assoc, ← hMerge]
    exact ih

theorem size_run_empty (updates : List Update) :
    (run .empty updates).2.size = (updates.map fun u => u.1.identity).toFinset.card := by
  have hNodup : (Table.keys (run .empty updates).2.entries).Nodup :=
    keys_run_nodup updates List.nodup_nil
  have hKeys : (Table.keys (run .empty updates).2.entries).toFinset =
      (updates.map fun u => u.1.identity).toFinset := by
    ext id
    rw [List.mem_toFinset, List.mem_toFinset, mem_keys_run]
    exact or_iff_right List.not_mem_nil
  rw [← hKeys, List.toFinset_card_of_nodup hNodup, Table.keys, List.length_map, size]

theorem merged_run_empty (updates : List Update) (m : ModuleInfo) (incoming : List Fragment) :
    (run .empty updates).2.merged m.identity incoming =
      overlay (brought m.identity updates ++ [incoming]) := by
  have hLast := fragments_run_empty (updates ++ [(m, incoming)]) m.identity
  rw [run_append, brought_append, brought_cons, if_pos rfl, brought_nil] at hLast
  rw [← hLast, run, run, fragments_merge, if_pos rfl]

/-- The whole history of a cache that starts empty, whatever the merges and their order. -/
theorem run_closed_form (updates : List Update) :
    (∀ m : ModuleInfo,
      (run .empty updates).2.fragments m.identity = overlay (brought m.identity updates) ∧
      (∀ k, (((run .empty updates).2.fragments m.identity).filter fun f => f.key = k) =
        latest k (brought m.identity updates)) ∧
      (run .empty updates).2.fragments m.identity =
        (run .empty (updates.filter fun u => u.1.identity = m.identity)).2.fragments m.identity) ∧
    (run .empty updates).1 = List.ofFn (fun i : Fin updates.length =>
      overlay (brought (updates.get i).1.identity (updates.take (i + 1)))) ∧
    (run .empty updates).2.size = (updates.map fun u => u.1.identity).toFinset.card := by
  refine ⟨fun m => ⟨fragments_run_empty updates m.identity, fun k => ?_, ?_⟩, ?_,
    size_run_empty updates⟩
  · rw [fragments_run_empty, filter_overlay]
  · rw [fragments_run_empty, fragments_run_empty, brought_filter]
  · apply List.ext_getElem (by rw [length_run, List.length_ofFn])
    intro i hi hi'
    have hu : i < updates.length := by rwa [length_run] at hi
    rw [getElem_run _ _ i hi hu, fragments_run_empty, List.getElem_ofFn]
    rfl

end Amalgam.Cache
