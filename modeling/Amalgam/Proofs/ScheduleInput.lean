import Amalgam.Proofs.DependencyCycles
import Mathlib.Logic.Function.Iterate

/-! # Schedules and their input

A schedule is made by a loop that releases one entry at a time. The entries that are out, ready or
waiting are those of the input between any two releases, and each release leaves fewer to come, so
the loop ends with every place of the input in the schedule once, whatever names the entries bear.
What an entry is has no part in it: entries that carry their places are scheduled as they are. The
order of the input decides nothing but the order among entries of equal rank.
-/

namespace Amalgam

namespace Schedule

variable {α : Type} (source : α → NativeSource)

/-! ## The loop -/

/-- How far a schedule has come between two releases. -/
structure Progress (α : Type) where
  released : List α
  ready : List α
  waiting : List (Waiting α)

namespace Progress

def start (entries : List α) : Progress α :=
  let waiting := entries.map fun e => Waiting.mk e (missing source entries e)
  { released := []
    ready := sort source ((waiting.filter fun w => w.missing = 0).map (·.entry))
    waiting := waiting.filter fun w => w.missing ≠ 0 }

/-- One turn of the loop; there is none once nothing is ready. -/
def release (p : Progress α) : Progress α :=
  match p.ready with
  | [] => p
  | first :: rest =>
    { released := p.released ++ [first]
      ready := (advance source first p.waiting).1.foldl (fun ready e => place source e ready) rest
      waiting := (advance source first p.waiting).2 }

/-- The schedule if the loop ended here. -/
def schedule (p : Progress α) : Schedule α :=
  ⟨p.released, sort source (p.waiting.map (·.entry))⟩

/-- The schedule that the loop comes to from here. -/
def outcome (p : Progress α) : Schedule α :=
  ⟨p.released ++ (drain source p.ready p.waiting).1,
    sort source ((drain source p.ready p.waiting).2.map (·.entry))⟩

def entries (p : Progress α) : List α := p.released ++ (p.ready ++ p.waiting.map (·.entry))

/-- How many entries are still to come. -/
def toCome (p : Progress α) : Nat := p.ready.length + p.waiting.length

variable {source}

theorem perm_entries_release (p : Progress α) : (p.release source).entries.Perm p.entries := by
  obtain ⟨released, ready, waiting⟩ := p
  cases ready with
  | nil => exact .refl _
  | cons first rest =>
    rw [entries, release, List.append_assoc]
    exact ((perm_ready_advance first rest waiting).cons first).append_left released

theorem outcome_release (p : Progress α) :
    (p.release source).outcome source = p.outcome source := by
  obtain ⟨released, ready, waiting⟩ := p
  cases ready with
  | nil => rfl
  | cons first rest =>
    simp only [outcome, release, drain, List.append_assoc, List.singleton_append]

theorem toCome_release (source : α → NativeSource) {p : Progress α} (h : p.ready ≠ []) :
    (p.release source).toCome + 1 = p.toCome := by
  obtain ⟨released, ready, waiting⟩ := p
  cases ready with
  | nil => exact absurd rfl h
  | cons first rest =>
    have hLength := length_advance source first waiting
    simp only [toCome, release, length_foldl_place, List.length_cons]
    omega

theorem outcome_of_ready_nil {p : Progress α} (h : p.ready = []) :
    p.outcome source = p.schedule source := by
  rw [outcome, schedule, h, drain, List.append_nil]

theorem outcome_start (source : α → NativeSource) (entries : List α) :
    (start source entries).outcome source = ofEntries source entries := rfl

theorem perm_entries_start (source : α → NativeSource) (entries : List α) :
    (start source entries).entries.Perm entries :=
  perm_ready_waiting source entries

theorem toCome_start (source : α → NativeSource) (entries : List α) :
    (start source entries).toCome = entries.length := by
  rw [← (perm_entries_start source entries).length_eq, Progress.entries, toCome]
  simp only [start, List.nil_append, List.length_append, List.length_map]

/-! Whole runs of the loop, by its turns. -/

theorem perm_entries_iterate (p : Progress α) (n : Nat) :
    ((release source)^[n] p).entries.Perm p.entries :=
  Function.Iterate.rec (fun q : Progress α => q.entries.Perm p.entries)
    (.refl _) (fun q hq => (perm_entries_release q).trans hq) n

theorem outcome_iterate (p : Progress α) (n : Nat) :
    ((release source)^[n] p).outcome source = p.outcome source :=
  Function.Iterate.rec (fun q : Progress α => q.outcome source = p.outcome source)
    rfl (fun q hq => (outcome_release q).trans hq) n

/-- The loop ends before it has taken more turns than entries were to come. -/
theorem exists_iterate_ready_nil (source : α → NativeSource) (p : Progress α) :
    ∃ n ≤ p.toCome, (∀ k < n, ((release source)^[k] p).ready ≠ []) ∧
      ((release source)^[n] p).ready = [] := by
  induction hCome : p.toCome generalizing p with
  | zero =>
    refine ⟨0, le_rfl, fun k hk => absurd hk (Nat.not_lt_zero k), ?_⟩
    exact List.length_eq_zero_iff.mp (Nat.add_eq_zero_iff.mp hCome).1
  | succ m ih =>
    by_cases hReady : p.ready = []
    · exact ⟨0, Nat.zero_le _, fun k hk => absurd hk (Nat.not_lt_zero k), hReady⟩
    · have hLess := toCome_release source hReady
      rw [hCome] at hLess
      obtain ⟨n, hn, hBefore, hEnd⟩ := ih (p.release source) (Nat.succ.inj hLess)
      refine ⟨n + 1, Nat.succ_le_succ hn, fun k hk => ?_, hEnd⟩
      cases k with
      | zero => exact hReady
      | succ k => exact hBefore k (Nat.lt_of_succ_lt_succ hk)

end Progress

/-! ## Entries that carry more than their source -/

def map {β : Type} (f : α → β) (s : Schedule α) : Schedule β :=
  ⟨s.released.map f, s.stuck.map f⟩

def Waiting.map {β : Type} (f : α → β) (w : Waiting α) : Waiting β := ⟨f w.entry, w.missing⟩

def Progress.map {β : Type} (f : α → β) (p : Progress α) : Progress β :=
  ⟨p.released.map f, p.ready.map f, p.waiting.map (Waiting.map f)⟩

section

variable {β : Type} (source : β → NativeSource) (f : α → β)

theorem place_map (entry : α) (entries : List α) :
    place source (f entry) (entries.map f) = (place (source ∘ f) entry entries).map f := by
  induction entries with
  | nil => rfl
  | cons head rest ih =>
    rw [List.map_cons, place, place, ih, Function.comp_apply, Function.comp_apply]
    split <;> rfl

theorem sort_map (entries : List α) :
    sort source (entries.map f) = (sort (source ∘ f) entries).map f := by
  induction entries with
  | nil => rfl
  | cons entry rest ih =>
    change place source (f entry) (sort source (rest.map f)) = _
    rw [ih]
    exact place_map source f entry _

theorem foldl_place_map (entries ready : List α) :
    (entries.map f).foldl (fun ready e => place source e ready) (ready.map f) =
      (entries.foldl (fun ready e => place (source ∘ f) e ready) ready).map f := by
  induction entries generalizing ready with
  | nil => rfl
  | cons entry rest ih =>
    rw [List.map_cons, List.foldl_cons, List.foldl_cons, place_map]
    exact ih _

theorem missing_map (entries : List α) (entry : α) :
    missing source (entries.map f) (f entry) = missing (source ∘ f) entries entry := by
  rw [missing, List.map_map]
  rfl

theorem countDown_map (name : Text) (w : Waiting α) :
    countDown source name (w.map f) = (countDown (source ∘ f) name w).map f := by
  rw [countDown, countDown, apply_ite (Waiting.map f)]
  rfl

theorem advance_map (released : α) (waiting : List (Waiting α)) :
    advance source (f released) (waiting.map (Waiting.map f)) =
      ((advance (source ∘ f) released waiting).1.map f,
        (advance (source ∘ f) released waiting).2.map (Waiting.map f)) := by
  simp only [advance, List.map_map, List.filter_map, Function.comp_def, countDown_map]
  rfl

theorem drain_map (ready : List α) (waiting : List (Waiting α)) :
    drain source (ready.map f) (waiting.map (Waiting.map f)) =
      ((drain (source ∘ f) ready waiting).1.map f,
        (drain (source ∘ f) ready waiting).2.map (Waiting.map f)) := by
  induction ready, waiting using drain.induct (source ∘ f) with
  | case1 waiting => rw [List.map_nil, drain, drain, List.map_nil]
  | case2 waiting first rest freed others =>
    rename_i ih
    rw [List.map_cons, drain, drain, advance_map, foldl_place_map, ih]
    rfl

theorem Progress.start_map (entries : List α) :
    start source (entries.map f) = (start (source ∘ f) entries).map f := by
  have hWaiting : ((entries.map f).map fun e => Waiting.mk e (missing source (entries.map f) e)) =
      (entries.map fun e => Waiting.mk e (missing (source ∘ f) entries e)).map (Waiting.map f) := by
    simp only [List.map_map, Function.comp_def, missing_map, Waiting.map]
  simp only [start, hWaiting, Progress.map, List.filter_map, List.map_map, List.map_nil]
  rw [← sort_map, List.map_map]
  rfl

theorem Progress.outcome_map (p : Progress α) :
    (p.map f).outcome source = (p.outcome (source ∘ f)).map f := by
  simp only [outcome, Progress.map, Schedule.map, drain_map, List.map_append]
  rw [← sort_map, List.map_map, List.map_map]
  rfl

/-- A schedule depends on an entry by its source alone. -/
theorem ofEntries_map (entries : List α) :
    ofEntries source (entries.map f) = (ofEntries (source ∘ f) entries).map f := by
  rw [← Progress.outcome_start, Progress.start_map, Progress.outcome_map, Progress.outcome_start]

theorem order_map (s : Schedule α) : (s.map f).order = s.order.map f := by
  rw [order, order, List.map_append]
  rfl

end

/-- The loop ends after at most as many turns as there are entries, and at every turn the entries
are those of the input. The schedule is the input read at its places in some order, every place
once: the order in which entries that carry their places are scheduled. -/
theorem each_place_once (source : α → NativeSource) (entries : List α) :
    let after := fun n => (Progress.release source)^[n] (Progress.start source entries)
    let places := (ofEntries (source ∘ Prod.fst) entries.zipIdx).order.map Prod.snd
    (∃ n ≤ entries.length, (∀ k < n, (after k).ready ≠ []) ∧ (after n).ready = [] ∧
        (after n).schedule source = ofEntries source entries) ∧
      (∀ n, (after n).entries.Perm entries) ∧
      (ofEntries source entries).order.Perm entries ∧
      places.Perm (List.range entries.length) ∧
      (ofEntries source entries).order.map some = places.map fun i => entries[i]? := by
  intro after places
  have hNumbered := perm_order_ofEntries (source ∘ Prod.fst) entries.zipIdx
  refine ⟨?_, fun n => ?_, perm_order_ofEntries source entries, ?_, ?_⟩
  · obtain ⟨n, hn, hBefore, hEnd⟩ :=
      Progress.exists_iterate_ready_nil source (Progress.start source entries)
    rw [Progress.toCome_start] at hn
    refine ⟨n, hn, hBefore, hEnd, ?_⟩
    rw [← Progress.outcome_of_ready_nil hEnd, Progress.outcome_iterate, Progress.outcome_start]
  · exact (Progress.perm_entries_iterate _ n).trans (Progress.perm_entries_start source entries)
  · refine (hNumbered.map Prod.snd).trans (.of_eq ?_)
    rw [List.zipIdx_map_snd, List.range_eq_range']
  · have hOrder : (ofEntries source entries).order =
        (ofEntries (source ∘ Prod.fst) entries.zipIdx).order.map Prod.fst := by
      rw [← order_map, ← ofEntries_map, List.zipIdx_map_fst]
    rw [hOrder, List.map_map, List.map_map]
    refine List.map_congr_left fun e he => ?_
    exact (List.mem_zipIdx_iff_getElem?.mp (hNumbered.subset he)).symm

/-- A filename is borne twice, and two entries wait for each other. -/
def tangled : List NativeSource :=
  [Sample.dependent, Sample.native "X.m" ["Y.m"], Sample.base, Sample.earlierBase,
    Sample.native "Y.m" ["X.m"]]

theorem each_place_once_tangled :
    (ofEntries (id ∘ Prod.fst) tangled.zipIdx).order.map Prod.snd = [3, 2, 0, 1, 4] ∧
      [3, 2, 0, 1, 4].Perm (List.range tangled.length) ∧
      (ofEntries id tangled).order.map some = [3, 2, 0, 1, 4].map fun i => tangled[i]? := by
  have hPlaces : (ofEntries (id ∘ Prod.fst) tangled.zipIdx).order.map Prod.snd =
      [3, 2, 0, 1, 4] := by decide +kernel
  obtain ⟨_, _, _, hPerm, hOrder⟩ := each_place_once id tangled
  rw [hPlaces] at hPerm hOrder
  exact ⟨hPlaces, hPerm, hOrder⟩

/-! ## The order of the input -/

variable {first second : List α}

theorem ranks_order (source : α → NativeSource) (s : Schedule α) :
    ranks source s.order = ranks source s.released ++ ranks source s.stuck :=
  List.map_append

theorem perm_released_congr (source : α → NativeSource) (h : first.Perm second) :
    (ofEntries source first).released.Perm (ofEntries source second).released := by
  have hOrder := (perm_order_ofEntries source first).trans
    (h.trans (perm_order_ofEntries source second).symm)
  have hStuck := (released_stuck_congr source h).2
  exact (List.perm_append_right_iff _).mp (hOrder.trans (hStuck.symm.append_left _))

theorem cycle?_eq_ranks (source : α → NativeSource) (s : Schedule α) :
    s.cycle? source =
      if (ranks source s.stuck).isEmpty then none
      else some ((ranks source s.stuck).map fun r => (ofLex r).2) := by
  rw [cycle?, ranks, List.map_map, List.isEmpty_map]
  rfl

theorem cycle?_congr (source : α → NativeSource) (h : first.Perm second) :
    (ofEntries source first).cycle? source = (ofEntries source second).cycle? source := by
  rw [cycle?_eq_ranks, cycle?_eq_ranks, (ranks_ofEntries_congr source h).2]

/-- However the input is ordered, the schedule has the same priorities and filenames in the same
order and warns of the same cycle, with the same entries released and the same stuck. Entries that
differ in priority or filename have one schedule. -/
theorem schedule_perm (source : α → NativeSource) (h : first.Perm second) :
    let s := ofEntries source first
    let t := ofEntries source second
    ranks source s.order = ranks source t.order ∧ s.cycle? source = t.cycle? source ∧
      s.released.Perm t.released ∧ s.stuck.Perm t.stuck ∧
      ((ranks source first).Nodup → s = t) := by
  intro s t
  obtain ⟨hReleased, hStuck⟩ := ranks_ofEntries_congr source h
  refine ⟨?_, cycle?_congr source h, perm_released_congr source h,
    (released_stuck_congr source h).2, ofEntries_congr h⟩
  rw [ranks_order, ranks_order, hReleased, hStuck]

theorem schedule_perm_tangled :
    tangled.Perm tangled.reverse ∧ (ranks id tangled).Nodup ∧
      ofEntries id tangled = ofEntries id tangled.reverse ∧
      (ofEntries id tangled.reverse).cycle? id = some (["X.m", "Y.m"] : List Text) := by
  have hPerm : tangled.Perm tangled.reverse := (List.reverse_perm tangled).symm
  have hNodup : (ranks id tangled).Nodup := by decide +kernel
  obtain ⟨_, hCycle, _, _, hSame⟩ := schedule_perm id hPerm
  refine ⟨hPerm, hNodup, hSame hNodup, ?_⟩
  rw [← hCycle]
  decide +kernel

end Schedule

/-- The warnings that a bucket causes do not depend on the order of its fragments. -/
theorem Bucket.cycles_of_perm {first second : List Fragment} (h : first.Perm second)
    (tree : FileTree) (key : BucketKey) :
    (events tree key first).filterMap Event.cycle? =
      (events tree key second).filterMap Event.cycle? := by
  rw [cycles_of_events, cycles_of_events, schedule, schedule, Schedule.cycle?_congr _ h]

end Amalgam
