import Amalgam.Command
import Amalgam.Proofs.TreeChanges

/-! # Nothing is written outside the output directory

All that a run does to the file tree are three operations for each output that it attempts: making
the directories above the destination, writing the temporary file, and moving it. Of each, the files
that it names are below the output directory, and what it changes are these files and directories
below the output directory or on the way to it.
-/

namespace Amalgam

namespace FileTree

inductive Operation where
  | makeDirectories (p : Path)
  | write (p : Path) (content : Text)
  | replace (source target : Path)

namespace Operation

def run : Operation → Step Unit
  | makeDirectories p => FileTree.makeDirectories p
  | write p content => FileTree.write p content
  | replace source target => FileTree.replace source target

def files : Operation → List Path
  | makeDirectories _ => []
  | write p _ => [p]
  | replace source target => [source, target]

def directory? : Operation → Option Path
  | makeDirectories p => some p
  | write .. | replace .. => none

end Operation

structure Performed where
  operation : Operation
  before : FileTree
  after : FileTree

/-- Performs operations up to the first that fails. -/
def perform : List Operation → FileTree → List Performed
  | [], _ => []
  | operation :: rest, t =>
    match operation.run t with
    | .ok _ last => ⟨operation, t, last⟩ :: perform rest last
    | .error _ last => [⟨operation, t, last⟩]

/-- Each operation is performed on the tree that the one before it leaves. -/
inductive Leads : FileTree → List Performed → FileTree → Prop
  | nil (t : FileTree) : Leads t [] t
  | cons {t last : FileTree} {operation : Operation} {rest : List Performed}
      (h : Leads (leaves operation.run t) rest last) :
      Leads t (⟨operation, t, leaves operation.run t⟩ :: rest) last

theorem Leads.append {t between last : FileTree} {first second : List Performed}
    (h : Leads t first between) (h' : Leads between second last) :
    Leads t (first ++ second) last := by
  induction h with
  | nil => exact h'
  | cons _ ih => exact .cons (ih h')

theorem leads_perform (operations : List Operation) (t : FileTree) :
    Leads t (perform operations t) (leaves (forM operations Operation.run) t) := by
  induction operations generalizing t with
  | nil => exact .nil t
  | cons operation rest ih =>
    rw [List.forM_cons, perform]
    cases hRun : operation.run t with
    | error e last =>
      rw [leaves_bind_of_error hRun, ← leaves_of_error hRun]
      exact .cons (.nil _)
    | ok _ last =>
      rw [leaves_bind_of_ok hRun, ← leaves_of_ok hRun]
      exact .cons (ih _)

theorem mem_perform {operations : List Operation} {t : FileTree} {step : Performed}
    (h : step ∈ perform operations t) :
    step.operation ∈ operations ∧ step.after = leaves step.operation.run step.before := by
  induction operations generalizing t with
  | nil => cases h
  | cons operation rest ih =>
    rw [perform] at h
    cases hRun : operation.run t with
    | error e last =>
      rw [hRun] at h
      rw [List.mem_singleton.mp h]
      exact ⟨List.mem_cons_self, (leaves_of_error hRun).symm⟩
    | ok _ last =>
      rw [hRun] at h
      rcases List.mem_cons.mp h with rfl | h
      · exact ⟨List.mem_cons_self, (leaves_of_ok hRun).symm⟩
      · obtain ⟨hMem, hAfter⟩ := ih h
        exact ⟨List.mem_cons_of_mem _ hMem, hAfter⟩

/-- What is different after an operation is in the places of the files that it names, or it is a
directory that was made on the way to the path that it names. -/
theorem Operation.changes (operation : Operation) (t : FileTree) {l : Location}
    (h : (leaves operation.run t).node? l ≠ t.node? l) :
    (∃ p ∈ operation.files, l = t.place p) ∨
      (t.node? l = none ∧ (leaves operation.run t).node? l = some .directory ∧
        ∃ p q : Path, operation.directory? = some p ∧ q.LeadsTo p ∧ l = t.place q) := by
  cases operation with
  | makeDirectories p =>
    rcases (makesOnly_makeDirectories p t).node? l with hSame | ⟨hNone, hMade, q, hq, hPlace⟩
    · exact absurd hSame h
    · exact .inr ⟨hNone, hMade, p, q, rfl, hq, hPlace⟩
  | write p content =>
    refine .inl ⟨p, List.mem_singleton_self p, ?_⟩
    rw [run] at h
    by_contra hOther
    cases hRun : FileTree.write p content t with
    | error e last =>
      rw [leaves_of_error hRun] at h
      rcases write_eq_error hRun with ⟨_, rfl⟩ | ⟨_, _, _, hNode⟩
      · exact h rfl
      · rw [hNode] at h
        exact h (if_neg hOther)
    | ok _ last =>
      obtain ⟨_, _, _, _, hNode⟩ := write_eq_ok hRun
      rw [leaves_of_ok hRun, hNode] at h
      exact h (if_neg hOther)
  | replace source target =>
    refine .inl ?_
    rw [run] at h
    cases hRun : FileTree.replace source target t with
    | error e last =>
      rw [leaves_of_error hRun, replace_eq_error hRun] at h
      exact absurd rfl h
    | ok _ last =>
      obtain ⟨_, _, _, octets, _, hNode⟩ := replace_eq_ok hRun
      rw [leaves_of_ok hRun, hNode] at h
      by_cases hAtTarget : l = t.place target
      · exact ⟨target, List.mem_cons_of_mem _ List.mem_cons_self, hAtTarget⟩
      · by_cases hAtSource : l = t.place source
        · exact ⟨source, List.mem_cons_self, hAtSource⟩
        · rw [if_neg hAtTarget, if_neg hAtSource] at h
          exact absurd rfl h

/-- The files that an operation creates, replaces or removes are below a path, and all that it
changes are such files, and new directories below the path or on the way to it. -/
structure Performed.StaysBelow (step : Performed) (out : Path) : Prop where
  files : ∀ p ∈ step.operation.files, p.IsBelow out
  changes : ∀ l, step.after.node? l ≠ step.before.node? l →
    (∃ p ∈ step.operation.files, l = step.before.place p) ∨
      (step.before.node? l = none ∧ step.after.node? l = some .directory ∧
        ∃ q : Path, (q.LeadsTo out ∨ q.IsBelow out) ∧ l = step.before.place q)

end FileTree

namespace Output

open FileTree (Operation Performed perform Leads)

/-! ## The operations of a run -/

def operations (process : Nat) (destination : Path) (content : Text) : List Operation := [
  .makeDirectories destination.parent,
  .write (temporary process destination) content,
  .replace (temporary process destination) destination]

theorem writeFile_eq_operations (process : Nat) {destination : Path} (content : Text)
    (hName : destination.parts ≠ []) :
    writeFile process destination content =
      forM (operations process destination content) Operation.run := by
  simp only [operations, List.forM_cons, List.forM_nil, Operation.run, writeFile, bind_pure_unit,
    withName?_temporaryName, if_neg hName]

theorem staysBelow_of_mem_operations {process : Nat} {destination out : Path} {content : Text}
    {step : Performed} (hBelow : destination.IsBelow out)
    (hMem : step.operation ∈ operations process destination content)
    (hAfter : step.after = leaves step.operation.run step.before) : step.StaysBelow out := by
  constructor
  · intro p hp
    simp only [operations, List.mem_cons, List.not_mem_nil, or_false] at hMem
    rcases hMem with h | h | h <;> rw [h] at hp <;> simp only [Operation.files, List.mem_cons,
      List.not_mem_nil, or_false] at hp
    · rw [hp]
      exact temporary_isBelow process hBelow
    · rcases hp with rfl | rfl
      · exact temporary_isBelow process hBelow
      · exact hBelow
  · intro l hl
    rw [hAfter] at hl ⊢
    rcases step.operation.changes step.before hl with hFile | ⟨hNone, hMade, p, q, hp, hq, hPlace⟩
    · exact .inl hFile
    · refine .inr ⟨hNone, hMade, q, ?_, hPlace⟩
      have hParent : p = destination.parent := by
        simp only [operations, List.mem_cons, List.not_mem_nil, or_false] at hMem
        rcases hMem with h | h | h <;> rw [h] at hp <;> cases hp
        rfl
      rw [hParent] at hq
      exact (hq.trans destination.parent_leadsTo).of_isBelow hBelow

def performed (process : Nat) (out : Setting Path) (item : Item) (t : FileTree) :
    List Performed :=
  match written? out item t with
  | some (destination, content) => perform (operations process destination content) t
  | none => []

theorem leads_performed (process : Nat) (out : Setting Path) (item : Item) (t : FileTree) :
    Leads t (performed process out item t) (after process out t item) := by
  rw [after_eq, performed]
  cases hWritten : written? out item t with
  | none => exact .nil t
  | some written =>
    have hDestination := destination_of_written hWritten
    obtain ⟨dir, _, rfl, _⟩ := native_of_destination hDestination
    simp only [writeFile_eq_operations process _ (isBelow_of_destination hDestination).parts_ne_nil]
    exact FileTree.leads_perform _ t

/-- The operations with which items are attempted, up to an attempt that ends the run. -/
def performedAll (process : Nat) (out : Setting Path) : List Item → FileTree → List Performed
  | [], _ => []
  | item :: rest, t =>
    performed process out item t ++
      match writeItem process out item t with
      | .ok _ last => performedAll process out rest last
      | .error _ _ => []

theorem leads_performedAll (process : Nat) (out : Setting Path) (items : List Item)
    (t : FileTree) :
    Leads t (performedAll process out items t) (leaves (writeItems process out items) t) := by
  induction items generalizing t with
  | nil => exact .nil t
  | cons item rest ih =>
    rw [performedAll, writeItems]
    refine (leads_performed process out item t).append ?_
    rw [after]
    cases hItem : writeItem process out item t with
    | error e last =>
      rw [leaves_bind_of_error hItem]
      exact .nil last
    | ok first last =>
      rw [leaves_bind_of_ok hItem]
      have hRest : leaves (do return first ++ (← writeItems process out rest)) last =
          leaves (writeItems process out rest) last := by
        simp only [leaves, bind, EStateM.bind]
        cases writeItems process out rest last <;> rfl
      rw [hRest]
      exact ih last

theorem staysBelow_of_performed {process : Nat} {out : Setting Path} {item : Item} {t : FileTree}
    {step : Performed} (h : step ∈ performed process out item t) :
    ∃ dir, out = .value dir ∧ step.StaysBelow dir := by
  rw [performed] at h
  split at h
  · next destination content hWritten =>
    have hDestination := destination_of_written hWritten
    obtain ⟨dir, _, rfl, _⟩ := native_of_destination hDestination
    obtain ⟨hMem, hAfter⟩ := FileTree.mem_perform h
    exact ⟨dir, rfl,
      staysBelow_of_mem_operations (isBelow_of_destination hDestination) hMem hAfter⟩
  · cases h

theorem staysBelow_of_performedAll {process : Nat} {out : Setting Path} {items : List Item}
    {t : FileTree} {step : Performed} (h : step ∈ performedAll process out items t) :
    ∃ dir, out = .value dir ∧ step.StaysBelow dir := by
  induction items generalizing t with
  | nil => cases h
  | cons item rest ih =>
    rw [performedAll] at h
    rcases List.mem_append.mp h with hItem | hRest
    · exact staysBelow_of_performed hItem
    · split at hRest
      · exact ih hRest
      · cases hRest

end Output

namespace Build

def performed (s : Settings) (process : Nat) (tree : FileTree) : List FileTree.Performed :=
  match plan s tree with
  | .error _ => []
  | .ok plan =>
    match runPasses plan.combiner tree [] plan.passes .empty with
    | .error _ _ => []
    | .ok (items, _) _ => Output.performedAll process s.out items tree

theorem leads_performed (s : Settings) (process : Nat) (tree : FileTree) :
    FileTree.Leads tree (performed s process tree) (leaves (run s process) tree) := by
  rw [performed, leaves, run]
  cases plan s tree with
  | error e => cases hFinal : e.isFinal <;> simp only [hFinal, if_true] <;> exact .nil tree
  | ok plan =>
    simp only
    cases runPasses plan.combiner tree [] plan.passes .empty with
    | error fault cache => exact .nil tree
    | ok answer cache =>
      have hWrite := Output.leads_performedAll process s.out answer.1 tree
      rw [leaves] at hWrite
      simp only
      cases hItems : Output.writeItems process s.out answer.1 tree with
      | error e last =>
        rw [hItems] at hWrite
        exact hWrite
      | ok written last =>
        rw [hItems] at hWrite
        exact hWrite

end Build

namespace Command

def performed (arguments : List Text) (process : Nat) (tree : FileTree) :
    List FileTree.Performed :=
  match Options.parse arguments with
  | .ok (.build settings _ _) => Build.performed settings process tree
  | _ => []

theorem leads_performed (arguments : List Text) (process : Nat) (tree : FileTree) :
    FileTree.Leads tree (performed arguments process tree) (run arguments process tree).tree := by
  rw [performed, run]
  cases Options.parse arguments with
  | error e => exact .nil tree
  | ok request =>
    cases request with
    | help => exact .nil tree
    | build settings json verbosity =>
      have hBuild := Build.leads_performed settings process tree
      simp only [build]
      rw [leaves] at hBuild
      cases hRun : Build.run settings process tree with
      | error cause last =>
        rw [hRun] at hBuild
        exact hBuild
      | ok result last =>
        rw [hRun] at hBuild
        cases json <;> exact hBuild

/-- Whatever is on the command line and in the files that it names, and however the run ends, its
operations lead from the tree that is given to the one that is left, and none of them goes outside
the output directory. -/
theorem writes_stay_below_out (arguments : List Text) (process : Nat) (tree : FileTree) :
    FileTree.Leads tree (performed arguments process tree) (run arguments process tree).tree ∧
      ∀ step ∈ performed arguments process tree, ∃ settings json verbosity out,
        Options.parse arguments = .ok (.build settings json verbosity) ∧
          settings.out = .value out ∧ step.StaysBelow out := by
  refine ⟨leads_performed arguments process tree, fun step hStep => ?_⟩
  rw [performed] at hStep
  split at hStep
  · next settings json verbosity hParse =>
    rw [Build.performed] at hStep
    split at hStep
    · cases hStep
    · split at hStep
      · cases hStep
      · obtain ⟨out, hOut, hBelow⟩ := Output.staysBelow_of_performedAll hStep
        exact ⟨settings, json, verbosity, out, hParse, hOut, hBelow⟩
  · cases hStep

end Command

end Amalgam
