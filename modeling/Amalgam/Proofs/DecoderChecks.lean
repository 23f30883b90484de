import Amalgam.Json.Value
import Amalgam.Proofs.Pass

/-! # Checks of a decoder

A decoder that looks at one thing after another returns exactly if all its checks hold, and
otherwise fails with the error of the first that does not. Checks are joined as their decoders are.
Fields and documents of one shape share their lemmas.
-/

namespace Amalgam

/-! ## Checks in order -/

structure Check (ε : Type) where
  holds : Prop
  error : ε

section

variable {ε : Type}

/-- Some check fails with the error, and those before it hold. -/
def FirstFails : List (Check ε) → ε → Prop
  | [], _ => False
  | check :: rest, e => ¬check.holds ∧ check.error = e ∨ check.holds ∧ FirstFails rest e

theorem firstFails_append {first rest : List (Check ε)} {e : ε} :
    FirstFails (first ++ rest) e ↔
      FirstFails first e ∨ (∀ check ∈ first, check.holds) ∧ FirstFails rest e := by
  induction first with
  | nil => simp [FirstFails]
  | cons check first ih =>
    simp only [List.cons_append, FirstFails, ih, List.forall_mem_cons]
    rw [and_or_left, or_assoc, and_assoc]

theorem exists_firstFails_iff {checks : List (Check ε)} :
    (∃ e, FirstFails checks e) ↔ ¬∀ check ∈ checks, check.holds := by
  induction checks with
  | nil => simp [FirstFails]
  | cons check checks ih =>
    simp only [FirstFails, exists_or, exists_and_left, ih, List.forall_mem_cons, not_and_or]
    by_cases hHolds : check.holds <;> simp [hHolds]

/-- A decoder fails just as the first of its checks does. -/
def Guards {ε α : Type} (checks : List (Check ε)) (x : Except ε α) : Prop :=
  ∀ e, x = .error e ↔ FirstFails checks e

namespace Guards

variable {α β : Type} {x : Except ε α}

theorem ok (a : α) : Guards [] (.ok a : Except ε α) :=
  fun _ => iff_of_false nofun id

theorem stop {check : Check ε} {rest : List (Check ε)} (h : ¬check.holds) :
    Guards (check :: rest) (.error check.error : Except ε α) :=
  fun _ => by simp [FirstFails, h]

theorem pass {check : Check ε} {rest : List (Check ε)} (h : check.holds) (hx : Guards rest x) :
    Guards (check :: rest) x :=
  fun e => by simp [FirstFails, h, hx e]

theorem exists_ok_iff {checks : List (Check ε)} (h : Guards checks x) :
    (∃ a, x = .ok a) ↔ ∀ check ∈ checks, check.holds := by
  rw [← not_iff_not, ← exists_firstFails_iff]
  cases x with
  | ok a => exact iff_of_false (fun hNone => hNone ⟨a, rfl⟩) fun ⟨e, he⟩ => nomatch (h e).mpr he
  | error e => exact iff_of_true (fun ⟨_, hOk⟩ => nomatch hOk) ⟨e, (h e).mp rfl⟩

theorem one {holds : Prop} {error : ε} (hOk : (∃ a, x = .ok a) ↔ holds)
    (hError : ∀ e, x = .error e → e = error) : Guards [⟨holds, error⟩] x := by
  intro e
  simp only [FirstFails, and_false, or_false, ← hOk]
  cases x with
  | ok a => exact iff_of_false nofun fun h => h.1 ⟨a, rfl⟩
  | error e' =>
    cases hError e' rfl
    exact ⟨fun h => ⟨fun ⟨_, hOk⟩ => (nomatch hOk), Except.error.inj h⟩, fun h => h.2 ▸ rfl⟩

theorem bind {first rest : List (Check ε)} {f : α → Except ε β} (hx : Guards first x)
    (hf : ∀ a, x = .ok a → Guards rest (f a)) : Guards (first ++ rest) (x >>= f) := by
  intro e
  rw [firstFails_append, ← hx e, ← hx.exists_ok_iff]
  cases x with
  | ok a =>
    rw [ok_bind, hf a rfl e]
    exact ⟨fun h => .inr ⟨⟨a, rfl⟩, h⟩, fun h => h.elim nofun And.right⟩
  | error e' =>
    refine ⟨fun h => .inl (congrArg Except.error (Except.error.inj h)), ?_⟩
    rintro (h | ⟨⟨_, hOk⟩, _⟩)
    · cases h
      rfl
    · cases hOk

theorem map {checks : List (Check ε)} (h : Guards checks x) (f : α → β) :
    Guards checks (x >>= fun a => .ok (f a)) := by
  simpa only [List.append_nil] using h.bind fun a _ => ok (f a)

end Guards

end

/-! ## Parts of a value -/

namespace Json

/-- The members of an object, and none of another value. -/
def membersOf : Value → Members
  | .object members => members
  | _ => []

def elementsOf : Option Value → List Value
  | some (.array elements) => elements
  | _ => []

namespace Members

variable {members : Members}

def textAt (members : Members) (field : Text) : Text :=
  match Table.get? members field with
  | some (.text s) => s
  | _ => ""

theorem textAt_eq {field s : Text} (h : Table.get? members field = some (.text s)) :
    members.textAt field = s := by
  rw [textAt, h]

theorem unknown_eq_nil_iff {known : List Text} :
    members.unknown known = [] ↔ ∀ name ∈ Table.keys members, name ∈ known := by
  simp [unknown, names, ← NameSet.mem_def, Table.keys]

end Members

/-! ## Fields -/

/-- The value of a field that may be absent but not null. -/
def Sets {α : Type} (value : Option Value) (spell : α → Value) (default a : α) : Prop :=
  value = some (spell a) ∨ value = none ∧ a = default

section

variable {ε α : Type} {value : Option Value} {spell : α → Value} {default : α} {error : ε}
  {x : Except ε α}

/-- A field is read as it is spelled, and by default where it is absent. -/
structure Reads (value : Option Value) (spell : α → Value) (default : α) (error : ε)
    (x : Except ε α) : Prop where
  absent : value = none → x = .ok default
  spelled : ∀ a, value = some (spell a) → x = .ok a
  other : ∀ v, value = some v → (∀ a, v ≠ spell a) → x = .error error

namespace Reads

theorem cases (h : Reads value spell default error x) :
    (∃ a, Sets value spell default a ∧ x = .ok a) ∨
      (∀ a, ¬Sets value spell default a) ∧ x = .error error := by
  cases value with
  | none => exact .inl ⟨default, .inr ⟨rfl, rfl⟩, h.absent rfl⟩
  | some v =>
    by_cases hSpelled : ∃ a, v = spell a
    · obtain ⟨a, rfl⟩ := hSpelled
      exact .inl ⟨a, .inl rfl, h.spelled a rfl⟩
    · have hOther : ∀ a, v ≠ spell a := not_exists.mp hSpelled
      refine .inr ⟨fun a hSets => ?_, h.other v rfl hOther⟩
      rcases hSets with hSpelled | ⟨hNone, _⟩
      · exact hOther a (Option.some.inj hSpelled)
      · cases hNone

theorem eq_ok_iff (h : Reads value spell default error x) {a : α} :
    x = .ok a ↔ Sets value spell default a := by
  constructor
  · rintro rfl
    rcases h.cases with ⟨b, hSets, hOk⟩ | ⟨_, hError⟩
    · cases hOk
      exact hSets
    · cases hError
  · rintro (hSpelled | ⟨hNone, rfl⟩)
    · exact h.spelled a hSpelled
    · exact h.absent hNone

theorem guards (h : Reads value spell default error x) :
    Guards [⟨∃ a, Sets value spell default a, error⟩] x := by
  refine .one (by simp only [h.eq_ok_iff]) fun e he => ?_
  rcases h.cases with ⟨_, _, hOk⟩ | ⟨_, hError⟩
  · cases hOk.symm.trans he
  · cases hError.symm.trans he
    rfl

end Reads

/-- Reads a text that has to be there and not be empty. -/
def nonemptyText (error : ε) : Option Value → Except ε Text
  | some (.text s) => if s = "" then .error error else .ok s
  | _ => .error error

theorem nonemptyText_eq_ok_iff {s : Text} :
    nonemptyText error value = .ok s ↔ value = some (.text s) ∧ s ≠ "" := by
  rw [nonemptyText.eq_def]
  split
  · next s' =>
    simp only [Option.some.injEq, Value.text.injEq]
    split
    · next hEmpty => simp [hEmpty, eq_comm]
    · next hNonempty =>
      rw [Except.ok.injEq]
      exact ⟨fun h => ⟨h, h ▸ hNonempty⟩, And.left⟩
  · next hOther => exact iff_of_false nofun fun h => hOther s h.1

theorem guards_nonemptyText :
    Guards [⟨∃ s, value = some (.text s) ∧ s ≠ "", error⟩] (nonemptyText error value) := by
  refine .one (by simp only [nonemptyText_eq_ok_iff]) fun e he => ?_
  rw [nonemptyText.eq_def] at he
  split at he
  · split at he <;> cases he
    rfl
  · cases he
    rfl

end

/-! ## Documents -/

section

variable {ε α : Type} {field : Text} {notObject noList : ε} {read : List Value → Except ε α}
  {document : Value}

/-- Reads a document that holds a list under one of its names. -/
def listUnder (field : Text) (notObject noList : ε) (read : List Value → Except ε α) :
    Value → Except ε α
  | .object members =>
    match Table.get? members field with
    | some (.array elements) => read elements
    | _ => .error noList
  | _ => .error notObject

theorem listUnder_eq_ok_iff {a : α} :
    listUnder field notObject noList read document = .ok a ↔
      ∃ members elements, document = .object members ∧
        Table.get? members field = some (.array elements) ∧ read elements = .ok a := by
  cases document with
  | object members =>
    simp only [Value.object.injEq, exists_and_left, exists_eq_left', listUnder]
    split
    · next elements hElements =>
      simp only [hElements, Option.some.injEq, Value.array.injEq, exists_eq_left']
    · next hOther =>
      constructor
      · intro h
        cases h
      · rintro ⟨elements, hElements, _⟩
        exact absurd hElements (hOther elements)
  | _ =>
    constructor
    · intro h
      cases h
    · rintro ⟨_, _, h, _⟩
      cases h

theorem guards_listUnder {rest : List Value → List (Check ε)}
    (h : ∀ elements, Guards (rest elements) (read elements)) :
    let members := membersOf document
    Guards
      ([ ⟨document = .object members, notObject⟩,
         ⟨∃ elements, Table.get? members field = some (.array elements), noList⟩ ] ++
        rest (elementsOf (Table.get? members field)))
      (listUnder field notObject noList read document) := by
  cases document with
  | object members =>
    simp only [listUnder, membersOf, List.cons_append, List.nil_append]
    refine .pass trivial ?_
    split
    · next elements hElements =>
      refine .pass ⟨elements, hElements⟩ ?_
      rw [hElements]
      exact h elements
    · next hOther => exact .stop (not_exists.mpr hOther)
  | _ =>
    refine .stop fun h => ?_
    cases h

end

end Json

end Amalgam
