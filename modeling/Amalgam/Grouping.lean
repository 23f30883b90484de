import Amalgam.Table

/-! # Groups by key

Elements are grouped by a key. Groups stand in the order in which their keys first occur, and each
holds its members in their own order.
-/

namespace Amalgam

def distinct {α : Type} [DecidableEq α] : List α → List α
  | [] => []
  | a :: rest => a :: (distinct rest).filter (· ≠ a)

def groupBy {α κ : Type} [DecidableEq κ] (key : α → κ) (elements : List α) : Table κ (List α) :=
  (distinct (elements.map key)).map fun k => (k, elements.filter fun a => key a = k)

section

variable {α κ : Type}

@[simp] theorem mem_distinct [DecidableEq α] {x : α} {elements : List α} :
    x ∈ distinct elements ↔ x ∈ elements := by
  induction elements with
  | nil => simp [distinct]
  | cons a rest ih => by_cases h : x = a <;> simp [distinct, ih, h]

theorem distinct_nodup [DecidableEq α] (elements : List α) : (distinct elements).Nodup := by
  induction elements with
  | nil => simp [distinct]
  | cons a rest ih =>
    rw [distinct, List.nodup_cons]
    exact ⟨by simp, ih.filter _⟩

theorem mem_groupBy [DecidableEq κ] {key : α → κ} {elements : List α} {k : κ} {group : List α} :
    (k, group) ∈ groupBy key elements ↔
      (∃ a ∈ elements, key a = k) ∧ group = elements.filter fun a => key a = k := by
  simp only [groupBy, List.mem_map, mem_distinct, Prod.mk.injEq]
  constructor
  · rintro ⟨_, ⟨a, ha, rfl⟩, rfl, rfl⟩
    exact ⟨⟨a, ha, rfl⟩, rfl⟩
  · rintro ⟨⟨a, ha, rfl⟩, rfl⟩
    exact ⟨_, ⟨a, ha, rfl⟩, rfl, rfl⟩

theorem distinct_of_forall_eq [DecidableEq α] {x : α} {elements : List α} (hSome : elements ≠ [])
    (hSame : ∀ a ∈ elements, a = x) : distinct elements = [x] := by
  cases elements with
  | nil => exact absurd rfl hSome
  | cons a rest =>
    have hFirst : a = x := hSame a List.mem_cons_self
    subst hFirst
    rw [distinct, List.filter_eq_nil_iff.2]
    intro b hb
    simpa using hSame b (List.mem_cons_of_mem a (mem_distinct.1 hb))

theorem groupBy_of_forall_eq [DecidableEq κ] {key : α → κ} {k : κ} {elements : List α}
    (hSome : elements ≠ []) (hSame : ∀ a ∈ elements, key a = k) :
    groupBy key elements = [(k, elements)] := by
  have hKeys : distinct (elements.map key) = [k] := by
    refine distinct_of_forall_eq (by simpa using hSome) fun x hx => ?_
    obtain ⟨a, ha, rfl⟩ := List.mem_map.1 hx
    exact hSame a ha
  have hAll : (elements.filter fun a => key a = k) = elements :=
    List.filter_eq_self.2 fun a ha => decide_eq_true (hSame a ha)
  rw [groupBy, hKeys, List.map_singleton, hAll]

theorem keys_groupBy [DecidableEq κ] (key : α → κ) (elements : List α) :
    Table.keys (groupBy key elements) = distinct (elements.map key) := by
  simp [Table.keys, groupBy, Function.comp_def]

theorem get?_groupBy [DecidableEq κ] (key : α → κ) (elements : List α) (k : κ) :
    ((groupBy key elements).get? k).getD [] = elements.filter fun a => key a = k := by
  have hFound : ∀ keys : List κ,
      Table.get? (keys.map fun k => (k, elements.filter fun a => key a = k)) k =
        if k ∈ keys then some (elements.filter fun a => key a = k) else none := by
    intro keys
    induction keys with
    | nil => rfl
    | cons first rest ih =>
      by_cases hFirst : first = k
      · simp [Table.get?, hFirst]
      · simp [Table.get?, hFirst, Ne.symm hFirst, ih]
  rw [groupBy, hFound]
  split
  · rfl
  · next hAbsent =>
    rw [mem_distinct, List.mem_map] at hAbsent
    refine (List.filter_eq_nil_iff.2 fun a ha => ?_).symm
    rw [decide_eq_true_eq]
    exact fun hSame => hAbsent ⟨a, ha, hSame⟩

end

end Amalgam
