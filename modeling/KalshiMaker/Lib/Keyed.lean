import Mathlib.Algebra.BigOperators.Group.List.Basic
import Mathlib.Data.List.Basic
import Mathlib.Data.List.Nodup

/-! Lists read by a key that no two entries share. -/
namespace Keyed

variable {α κ : Type*} [DecidableEq κ] {key : α → κ}

def Distinct (key : α → κ) (entries : List α) : Prop := (entries.map key).Nodup

def lookup (key : α → κ) (k : κ) (entries : List α) : Option α := entries.find? fun a => decide (key a = k)

@[simp] theorem lookup_nil (k : κ) : lookup key k [] = none := rfl

theorem lookup_cons (a : α) (k : κ) (entries : List α) :
    lookup key k (a :: entries) = if key a = k then some a else lookup key k entries := by
  unfold lookup
  by_cases same : key a = k <;> simp [same]

theorem key_of_lookup {k : κ} {entries : List α} {a : α} (found : lookup key k entries = some a) : key a = k := by
  simpa using List.find?_some found

theorem mem_of_lookup {k : κ} {entries : List α} {a : α} (found : lookup key k entries = some a) :
    a ∈ entries := List.mem_of_find?_eq_some found

theorem lookup_eq_none {k : κ} {entries : List α} : lookup key k entries = none ↔ k ∉ entries.map key := by
  simp [lookup]

theorem lookup_of_mem {entries : List α} (distinct : Distinct key entries) {a : α} (member : a ∈ entries) :
    lookup key (key a) entries = some a := by
  induction entries with
  | nil => cases member
  | cons b entries ih =>
    obtain ⟨new, distinct⟩ := List.nodup_cons.mp distinct
    rw [lookup_cons]
    rcases List.mem_cons.mp member with rfl | later
    · exact if_pos rfl
    · have other : key b ≠ key a := fun same => new (same ▸ List.mem_map_of_mem later)
      rw [if_neg other]
      exact ih distinct later

theorem lookup_eq_some {entries : List α} (distinct : Distinct key entries) {k : κ} {a : α} :
    lookup key k entries = some a ↔ a ∈ entries ∧ key a = k := by
  constructor
  · exact fun found => ⟨mem_of_lookup found, key_of_lookup found⟩
  · rintro ⟨member, rfl⟩
    exact lookup_of_mem distinct member

/-! ### Adding, removing and replacing the entry of one key -/

omit [DecidableEq κ] in
theorem distinct_append {entries : List α} {a : α} (distinct : Distinct key entries)
    (new : key a ∉ entries.map key) : Distinct key (entries ++ [a]) := by
  rw [Distinct, List.map_append, List.map_singleton]
  exact distinct.append (List.nodup_singleton _) (by simpa using new)

theorem lookup_append {entries : List α} {a : α} (new : key a ∉ entries.map key) (k : κ) :
    lookup key k (entries ++ [a]) = if key a = k then some a else lookup key k entries := by
  have last : lookup key k [a] = if key a = k then some a else none := lookup_cons a k []
  rw [lookup, List.find?_append]
  change (lookup key k entries).or (lookup key k [a]) = _
  rw [last]
  split
  next same => rw [lookup_eq_none.mpr (same ▸ new), Option.none_or]
  next => rw [Option.or_none]

variable {p : α → Bool} {j : κ}

omit [DecidableEq κ] in
theorem distinct_eraseP {entries : List α} (distinct : Distinct key entries) :
    Distinct key (entries.eraseP p) := distinct.sublist (List.eraseP_sublist.map key)

/-- Removing the first entry that a test for one key finds. -/
theorem lookup_eraseP {entries : List α} (distinct : Distinct key entries)
    (tests : ∀ a ∈ entries, p a = true ↔ key a = j) (k : κ) :
    lookup key k (entries.eraseP p) = if k = j then none else lookup key k entries := by
  induction entries with
  | nil => simp
  | cons a entries ih =>
    obtain ⟨new, distinct⟩ := List.nodup_cons.mp distinct
    have first := tests a List.mem_cons_self
    have ih := ih distinct fun b member => tests b (List.mem_cons_of_mem a member)
    by_cases here : key a = j
    · rw [List.eraseP_cons_of_pos (first.mpr here), lookup_cons]
      by_cases asked : k = j
      · rw [if_pos asked]
        exact lookup_eq_none.mpr (asked.trans here.symm ▸ new)
      · rw [if_neg asked, if_neg fun same => asked (same.symm.trans here)]
    · rw [List.eraseP_cons_of_neg fun found => here (first.mp found), lookup_cons, lookup_cons, ih]
      by_cases asked : k = j
      · simp [asked, here]
      · simp [asked]

variable {f : α → Option α} {b : α}

theorem map_key_replaceF {entries : List α} (replaces : ∀ a ∈ entries, f a = if key a = j then some b else none)
    (same : key b = j) : (entries.replaceF f).map key = entries.map key := by
  induction entries with
  | nil => rfl
  | cons a entries ih =>
    have first := replaces a List.mem_cons_self
    have ih := ih fun c member => replaces c (List.mem_cons_of_mem a member)
    by_cases here : key a = j
    · rw [if_pos here] at first
      simp [first, same, here]
    · rw [if_neg here] at first
      simp [first, ih]

/-- Replacing the first entry under a key by another of that key. -/
theorem lookup_replaceF {entries : List α} (replaces : ∀ a ∈ entries, f a = if key a = j then some b else none)
    (same : key b = j) (k : κ) :
    lookup key k (entries.replaceF f) =
      if k = j then (lookup key k entries).map fun _ => b else lookup key k entries := by
  induction entries with
  | nil => simp
  | cons a entries ih =>
    have first := replaces a List.mem_cons_self
    have ih := ih fun c member => replaces c (List.mem_cons_of_mem a member)
    by_cases here : key a = j
    · rw [if_pos here] at first
      rw [List.replaceF_cons_of_some f first, lookup_cons, lookup_cons, same, here]
      by_cases asked : k = j
      · simp [asked]
      · simp [asked, Ne.symm asked]
    · rw [if_neg here] at first
      rw [List.replaceF_cons_of_none f first, lookup_cons, lookup_cons, ih]
      by_cases asked : k = j
      · simp [asked, here]
      · simp [asked]

/-! ### Changing the entry of one key, or a fresh one where there is none -/

def upsert (key : α → κ) (k : κ) (fresh : α) (change : α → α) : List α → List α
  | [] => [change fresh]
  | a :: entries => if key a = k then change a :: entries else a :: upsert key k fresh change entries

variable {k : κ} {fresh : α} {change : α → α}

theorem map_key_upsert (made : key fresh = k) (keeps : ∀ a, key (change a) = key a) (entries : List α) :
    (upsert key k fresh change entries).map key =
      if k ∈ entries.map key then entries.map key else entries.map key ++ [k] := by
  induction entries with
  | nil => simp [upsert, keeps, made]
  | cons a entries ih =>
    unfold upsert
    by_cases here : key a = k
    · simp [here, keeps]
    · rw [if_neg here, List.map_cons, ih]
      simp only [List.map_cons, List.mem_cons, Ne.symm here, false_or]
      split <;> rfl

theorem distinct_upsert (made : key fresh = k) (keeps : ∀ a, key (change a) = key a) {entries : List α}
    (distinct : Distinct key entries) : Distinct key (upsert key k fresh change entries) := by
  unfold Distinct at distinct ⊢
  rw [map_key_upsert made keeps]
  split
  next => exact distinct
  next absent => exact distinct.append (List.nodup_singleton k) (by simpa using absent)

/-- An entry afterwards: one of another key as it was, or the changed one. -/
theorem mem_upsert {entries : List α} (distinct : Distinct key entries) {a : α}
    (member : a ∈ upsert key k fresh change entries) :
    (a ∈ entries ∧ key a ≠ k) ∨ (∃ old ∈ entries, key old = k ∧ a = change old) ∨
      (k ∉ entries.map key ∧ a = change fresh) := by
  induction entries with
  | nil => exact .inr (.inr ⟨List.not_mem_nil, List.mem_singleton.mp member⟩)
  | cons b entries ih =>
    obtain ⟨new, distinct⟩ := List.nodup_cons.mp distinct
    unfold upsert at member
    by_cases here : key b = k
    · rw [if_pos here] at member
      rcases List.mem_cons.mp member with rfl | later
      · exact .inr (.inl ⟨b, List.mem_cons_self, here, rfl⟩)
      · exact .inl ⟨List.mem_cons_of_mem b later, fun same => new (here.trans same.symm ▸ List.mem_map_of_mem later)⟩
    · rw [if_neg here] at member
      rcases List.mem_cons.mp member with rfl | later
      · exact .inl ⟨List.mem_cons_self, here⟩
      · rcases ih distinct later with ⟨kept, other⟩ | ⟨old, kept, same, rfl⟩ | ⟨absent, rfl⟩
        · exact .inl ⟨List.mem_cons_of_mem b kept, other⟩
        · exact .inr (.inl ⟨old, List.mem_cons_of_mem b kept, same, rfl⟩)
        · exact .inr (.inr ⟨by simpa [Ne.symm here] using absent, rfl⟩)

/-- What every change adds to an amount that starts from nothing, the sum gains. -/
theorem sum_upsert {M : Type*} [AddCommMonoid M] {amount : α → M} {gain : M}
    (adds : ∀ a, amount (change a) = amount a + gain) (nothing : amount fresh = 0) (entries : List α) :
    ((upsert key k fresh change entries).map amount).sum = (entries.map amount).sum + gain := by
  induction entries with
  | nil => simp [upsert, adds, nothing]
  | cons a entries ih =>
    unfold upsert
    split
    next => rw [List.map_cons, List.map_cons, List.sum_cons, List.sum_cons, adds, add_right_comm]
    next => rw [List.map_cons, List.map_cons, List.sum_cons, List.sum_cons, ih, add_assoc]

end Keyed
