/-
  IDS THAT ARE HANDED OUT ON FIRST USE.

  A counter gives each key its id when the key is first asked for, and a memo keeps it.  `Ids` is the
  counter and the memo with what they always satisfy as fields: two keys have two ids (`inj`), and
  the ids in use are exactly those below the counter (`lt`, `onto`).

  * `intern k` asks for the id of `k`;
  * no id changes once it is there (`id_intern_of_some`), and only `k` can get one (`id_intern_of_ne`);
  * the counter is the number of keys that have an id (`next_le_card`, `card_le_next`), so with all
    keys from a set of `n` every id is below `n` (`intern_lt_card`).

  Which key gets which id depends on the order in which they come; nothing here promises more.
-/
import Mathlib.Data.Finset.Card
import Mathlib.Data.Finset.Range

namespace LazyIds

/-- Ids given out so far: below a counter, one a key, and every one below the counter
    given out. -/
structure Ids (κ : Type*) where
  next : Nat
  id : κ → Option Nat
  lt : ∀ {k i}, id k = some i → i < next
  inj : ∀ {k k' i}, id k = some i → id k' = some i → k = k'
  onto : ∀ {i}, i < next → ∃ k, id k = some i

variable {κ : Type*}

/-- No key has an id yet. -/
def Ids.empty : Ids κ where
  next := 0
  id := fun _ => none
  lt := by simp
  inj := by simp
  onto := by simp

/-! ## How many there are -/

section
variable {s : Ids κ}

/-- With all keys that have an id in `S`, there are at most as many ids. -/
theorem next_le_card {S : Finset κ} (h : ∀ k i, s.id k = some i → k ∈ S) : s.next ≤ S.card := by
  have hsub : Finset.range s.next ⊆ S.image fun k => (s.id k).getD 0 := by
    intro i hi
    obtain ⟨k, hk⟩ := s.onto (Finset.mem_range.mp hi)
    refine Finset.mem_image.mpr ⟨k, h k i hk, ?_⟩
    rw [hk]
    rfl
  calc s.next = (Finset.range s.next).card := (Finset.card_range _).symm
    _ ≤ (S.image fun k => (s.id k).getD 0).card := Finset.card_le_card hsub
    _ ≤ S.card := Finset.card_image_le

/-- With an id for each key of `S`, there are at least as many. -/
theorem card_le_next {S : Finset κ} (h : ∀ k ∈ S, (s.id k).isSome) : S.card ≤ s.next := by
  have hmaps : ∀ k ∈ S, (s.id k).getD 0 ∈ Finset.range s.next := by
    intro k hk
    obtain ⟨i, hi⟩ := Option.isSome_iff_exists.mp (h k hk)
    rw [hi]
    exact Finset.mem_range.mpr (s.lt hi)
  have hinj : ∀ k ∈ S, ∀ k' ∈ S, (s.id k).getD 0 = (s.id k').getD 0 → k = k' := by
    intro k hk k' hk' heq
    obtain ⟨i, hi⟩ := Option.isSome_iff_exists.mp (h k hk)
    obtain ⟨j, hj⟩ := Option.isSome_iff_exists.mp (h k' hk')
    rw [hi, hj] at heq
    cases (heq : i = j)
    exact s.inj hi hj
  have hcard := Finset.card_le_card_of_injOn _ hmaps hinj
  rwa [Finset.card_range] at hcard

end

/-! ## Asking for an id -/

variable [DecidableEq κ]

/-- The next id goes to a key that has none. -/
def Ids.assign (s : Ids κ) (k : κ) (hk : s.id k = none) : Ids κ where
  next := s.next + 1
  id := Function.update s.id k (some s.next)
  lt := by
    intro k' i h
    by_cases hkk : k' = k
    · subst hkk
      rw [Function.update_self] at h
      cases h
      omega
    · rw [Function.update_of_ne hkk] at h
      have := s.lt h
      omega
  inj := by
    -- an old id lies below the new one
    intro k₁ k₂ i h₁ h₂
    by_cases hk₁ : k₁ = k <;> by_cases hk₂ : k₂ = k
    · rw [hk₁, hk₂]
    · rw [hk₁, Function.update_self] at h₁
      rw [Function.update_of_ne hk₂] at h₂
      cases h₁
      exact absurd (s.lt h₂) (Nat.lt_irrefl _)
    · rw [hk₂, Function.update_self] at h₂
      rw [Function.update_of_ne hk₁] at h₁
      cases h₂
      exact absurd (s.lt h₁) (Nat.lt_irrefl _)
    · rw [Function.update_of_ne hk₁] at h₁
      rw [Function.update_of_ne hk₂] at h₂
      exact s.inj h₁ h₂
  onto := by
    intro i hi
    rcases Nat.lt_succ_iff_lt_or_eq.mp hi with hlt | rfl
    · obtain ⟨k', hk'⟩ := s.onto hlt
      refine ⟨k', ?_⟩
      have hne : k' ≠ k := by
        rintro rfl
        rw [hk] at hk'
        nomatch hk'
      rw [Function.update_of_ne hne, hk']
    · exact ⟨k, Function.update_self ..⟩

/-- The id of a key, given to it now if need be. -/
def intern (k : κ) (s : Ids κ) : Nat × Ids κ :=
  match hk : s.id k with
  | some i => (i, s)
  | none => (s.next, s.assign k hk)

variable {s : Ids κ} {k k' : κ} {i : Nat}

/-- A key that has an id keeps it. -/
theorem intern_of_some (h : s.id k = some i) : intern k s = (i, s) := by
  unfold intern
  split
  · rename_i j hj
    rw [h] at hj
    cases hj
    rfl
  · rename_i hk
    rw [h] at hk
    nomatch hk

/-- A key that has none gets the next one. -/
theorem intern_of_none (h : s.id k = none) : intern k s = (s.next, s.assign k h) := by
  unfold intern
  split
  · rename_i j hj
    rw [h] at hj
    nomatch hj
  · rfl

/-- Behind the call the key has the id that was returned. -/
theorem id_intern_self : (intern k s).2.id k = some (intern k s).1 := by
  cases h : s.id k with
  | some i => rw [intern_of_some h, h]
  | none =>
    rw [intern_of_none h]
    exact Function.update_self ..

/-- An id stays. -/
theorem id_intern_of_some (h : s.id k' = some i) : (intern k s).2.id k' = some i := by
  cases hk : s.id k with
  | some j => rw [intern_of_some hk, h]
  | none =>
    have hne : k' ≠ k := by
      rintro rfl
      rw [h] at hk
      nomatch hk
    rw [intern_of_none hk]
    exact (Function.update_of_ne hne ..).trans h

/-- The other keys are not affected. -/
theorem id_intern_of_ne (h : k' ≠ k) : (intern k s).2.id k' = s.id k' := by
  cases hk : s.id k with
  | some i => rw [intern_of_some hk]
  | none =>
    rw [intern_of_none hk]
    exact Function.update_of_ne h ..

/-- The counter never goes back. -/
theorem next_le_next_intern : s.next ≤ (intern k s).2.next := by
  cases hk : s.id k with
  | some i => rw [intern_of_some hk]
  | none =>
    rw [intern_of_none hk]
    exact Nat.le_succ _

/-- As long as the ids lie below `n`, so does the counter. -/
theorem next_intern_le {n : Nat} (hn : s.next ≤ n) (hk : (intern k s).1 < n) :
    (intern k s).2.next ≤ n := by
  cases h : s.id k with
  | some i => rwa [intern_of_some h]
  | none =>
    rw [intern_of_none h] at hk ⊢
    exact hk

/-- **The ids of `n` keys lie below `n`.** -/
theorem intern_lt_card {S : Finset κ} (h : ∀ k i, s.id k = some i → k ∈ S) (hk : k ∈ S) :
    (intern k s).1 < S.card := by
  have hkeys : ∀ k' i, (intern k s).2.id k' = some i → k' ∈ S := by
    intro k' i hi
    by_cases hkk : k' = k
    · rw [hkk]
      exact hk
    · exact h k' i ((id_intern_of_ne hkk).symm.trans hi)
  calc (intern k s).1 < (intern k s).2.next := (intern k s).2.lt id_intern_self
    _ ≤ S.card := next_le_card hkeys

end LazyIds
