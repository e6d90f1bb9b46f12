/-
  FINITE MAPS AS KEY-SORTED ASSOCIATION LISTS.

  A hash map has no observable order, so two of them are equal exactly when they answer every
  lookup alike.  A list kept strictly sorted by key is a canonical representative: `Sorted.ext`
  turns "same lookups" into Lean equality, which is what lets a parser's result be compared with
  a specification by `=`.

  * `insert`  — the assignment `m[k] = v` (replace in place, or put in at its position);
  * `find`    — lookup;
  * `ofList`  — a list of assignments carried out from left to right, so that the LAST entry for a
                key wins (`find_ofList`).

  Everything is generic in the key and value types; keys need a linear order.
-/
import Mathlib.Order.Lattice
import Mathlib.Data.List.Basic
import Mathlib.Data.List.Pairwise

namespace KeyMap

variable {κ ν μ : Type} [LinearOrder κ]

/-! ## Lookup and assignment -/

/-- The value stored for `k`. -/
def find (k : κ) : List (κ × ν) → Option ν
  | [] => none
  | (k', v) :: es => if k = k' then some v else find k es

/-- The assignment `m[k] = v`. -/
def insert (k : κ) (v : ν) : List (κ × ν) → List (κ × ν)
  | [] => [(k, v)]
  | (k', v') :: es =>
      if k < k' then (k, v) :: (k', v') :: es
      else if k = k' then (k, v) :: es
      else (k', v') :: insert k v es

/-- Strictly increasing keys. -/
def Sorted : List (κ × ν) → Prop
  | [] => True
  | (k, _) :: es => (∀ e ∈ es, k < e.1) ∧ Sorted es

/-- Looking up behind an insertion. -/
theorem find_insert (j k : κ) (v : ν) :
    ∀ es : List (κ × ν), find j (insert k v es) = if j = k then some v else find j es
  | [] => rfl
  | (k', v') :: es => by
    rw [insert]
    split
    · rfl
    · split
      · rename_i hkk
        subst hkk
        by_cases hj : j = k <;> simp [find, hj]
      · rename_i _ hkk
        rw [find, find_insert j k v es, find]
        by_cases hj : j = k'
        · subst hj
          rw [if_pos rfl, if_neg (fun h => hkk h.symm), if_pos rfl]
        · rw [if_neg hj, if_neg hj]

/-- What is there behind an insertion is new or was there. -/
theorem mem_insert {k : κ} {v : ν} {e : κ × ν} :
    ∀ {es : List (κ × ν)}, e ∈ insert k v es → e = (k, v) ∨ e ∈ es
  | [], h => Or.inl (List.mem_singleton.mp h)
  | (k', v') :: es, h => by
    rw [insert] at h
    split at h
    · exact List.mem_cons.mp h
    · split at h
      · rcases List.mem_cons.mp h with h | h
        · exact Or.inl h
        · exact Or.inr (List.mem_cons_of_mem _ h)
      · rcases List.mem_cons.mp h with h | h
        · exact Or.inr (List.mem_cons.mpr (Or.inl h))
        · rcases mem_insert h with h | h
          · exact Or.inl h
          · exact Or.inr (List.mem_cons_of_mem _ h)

/-- Insertion keeps the keys strictly increasing. -/
theorem Sorted.insert {k : κ} {v : ν} :
    ∀ {es : List (κ × ν)}, Sorted es → Sorted (KeyMap.insert k v es)
  | [], _ => ⟨fun _ h => absurd h List.not_mem_nil, trivial⟩
  | (k', v') :: es, ⟨hlt, hes⟩ => by
    rw [KeyMap.insert]
    split
    · rename_i hk
      refine ⟨fun e he => ?_, hlt, hes⟩
      rcases List.mem_cons.mp he with he | he
      · rw [he]; exact hk
      · exact lt_trans hk (hlt e he)
    · split
      · rename_i hkk
        exact ⟨fun e he => hkk ▸ hlt e he, hes⟩
      · rename_i hk hkk
        refine ⟨fun e he => ?_, hes.insert⟩
        rcases mem_insert he with he | he
        · rw [he]; exact lt_of_le_of_ne (not_lt.mp hk) (fun h => hkk h.symm)
        · exact hlt e he

/-! ## Sorted lists are canonical -/

/-- A key below every key of the list is not found. -/
theorem find_eq_none_of_lt {k : κ} :
    ∀ {es : List (κ × ν)}, (∀ e ∈ es, k < e.1) → find k es = none
  | [], _ => rfl
  | (k', v') :: es, h => by
    have hk : k < k' := h (k', v') List.mem_cons_self
    rw [find, if_neg (ne_of_lt hk)]
    exact find_eq_none_of_lt fun e he => h e (List.mem_cons_of_mem _ he)

/-- The first entry is found under its key. -/
theorem find_head {k : κ} {v : ν} {es : List (κ × ν)} : find k ((k, v) :: es) = some v := by
  rw [find, if_pos rfl]

/-- In a sorted list every key is at least the first one. -/
theorem Sorted.head_le {k j : κ} {v w : ν} {es : List (κ × ν)} (h : Sorted ((k, v) :: es))
    (hj : find j ((k, v) :: es) = some w) : k ≤ j := by
  by_contra hlt
  rw [find_eq_none_of_lt] at hj
  · exact absurd hj (by simp)
  · intro e he
    rcases List.mem_cons.mp he with he | he
    · rw [he]; exact not_le.mp hlt
    · exact lt_trans (not_le.mp hlt) (h.1 e he)

/-- **Extensionality**: sorted lists that answer every lookup alike are equal. -/
theorem Sorted.ext : ∀ {es fs : List (κ × ν)}, Sorted es → Sorted fs →
    (∀ k, find k es = find k fs) → es = fs
  | [], [], _, _, _ => rfl
  | [], (k, v) :: _, _, _, h => absurd (h k) (by simp [find])
  | (k, v) :: _, [], _, _, h => absurd (h k) (by simp [find])
  | (k, v) :: es, (k', v') :: fs, hes, hfs, h => by
    have hk : k = k' :=
      le_antisymm (hes.head_le (w := v') (by rw [h k', find_head]))
        (hfs.head_le (w := v) (by rw [← h k, find_head]))
    subst hk
    have hv : v = v' := by
      have hk := h k
      rw [find_head, find_head] at hk
      exact Option.some.inj hk
    subst hv
    have htail : es = fs := by
      refine Sorted.ext hes.2 hfs.2 fun j => ?_
      by_cases hj : j = k
      · subst hj
        rw [find_eq_none_of_lt hes.1, find_eq_none_of_lt hfs.1]
      · have hj' := h j
        rwa [find, if_neg hj, find, if_neg hj] at hj'
    rw [htail]

/-! ## A list of assignments -/

/-- The assignments `es`, carried out on `m` from left to right. -/
def assign (m : List (κ × ν)) (es : List (κ × ν)) : List (κ × ν) :=
  es.foldl (fun m e => insert e.1 e.2 m) m

/-- The map a list of assignments leaves behind. -/
def ofList (es : List (κ × ν)) : List (κ × ν) := assign [] es

/-- Inserting a list is inserting its head, then its tail: later keys win. -/
@[simp] theorem assign_cons (m : List (κ × ν)) (e : κ × ν) (es : List (κ × ν)) :
    assign m (e :: es) = assign (insert e.1 e.2 m) es := rfl

/-- Lists may be inserted in two stretches. -/
theorem assign_append (m es fs : List (κ × ν)) : assign m (es ++ fs) = assign (assign m es) fs :=
  List.foldl_append

/-- Inserting a list keeps the keys strictly increasing. -/
theorem Sorted.assign : ∀ (es : List (κ × ν)) {m : List (κ × ν)}, Sorted m →
    Sorted (KeyMap.assign m es)
  | [], _, h => h
  | _ :: es, _, h => Sorted.assign es h.insert

/-- So a map made from any list is sorted. -/
theorem sorted_ofList (es : List (κ × ν)) : Sorted (ofList es) := Sorted.assign es trivial

/-- The value of the last entry for `k`. -/
def findLast (k : κ) : List (κ × ν) → Option ν
  | [] => none
  | (k', v) :: es => (findLast k es).or (if k = k' then some v else none)

/-- Looking up behind a list of insertions: the last of the list, or what was there. -/
theorem find_assign (k : κ) : ∀ (es m : List (κ × ν)),
    find k (assign m es) = (findLast k es).or (find k m)
  | [], _ => rfl
  | (k', v) :: es, m => by
    rw [assign_cons, find_assign k es, find_insert, findLast]
    by_cases hk : k = k'
    · simp [hk]
    · simp [hk]

/-- **The last entry wins**: each key holds what its last assignment put there. -/
theorem find_ofList (k : κ) (es : List (κ × ν)) : find k (ofList es) = findLast k es := by
  rw [ofList, find_assign]
  exact Option.or_none

/-- Assignments to keys all different from `k` can be moved across an assignment to `k`. -/
theorem assign_insert_comm {k : κ} (v : ν) {m : List (κ × ν)} (hm : Sorted m) :
    ∀ {es : List (κ × ν)}, (∀ e ∈ es, e.1 ≠ k) →
      assign (insert k v m) es = insert k v (assign m es) := by
  intro es hne
  refine Sorted.ext (Sorted.assign es hm.insert) (Sorted.assign es hm).insert fun j => ?_
  rw [find_assign, find_insert, find_insert, find_assign]
  by_cases hj : j = k
  · subst hj
    have hlast : findLast j es = none := by
      induction es with
      | nil => rfl
      | cons e es ih =>
        obtain ⟨k', v'⟩ := e
        have hk' : j ≠ k' := fun h => hne (k', v') List.mem_cons_self h.symm
        rw [findLast, ih fun e he => hne e (List.mem_cons_of_mem _ he), if_neg hk']
        rfl
    rw [hlast, if_pos rfl, if_pos rfl]
    rfl
  · rw [if_neg hj, if_neg hj]

/-- Without repeated keys, first and last entry are the same. -/
theorem Sorted.findLast_eq (k : κ) : ∀ {es : List (κ × ν)}, Sorted es → findLast k es = find k es
  | [], _ => rfl
  | (k', v) :: es, h => by
    rw [findLast, Sorted.findLast_eq k h.2, find]
    by_cases hk : k = k'
    · subst hk
      rw [find_eq_none_of_lt h.1, if_pos rfl]
      rfl
    · rw [if_neg hk, if_neg hk, Option.or_none]

/-- A key below all others is put in front. -/
theorem insert_of_lt {k : κ} (v : ν) : ∀ {es : List (κ × ν)}, (∀ e ∈ es, k < e.1) →
    insert k v es = (k, v) :: es
  | [], _ => rfl
  | (k', v') :: es, h => by
    rw [insert, if_pos (h (k', v') List.mem_cons_self)]

/-- A sorted list is what assigning its own entries leaves behind. -/
theorem ofList_of_sorted {es : List (κ × ν)} (h : Sorted es) : ofList es = es :=
  (sorted_ofList es).ext h fun k => by rw [find_ofList, h.findLast_eq k]

end KeyMap
