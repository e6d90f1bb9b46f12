/-
  READING BACK WHAT WAS WRITTEN.

  A reader is a call on a state that holds a buffer and a cursor: `place buffer pos` is the state
  with the cursor at `pos`.

  * `Takes place x data a` — with `data` under the cursor, whatever stands before and behind it, the
    call gives `a` and moves the cursor to the end of `data`.

  Calls that follow each other take what is written one behind the other (`Takes.bind`), so a whole
  sequence of items is read back from each of its boundaries (`fromBoundary`).

  The definition asks for every place in every buffer at once.  That is what makes it compose: the
  bytes of the second reader are behind those of the first, wherever those were, so a proof of a
  round trip is one lemma for each kind of item and nothing about offsets.
-/
import SteamMin.Lib.Calls

namespace ReadBack

variable {ε σ α β ι κ : Type} {place : List UInt8 → Nat → σ}

/-- `n` calls, and what they give. -/
def times (n : Nat) (x : EStateM ε σ α) : EStateM ε σ (List α) :=
  (List.replicate n ()).mapM fun _ => x

/-- One more round, in front. -/
theorem times_succ (n : Nat) (x : EStateM ε σ α) :
    times (n + 1) x = (do let a ← x; let as ← times n x; pure (a :: as)) := by
  rw [times, List.replicate_succ, List.mapM_cons]
  rfl

/-- `n` runs of the abstract system. -/
theorem refines_times {τ : Type} {Step : τ → τ → Prop} {view : σ → τ} {x : EStateM ε σ α}
    (hx : Calls.Refines Step view x) (n : Nat) : Calls.Refines Step view (times n x) := by
  induction n with
  | zero => exact Calls.refines_pure []
  | succ n ih =>
    rw [times_succ]
    exact Calls.refines_bind hx fun _ => Calls.refines_bind ih fun _ => Calls.refines_pure _

/-- Wherever the bytes stand in a buffer, the reader returns their value and the cursor passes
    them. -/
def Takes (place : List UInt8 → Nat → σ) (x : EStateM ε σ α) (data : List UInt8) (a : α) : Prop :=
  ∀ before behind, x (place (before ++ data ++ behind) before.length)
    = .ok a (place (before ++ data ++ behind) (before.length + data.length))

/-- Returning takes no byte. -/
theorem takes_pure (a : α) : Takes place (pure a : EStateM ε σ α) [] a := fun _ _ => rfl

/-- Readers one behind the other take the bytes one behind the other: a round trip composes. -/
theorem Takes.bind {x : EStateM ε σ α} {f : α → EStateM ε σ β} {data data' : List UInt8} {a : α}
    {b : β} (hx : Takes place x data a) (hf : Takes place (f a) data' b) :
    Takes place (x >>= f) (data ++ data') b := by
  intro before behind
  have hfirst := hx before (data' ++ behind)
  have hrest := hf (before ++ data) behind
  rw [show before ++ data ++ (data' ++ behind) = before ++ (data ++ data') ++ behind by simp]
    at hfirst
  rw [show before ++ data ++ data' ++ behind = before ++ (data ++ data') ++ behind by simp,
    List.length_append] at hrest
  rw [Calls.bind_ok hfirst, hrest, List.length_append, Nat.add_assoc]

/-- The result may still be converted. -/
theorem Takes.map {x : EStateM ε σ α} {data : List UInt8} {a : α} (hx : Takes place x data a)
    (g : α → β) : Takes place (do pure (g (← x))) data (g a) := by
  have hboth := hx.bind (f := fun a => pure (g a)) (takes_pure (g a))
  rw [List.append_nil] at hboth
  exact hboth

section
variable {read : κ → EStateM ε σ α} {shape : ι → κ} {result : ι → α} {encode : ι → List UInt8}

/-- Item after item. -/
theorem takes_mapM {items : List ι}
    (h : ∀ item ∈ items, Takes place (read (shape item)) (encode item) (result item)) :
    Takes place ((items.map shape).mapM read) (items.flatMap encode) (items.map result) := by
  induction items with
  | nil => exact takes_pure []
  | cons item items ih =>
    obtain ⟨hitem, hitems⟩ := List.forall_mem_cons.mp h
    rw [List.map_cons, List.mapM_cons, List.flatMap_cons, List.map_cons]
    exact hitem.bind ((ih hitems).map (result item :: ·))

/-- As many calls as there are items. -/
theorem takes_times {x : EStateM ε σ α} {items : List ι}
    (h : ∀ item ∈ items, Takes place x (encode item) (result item)) :
    Takes place (times items.length x) (items.flatMap encode) (items.map result) := by
  have hmap : List.replicate items.length () = items.map fun _ => () := List.map_const'.symm
  rw [times, hmap]
  exact takes_mapM h

/-- **From a boundary** between two items, the items behind it are read, up to the end. -/
theorem fromBoundary {done rest : List ι}
    (h : ∀ item ∈ rest, Takes place (read (shape item)) (encode item) (result item)) :
    (rest.map shape).mapM read
        (place ((done ++ rest).flatMap encode) (done.flatMap encode).length)
      = .ok (rest.map result)
          (place ((done ++ rest).flatMap encode) ((done ++ rest).flatMap encode).length) := by
  have hrun := takes_mapM h (done.flatMap encode) []
  rw [List.append_nil, ← List.flatMap_append, ← List.length_append, ← List.flatMap_append] at hrun
  exact hrun

end

end ReadBack
