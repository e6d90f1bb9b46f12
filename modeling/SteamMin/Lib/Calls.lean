/-
  CALLS THAT CHANGE A STATE AND MAY FAIL.

  `EStateM ε σ α` keeps the state when a call ends in an error, which is how an exception leaves
  the objects a C++ function has already written to.

  * the first rules run a sequence one call at a time;
  * `after` is the state a call leaves behind, however it ends;
  * `FailsOnly P x` — the errors of `x` satisfy `P`;
  * `FailsIn e S x` — if `x` fails with `e`, it does so in a state of `S`;
  * `Within I J x` — from a state of `I` the call `x` returns in one of `I`, or fails with `e` in one
    of `J e`;
  * `Keeps view x` — `x` does not change what `view` sees;
  * `Refines Step view x` — seen through `view`, every run of the call `x` is a run of the abstract
    system `Step`, also when `x` fails half way.  One rule for each way to compose calls.
-/
import Mathlib.Logic.Relation
import Mathlib.Data.List.Forall2

namespace Calls

variable {ε σ τ α β : Type}

/-! ## Sequences -/

/-- A call that returned hands its result and its state to what follows. -/
theorem bind_ok {x : EStateM ε σ α} {f : α → EStateM ε σ β} {s s' : σ} {a : α}
    (h : x s = .ok a s') : (x >>= f) s = f a s' := by
  show EStateM.bind x f s = _
  rw [EStateM.bind, h]

/-- A call that failed ends the sequence, in the state it failed in: nothing is rolled back. -/
theorem bind_error {x : EStateM ε σ α} {f : α → EStateM ε σ β} {s s' : σ} {e : ε}
    (h : x s = .error e s') : (x >>= f) s = .error e s' := by
  show EStateM.bind x f s = _
  rw [EStateM.bind, h]

/-- Two calls that agree at a state agree there with anything behind them. -/
theorem bind_congr_of_eq {x y : EStateM ε σ α} {f : α → EStateM ε σ β} {s : σ} (h : x s = y s) :
    (x >>= f) s = (y >>= f) s := by
  show EStateM.bind x f s = EStateM.bind y f s
  rw [EStateM.bind, EStateM.bind, h]

/-- Reading the state changes nothing. -/
theorem get_bind {f : σ → EStateM ε σ β} (s : σ) : (get >>= f) s = f s s := rfl

/-- Writing the state always succeeds. -/
theorem modify_bind {g : σ → σ} {f : PUnit → EStateM ε σ β} (s : σ) :
    (modify g >>= f) s = f ⟨⟩ (g s) := rfl

/-- A sequence that ended well had a first call that did. -/
theorem bind_eq_ok {x : EStateM ε σ α} {f : α → EStateM ε σ β} {s s'' : σ} {b : β}
    (h : (x >>= f) s = .ok b s'') : ∃ a s', x s = .ok a s' ∧ f a s' = .ok b s'' := by
  cases hx : x s with
  | ok a s' => exact ⟨a, s', rfl, (bind_ok hx).symm.trans h⟩
  | error e s' => nomatch (bind_error hx).symm.trans h

/-- A sequence that failed did so with its first call or behind it. -/
theorem bind_eq_error {x : EStateM ε σ α} {f : α → EStateM ε σ β} {s s'' : σ} {e : ε}
    (h : (x >>= f) s = .error e s'') :
    x s = .error e s'' ∨ ∃ a s', x s = .ok a s' ∧ f a s' = .error e s'' := by
  cases hx : x s with
  | ok a s' => exact .inr ⟨a, s', rfl, (bind_ok hx).symm.trans h⟩
  | error e' s' =>
    cases (bind_error hx).symm.trans h
    exact .inl rfl

/-- The same for a sequence without a state. -/
theorem except_bind_eq_ok {x : Except ε α} {f : α → Except ε β} {b : β}
    (h : x >>= f = .ok b) : ∃ a, x = .ok a ∧ f a = .ok b := by
  cases x with
  | ok a => exact ⟨a, rfl, h⟩
  | error e => cases h

/-- It fails with its first part or behind it. -/
theorem except_bind_eq_error {x : Except ε α} {f : α → Except ε β} {e : ε}
    (h : x >>= f = .error e) : x = .error e ∨ ∃ a, x = .ok a ∧ f a = .error e := by
  cases x with
  | ok a => exact .inr ⟨a, rfl, h⟩
  | error e' =>
    cases h
    exact .inl rfl

/-! ## How a call ends -/

/-- The state a call leaves behind. -/
def after : EStateM.Result ε σ α → σ
  | .ok _ s => s
  | .error _ s => s

/-- What a call returns or fails with. -/
def outcome : EStateM.Result ε σ α → Except ε α
  | .ok a _ => .ok a
  | .error e _ => .error e

/-- A computation that needs no state. -/
def lift (x : Except ε α) : EStateM ε σ α := fun s =>
  match x with
  | .ok a => .ok a s
  | .error e => .error e s

/-- A pure computation leaves the state alone, also when it fails. -/
@[simp] theorem after_lift (x : Except ε α) (s : σ) : after (lift x s) = s := by
  cases x <;> rfl

/-- A pure computation that returned returns in the caller's state. -/
theorem lift_ok {x : Except ε α} {a : α} (h : x = .ok a) (s : σ) : lift x s = .ok a s := by
  rw [h]
  rfl

/-- Lifting commutes with sequencing, so a pure decoder may be written in its own monad. -/
theorem lift_bind (x : Except ε α) (f : α → Except ε β) :
    (lift (x >>= f) : EStateM ε σ β) = lift x >>= fun a => lift (f a) := by
  cases x <;> rfl

/-- A call on a part of the state. -/
def zoom (part : σ → τ) (put : τ → σ → σ) (x : EStateM ε τ α) : EStateM ε σ α := fun s =>
  match x (part s) with
  | .ok a t => .ok a (put t s)
  | .error e t => .error e (put t s)

section
variable {part : σ → τ} {put : τ → σ → σ}

/-- A sequence on a part of the state is the sequence of its calls on that part: the two laws of
    the part are all it takes. -/
theorem zoom_bind (hpart : ∀ t s, part (put t s) = t) (hput : ∀ t t' s, put t' (put t s) = put t' s)
    (x : EStateM ε τ α) (f : α → EStateM ε τ β) :
    zoom part put (x >>= f) = zoom part put x >>= fun a => zoom part put (f a) := by
  funext s
  cases hx : x (part s) with
  | ok a t =>
    have hzoom : zoom part put x s = .ok a (put t s) := by rw [zoom, hx]
    rw [bind_ok hzoom, zoom, zoom, bind_ok hx, hpart]
    cases f a t with
    | ok b t' => simp only [hput]
    | error e t' => simp only [hput]
  | error e t =>
    have hzoom : zoom part put x s = .error e (put t s) := by rw [zoom, hx]
    rw [bind_error hzoom, zoom, bind_error hx]

/-- A pure computation does not care which part of the state it runs on. -/
theorem zoom_lift (hself : ∀ s, put (part s) s = s) (x : Except ε α) :
    zoom part put (lift x) = lift x := by
  funext s
  cases x <;> simp only [zoom, lift, hself]

end

/-- The state behind a sequence, on both ways out of its first call. -/
theorem after_bind {x : EStateM ε σ α} {f : α → EStateM ε σ β} (s : σ) :
    after ((x >>= f) s) = match x s with
      | .ok a s' => after (f a s')
      | .error _ s' => s' := by
  cases hx : x s with
  | ok a s' => rw [bind_ok hx]
  | error e s' => rw [bind_error hx]; rfl

/-- A handler behind a call that returned is not entered. -/
theorem tryCatch_ok {x : EStateM ε σ α} {f : ε → EStateM ε σ α} {s s' : σ} {a : α}
    (h : x s = .ok a s') : tryCatch x f s = .ok a s' := by
  show EStateM.tryCatch x f s = _
  delta EStateM.tryCatch
  rw [h]

/-- A handler sees the state the failure left behind. -/
theorem tryCatch_error {x : EStateM ε σ α} {f : ε → EStateM ε σ α} {s s' : σ} {e : ε}
    (h : x s = .error e s') : tryCatch x f s = f e s' := by
  show EStateM.tryCatch x f s = _
  delta EStateM.tryCatch
  rw [h]
  rfl

/-- The same body at a state, caught in the same way, gives the same result. -/
theorem tryCatch_congr_of_eq {x y : EStateM ε σ α} {f : ε → EStateM ε σ α} {s : σ} (h : x s = y s) :
    tryCatch x f s = tryCatch y f s := by
  show EStateM.tryCatch x f s = EStateM.tryCatch y f s
  delta EStateM.tryCatch
  rw [h]

/-! ## A computation for each element of a list -/

section
variable {f : α → Except ε β} {a : α} {as : List α}

/-- A loop ends at the first element that fails. -/
theorem mapM_cons_error {e : ε} (h : f a = .error e) : (a :: as).mapM f = .error e := by
  rw [List.mapM_cons, h]
  rfl

/-- A loop goes on behind an element that returned. -/
theorem mapM_cons_ok {b : β} (h : f a = .ok b) : (a :: as).mapM f = (as.mapM f).map (b :: ·) := by
  rw [List.mapM_cons, h]
  cases as.mapM f <;> rfl

/-- If all of them succeed, there is a result for each, in order. -/
theorem mapM_of_all (h : ∀ a ∈ as, ∃ b, f a = .ok b) :
    ∃ bs, as.mapM f = .ok bs ∧ List.Forall₂ (fun a b => f a = .ok b) as bs := by
  induction as with
  | nil => exact ⟨[], rfl, .nil⟩
  | cons a as ih =>
    obtain ⟨⟨b, hb⟩, hrest⟩ := List.forall_mem_cons.mp h
    obtain ⟨bs, hbs, hall⟩ := ih hrest
    refine ⟨b :: bs, ?_, .cons hb hall⟩
    rw [mapM_cons_ok hb, hbs]
    rfl

/-- A loop that returned has returned at every element. -/
theorem all_of_mapM {bs : List β} (h : as.mapM f = .ok bs) : ∀ a ∈ as, ∃ b, f a = .ok b := by
  induction as generalizing bs with
  | nil => simp
  | cons a as ih =>
    cases ha : f a with
    | error e =>
      rw [mapM_cons_error ha] at h
      cases h
    | ok b =>
      cases has : as.mapM f with
      | error e =>
        rw [mapM_cons_ok ha, has] at h
        cases h
      | ok bs' => exact List.forall_mem_cons.mpr ⟨⟨b, ha⟩, ih has⟩

/-- It fails with the first that fails. -/
theorem mapM_eq_error_iff {e : ε} :
    as.mapM f = .error e ↔ ∃ pre a post, as = pre ++ a :: post ∧
      (∀ b ∈ pre, ∃ r, f b = .ok r) ∧ f a = .error e := by
  constructor
  · induction as with
    | nil => intro h; cases h
    | cons a as ih =>
      intro h
      cases ha : f a with
      | error e' =>
        rw [mapM_cons_error ha] at h
        cases h
        exact ⟨[], a, as, rfl, by simp, ha⟩
      | ok r =>
        rw [mapM_cons_ok ha] at h
        have hrest : as.mapM f = .error e := by
          cases has : as.mapM f with
          | error e' => rw [has] at h; exact h
          | ok bs => rw [has] at h; cases h
        -- the first element returned, so the failing one is among the rest
        obtain ⟨pre, b, post, rfl, hpre, hb⟩ := ih hrest
        exact ⟨a :: pre, b, post, rfl, List.forall_mem_cons.mpr ⟨⟨r, ha⟩, hpre⟩, hb⟩
  · rintro ⟨pre, a, post, rfl, hpre, ha⟩
    induction pre with
    | nil => exact mapM_cons_error ha
    | cons b pre ih =>
      obtain ⟨⟨r, hr⟩, hpre⟩ := List.forall_mem_cons.mp hpre
      rw [List.cons_append, mapM_cons_ok hr, ih hpre]
      rfl

end

/-! ## One call for each element of a list -/

/-- The state behind calls that are made one after the other, each from where the last one ended,
    however it ended. -/
def afterEach (f : α → EStateM ε σ PUnit) : List α → σ → σ
  | [], s => s
  | a :: as, s => afterEach f as (after (f a s))

/-- All calls are made, or one of them fails and is the last. -/
theorem forM_cases (f : α → EStateM ε σ PUnit) (as : List α) (s : σ) :
    forM as f s = .ok ⟨⟩ (afterEach f as s) ∨
      ∃ pre a post e, as = pre ++ a :: post ∧
        f a (afterEach f pre s) = .error e (afterEach f (pre ++ [a]) s) ∧
        forM as f s = .error e (afterEach f (pre ++ [a]) s) := by
  induction as generalizing s with
  | nil => exact .inl rfl
  | cons a as ih =>
    rw [List.forM_cons]
    cases ha : f a s with
    | error e s' =>
      have hs' : after (f a s) = s' := by
        rw [ha]
        rfl
      refine .inr ⟨[], a, as, e, rfl, ?_, ?_⟩
      · rw [List.nil_append, afterEach, afterEach, afterEach, hs']
        exact ha
      · rw [bind_error ha, List.nil_append, afterEach, afterEach, hs']
    | ok u s' =>
      have hs' : after (f a s) = s' := by
        rw [ha]
        rfl
      rw [bind_ok ha, afterEach, hs']
      -- the first call returned, and the rest decides
      rcases ih s' with hok | ⟨pre, b, post, e, rfl, hb, hall⟩
      · exact .inl hok
      · refine .inr ⟨a :: pre, b, post, e, rfl, ?_, ?_⟩
        · rw [List.cons_append, afterEach, afterEach, hs']
          exact hb
        · rw [List.cons_append, afterEach, hs']
          exact hall

/-- If all calls were made, each of them returned. -/
theorem forM_eq_ok {f : α → EStateM ε σ PUnit} (as : List α) :
    ∀ s s', forM as f s = .ok ⟨⟩ s' → ∀ a ∈ as, ∃ t t', f a t = .ok ⟨⟩ t' := by
  induction as with
  | nil =>
    intro s s' _ a ha
    cases ha
  | cons b as ih =>
    intro s s' h a ha
    rw [List.forM_cons] at h
    obtain ⟨u, t, hfirst, hrest⟩ := bind_eq_ok h
    rcases List.mem_cons.mp ha with rfl | ha
    · exact ⟨s, t, hfirst⟩
    · exact ih t s' hrest a ha

/-! ## The errors of a call -/

/-- The call fails only with errors that satisfy `P`. -/
def FailsOnly (P : ε → Prop) (x : EStateM ε σ α) : Prop := ∀ s e s', x s = .error e s' → P e

variable {P : ε → Prop}

/-- Returning never fails. -/
theorem failsOnly_pure (a : α) : FailsOnly P (pure a : EStateM ε σ α) := by
  intro s e s' h
  nomatch h

/-- Reading the state never fails. -/
theorem failsOnly_get : FailsOnly P (get : EStateM ε σ σ) := by
  intro s e s' h
  nomatch h

/-- A pure computation fails with its own errors. -/
theorem failsOnly_lift {x : Except ε α} (hx : ∀ e, x = .error e → P e) :
    FailsOnly P (lift x : EStateM ε σ α) := by
  intro s e s' h
  cases x with
  | ok a => nomatch h
  | error e' =>
    cases h
    exact hx e rfl

/-- Throwing fails with what is thrown. -/
theorem failsOnly_throw {e : ε} (h : P e) : FailsOnly P (throw e : EStateM ε σ α) := by
  intro s e' s' heq
  cases heq
  exact h

/-- Writing the state never fails. -/
theorem failsOnly_modify {g : σ → σ} : FailsOnly P (modify g : EStateM ε σ PUnit) := by
  intro s e s' h
  nomatch h

/-- The bound on the errors may be widened. -/
theorem FailsOnly.mono {Q : ε → Prop} {x : EStateM ε σ α} (h : FailsOnly P x)
    (hPQ : ∀ e, P e → Q e) : FailsOnly Q x :=
  fun s e s' herror => hPQ e (h s e s' herror)

/-- Running on a part of the state adds no error. -/
theorem failsOnly_zoom {part : σ → τ} {put : τ → σ → σ} {x : EStateM ε τ α}
    (hx : FailsOnly P x) : FailsOnly P (zoom part put x) := by
  intro s e s' h
  rw [zoom] at h
  cases hxs : x (part s) with
  | ok a t =>
    rw [hxs] at h
    nomatch h
  | error e' t =>
    rw [hxs] at h
    cases h
    exact hx _ _ _ hxs

/-- The rule for sequences: the bound holds of both calls, the second at every result of the
    first. -/
theorem failsOnly_bind {x : EStateM ε σ α} {f : α → EStateM ε σ β} (hx : FailsOnly P x)
    (hf : ∀ a, FailsOnly P (f a)) : FailsOnly P (x >>= f) := by
  intro s e s' h
  cases hxs : x s with
  | ok a t => exact hf a t e s' ((bind_ok hxs).symm.trans h)
  | error e' t =>
    cases (bind_error hxs).symm.trans h
    exact hx _ _ _ hxs

/-! ## The state behind an error -/

/-- If the call fails with `e`, the state it leaves is one of `S`. -/
def FailsIn (e : ε) (S : σ → Prop) (x : EStateM ε σ α) : Prop := ∀ s s', x s = .error e s' → S s'

section
variable {e : ε} {S : σ → Prop}

/-- An error that is never raised is raised in any set of states. -/
theorem failsIn_of_never {x : EStateM ε σ α} (h : FailsOnly (· ≠ e) x) : FailsIn e S x := by
  intro s s' herror
  exact absurd rfl (h s e s' herror)

/-- The rule for sequences, read as: wherever the error is raised, the state is in `S`. -/
theorem failsIn_bind {x : EStateM ε σ α} {f : α → EStateM ε σ β} (hx : FailsIn e S x)
    (hf : ∀ a, FailsIn e S (f a)) : FailsIn e S (x >>= f) := by
  intro s s' h
  cases hxs : x s with
  | ok a t => exact hf a t s' ((bind_ok hxs).symm.trans h)
  | error e' t =>
    cases (bind_error hxs).symm.trans h
    exact hx s s' hxs

/-- What follows a computation may rely on its result. -/
theorem failsIn_lift_bind {x : Except ε α} {f : α → EStateM ε σ β} (hx : x ≠ .error e)
    (hf : ∀ a, x = .ok a → FailsIn e S (f a)) : FailsIn e S (lift x >>= f) := by
  cases x with
  | ok a => exact hf a rfl
  | error e' =>
    intro s s' h
    cases h
    exact absurd rfl hx

/-- A handler that lets `e` through leaves the state as it finds it. -/
theorem failsIn_tryCatch {x : EStateM ε σ α} {f : ε → EStateM ε σ α} (hx : FailsIn e S x)
    (he : f e = throw e) (hf : ∀ e', e' ≠ e → FailsIn e S (f e')) :
    FailsIn e S (tryCatch x f) := by
  intro s s' h
  cases hxs : x s with
  | ok a t => nomatch (tryCatch_ok hxs).symm.trans h
  | error e' t =>
    rw [tryCatch_error hxs] at h
    by_cases heq : e' = e
    · subst heq
      rw [he] at h
      cases h
      exact hx s s' hxs
    · exact hf e' heq t s' h

end

/-! ## Invariants -/

/-- The call has returned in a state of `I`, or failed with an `e` in one of `J e`. -/
def EndsIn (I : σ → Prop) (J : ε → σ → Prop) : EStateM.Result ε σ α → Prop
  | .ok _ s => I s
  | .error e s => J e s

/-- From a state of `I` it does. -/
def Within (I : σ → Prop) (J : ε → σ → Prop) (x : EStateM ε σ α) : Prop :=
  ∀ s, I s → EndsIn I J (x s)

section
variable {I : σ → Prop} {J : ε → σ → Prop}

/-- Returning keeps the invariant. -/
theorem within_pure (a : α) : Within I J (pure a : EStateM ε σ α) := fun _ hs => hs

/-- Reading the state keeps the invariant. -/
theorem within_get : Within I J (get : EStateM ε σ σ) := fun _ hs => hs

/-- A write keeps the invariant when its function does. -/
theorem within_modify {f : σ → σ} (h : ∀ s, I s → I (f s)) :
    Within I J (modify f : EStateM ε σ PUnit) := h

/-- A throw leaves the invariant for the postcondition of its error. -/
theorem within_throw {e : ε} (h : ∀ s, I s → J e s) : Within I J (throw e : EStateM ε σ α) := h

/-- The rule for sequences: the invariant in between is the one at both ends. -/
theorem within_bind {x : EStateM ε σ α} {f : α → EStateM ε σ β} (hx : Within I J x)
    (hf : ∀ a, Within I J (f a)) : Within I J (x >>= f) := by
  intro s hs
  have hfirst := hx s hs
  cases hxs : x s with
  | ok a s' =>
    rw [hxs] at hfirst
    rw [bind_ok hxs]
    exact hf a s' hfirst
  | error e s' =>
    rw [hxs] at hfirst
    rw [bind_error hxs]
    exact hfirst

/-- What follows a computation may rely on its result. -/
theorem within_lift_bind {x : Except ε α} {f : α → EStateM ε σ β}
    (hx : ∀ e, x = .error e → ∀ s, I s → J e s) (hf : ∀ a, x = .ok a → Within I J (f a)) :
    Within I J (lift x >>= f) := by
  cases x with
  | ok a => exact hf a rfl
  | error e => exact within_throw (hx e rfl)

/-- A handler starts where the invariant holds, or it lets the error through. -/
theorem within_tryCatch {x : EStateM ε σ α} {f : ε → EStateM ε σ α} (hx : Within I J x)
    (hf : ∀ e, (∀ s, J e s → I s) ∧ Within I J (f e) ∨ f e = throw e) :
    Within I J (tryCatch x f) := by
  intro s hs
  have hfirst := hx s hs
  cases hxs : x s with
  | ok a s' =>
    rw [hxs] at hfirst
    rw [tryCatch_ok hxs]
    exact hfirst
  | error e s' =>
    rw [hxs] at hfirst
    rw [tryCatch_error hxs]
    rcases hf e with ⟨hstart, hhandler⟩ | hthrow
    · exact hhandler s' (hstart s' hfirst)
    · rw [hthrow]
      exact hfirst

end

/-! ## What a call does not change -/

/-- However the call ends, `view` sees the same. -/
def Keeps (view : σ → τ) (x : EStateM ε σ α) : Prop := ∀ s, view (after (x s)) = view s

section
variable {view : σ → τ}

/-- Returning keeps every view. -/
theorem keeps_pure (a : α) : Keeps view (pure a : EStateM ε σ α) := fun _ => rfl

/-- Reading the state keeps every view. -/
theorem keeps_get : Keeps view (get : EStateM ε σ σ) := fun _ => rfl

/-- A pure computation keeps every view. -/
theorem keeps_lift (x : Except ε α) : Keeps view (lift x : EStateM ε σ α) := by
  intro s
  rw [after_lift]

/-- The rule for sequences: a view that both calls keep is kept, also by a failure in between. -/
theorem keeps_bind {x : EStateM ε σ α} {f : α → EStateM ε σ β} (hx : Keeps view x)
    (hf : ∀ a, Keeps view (f a)) : Keeps view (x >>= f) := by
  intro s
  have hfirst := hx s
  rw [after_bind]
  cases hxs : x s with
  | ok a s' =>
    rw [hxs] at hfirst
    exact (hf a s').trans hfirst
  | error e s' =>
    rw [hxs] at hfirst
    exact hfirst

/-- What follows a computation may rely on its result. -/
theorem keeps_lift_bind {x : Except ε α} {f : α → EStateM ε σ β}
    (hf : ∀ a, x = .ok a → Keeps view (f a)) : Keeps view (lift x >>= f) := by
  cases x with
  | ok a => exact hf a rfl
  | error e => exact fun _ => rfl

/-- A throw keeps every view. -/
theorem keeps_throw (e : ε) : Keeps view (throw e : EStateM ε σ α) := fun _ => rfl

/-- A write keeps a view when its function does: the frame condition of one assignment. -/
theorem keeps_modify {f : σ → σ} (h : ∀ s, view (f s) = view s) :
    Keeps view (modify f : EStateM ε σ PUnit) := h

/-- A caught failure keeps a view when body and handler do. -/
theorem keeps_tryCatch {x : EStateM ε σ α} {f : ε → EStateM ε σ α} (hx : Keeps view x)
    (hf : ∀ e, Keeps view (f e)) : Keeps view (tryCatch x f) := by
  intro s
  have hfirst := hx s
  cases hxs : x s with
  | ok a s' =>
    rw [tryCatch_ok hxs]
    rw [hxs] at hfirst
    exact hfirst
  | error e s' =>
    rw [tryCatch_error hxs]
    rw [hxs] at hfirst
    exact (hf e s').trans hfirst

/-- A call on a part leaves the other parts alone. -/
theorem keeps_zoom {ρ : Type} {part : σ → ρ} {put : ρ → σ → σ} (hput : ∀ r s, view (put r s) = view s)
    (x : EStateM ε ρ α) : Keeps view (zoom part put x) := by
  intro s
  rw [zoom]
  cases x (part s) with
  | ok a r => exact hput r s
  | error e r => exact hput r s

end

/-! ## Refinement -/

open Relation (ReflTransGen)

/-- Seen through `view`, the call is a run of the abstract system. -/
def Refines (Step : τ → τ → Prop) (view : σ → τ) (x : EStateM ε σ α) : Prop :=
  ∀ s, ReflTransGen Step (view s) (view (after (x s)))

variable {Step : τ → τ → Prop} {view : σ → τ}

/-- A call that does not change the view takes no step. -/
theorem refines_of_view_eq {x : EStateM ε σ α} (h : ∀ s, view (after (x s)) = view s) :
    Refines Step view x := by
  intro s
  rw [h s]

/-- Returning takes no step. -/
theorem refines_pure (a : α) : Refines Step view (pure a : EStateM ε σ α) :=
  refines_of_view_eq fun _ => rfl

/-- A throw takes no step. -/
theorem refines_throw (e : ε) : Refines Step view (throw e : EStateM ε σ α) :=
  refines_of_view_eq fun _ => rfl

/-- A pure computation takes no step. -/
theorem refines_lift (x : Except ε α) : Refines Step view (lift x : EStateM ε σ α) :=
  refines_of_view_eq fun s => by rw [after_lift]

/-- A write refines the steps between the two views. -/
theorem refines_modify {f : σ → σ} (h : ∀ s, ReflTransGen Step (view s) (view (f s))) :
    Refines Step view (modify f : EStateM ε σ PUnit) := h

/-- The rule for sequences: steps of both calls, one behind the other. -/
theorem refines_bind {x : EStateM ε σ α} {f : α → EStateM ε σ β} (hx : Refines Step view x)
    (hf : ∀ a, Refines Step view (f a)) : Refines Step view (x >>= f) := by
  intro s
  have hfirst := hx s
  rw [after_bind]
  cases hxs : x s with
  | ok a s' =>
    rw [hxs] at hfirst
    exact hfirst.trans (hf a s')
  | error e s' =>
    rw [hxs] at hfirst
    exact hfirst

/-- What follows a computation may rely on its result. -/
theorem refines_lift_bind {x : Except ε α} {f : α → EStateM ε σ β}
    (hf : ∀ a, x = .ok a → Refines Step view (f a)) : Refines Step view (lift x >>= f) := by
  cases x with
  | ok a => exact hf a rfl
  | error e => exact refines_of_view_eq fun _ => rfl

/-- What the code does may depend on the state it finds. -/
theorem refines_get_bind {f : σ → EStateM ε σ β}
    (hf : ∀ s, ReflTransGen Step (view s) (view (after (f s s)))) :
    Refines Step view (get >>= f) := hf

/-- The rule for a handler: it goes on from the view where the failure happened. -/
theorem refines_tryCatch {x : EStateM ε σ α} {f : ε → EStateM ε σ α} (hx : Refines Step view x)
    (hf : ∀ e, Refines Step view (f e)) : Refines Step view (tryCatch x f) := by
  intro s
  have hfirst := hx s
  cases hxs : x s with
  | ok a s' =>
    rw [tryCatch_ok hxs]
    rw [hxs] at hfirst
    exact hfirst
  | error e s' =>
    rw [tryCatch_error hxs]
    rw [hxs] at hfirst
    exact hfirst.trans (hf e s')

end Calls
