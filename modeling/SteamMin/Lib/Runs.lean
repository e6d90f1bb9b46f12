/-
  RUNS OF A DETERMINISTIC SYSTEM.

  A system is a function `step : σ → α → Option σ`: the act `a` leads from `s` to `s'` when
  `step s a = some s'`, and is not possible in `s` when `step s a = none`.  Whatever the
  environment chooses is part of the act, so a list of acts is a run.

  * `EveryState P s as` — the run passes only through states with `P`;
  * `EveryStep C s as`  — each of its steps, from `s₁` by `a` to `s₂`, satisfies `C s₁ a s₂`.

  `everyState_of_steps` is the invariant rule, with a side condition on the steps;
  `everyState_iff_everyStep` is for invariants that a step keeps exactly when the side condition
  holds.  `exists_rest`: where no run of certain acts is longer than a bound, one of them comes to
  rest.

  A recursion that need not be deterministic is a relation; `acc_of_decreasing` is for one that only
  goes down as far as it can be reached.
-/
import Mathlib.Logic.Relation

namespace Runs

variable {σ α : Type} {step : σ → α → Option σ} {P Q : σ → Prop} {C D : σ → α → σ → Prop}

variable (step) in
/-- The state a run ends in, if all its acts are possible. -/
def run : σ → List α → Option σ
  | s, [] => some s
  | s, a :: as => (step s a).bind fun s' => run s' as

variable (step) in
/-- `P` holds of every state the run reaches. -/
def EveryState (P : σ → Prop) (s : σ) (as : List α) : Prop :=
  ∀ l₁ l₂ s₁, as = l₁ ++ l₂ → run step s l₁ = some s₁ → P s₁

variable (step) in
/-- `C` holds of every step the run takes. -/
def EveryStep (C : σ → α → σ → Prop) (s : σ) (as : List α) : Prop :=
  ∀ l₁ a l₂ s₁ s₂, as = l₁ ++ a :: l₂ → run step s l₁ = some s₁ → step s₁ a = some s₂ → C s₁ a s₂

/-- A run whose first step is taken goes on behind it. -/
theorem run_cons_of_step {s s' : σ} {a : α} (h : step s a = some s') (as : List α) :
    run step s (a :: as) = run step s' as := by
  rw [run, h]
  rfl

/-- The inversion of a run that reached its end. -/
theorem run_cons_eq_some {s s'' : σ} {a : α} {as : List α}
    (h : run step s (a :: as) = some s'') :
    ∃ s', step s a = some s' ∧ run step s' as = some s'' := by
  rw [run] at h
  exact Option.bind_eq_some_iff.mp h

/-- A run in two stretches. -/
theorem run_append (s : σ) (as bs : List α) :
    run step s (as ++ bs) = (run step s as).bind fun s' => run step s' bs := by
  induction as generalizing s with
  | nil => rfl
  | cons a as ih =>
    rw [List.cons_append, run, run]
    cases step s a with
    | none => rfl
    | some s' => exact ih s'

/-- Two runs, one behind the other. -/
theorem run_append_of {s s' s'' : σ} {as bs : List α} (h₁ : run step s as = some s')
    (h₂ : run step s' bs = some s'') : run step s (as ++ bs) = some s'' := by
  rw [run_append, h₁]
  exact h₂

/-! ## The states and the steps of a run -/

/-- The empty run reaches its start only. -/
theorem everyState_nil {s : σ} : EveryState step P s [] ↔ P s := by
  constructor
  · intro h
    exact h [] [] s rfl rfl
  · intro h l₁ l₂ s₁ heq hrun
    obtain ⟨rfl, -⟩ := List.append_eq_nil_iff.mp heq.symm
    cases hrun
    exact h

/-- The states of a run are its start and those behind its first step. -/
theorem everyState_cons {s : σ} {a : α} {as : List α} :
    EveryState step P s (a :: as)
      ↔ P s ∧ ∀ s', step s a = some s' → EveryState step P s' as := by
  constructor
  · intro h
    refine ⟨h [] (a :: as) s rfl rfl, fun s' hs l₁ l₂ s₁ heq hrun => ?_⟩
    exact h (a :: l₁) l₂ s₁ (by rw [heq]; rfl) ((run_cons_of_step hs l₁).trans hrun)
  · rintro ⟨hP, h⟩ l₁ l₂ s₁ heq hrun
    cases l₁ with
    | nil =>
      cases hrun
      exact hP
    | cons b l₁ =>
      obtain ⟨rfl, rfl⟩ := List.cons.inj heq
      obtain ⟨s', hs, hrun⟩ := run_cons_eq_some hrun
      exact h s' hs l₁ l₂ s₁ rfl hrun

/-- The same, with the first step at hand. -/
theorem everyState_cons_of_some {s s' : σ} {a : α} {as : List α} (hs : step s a = some s') :
    EveryState step P s (a :: as) ↔ P s ∧ EveryState step P s' as := by
  rw [everyState_cons, hs]
  simp only [Option.some.injEq, forall_eq']

/-- A run that cannot take its first step reaches its start only. -/
theorem everyState_cons_of_none {s : σ} {a : α} {as : List α} (hs : step s a = none) :
    EveryState step P s (a :: as) ↔ P s := by
  rw [everyState_cons, hs]
  simp only [reduceCtorEq, false_implies, implies_true, and_true]

/-- The steps of a run are the first one and those behind it. -/
theorem everyStep_cons {s : σ} {a : α} {as : List α} :
    EveryStep step C s (a :: as)
      ↔ ∀ s', step s a = some s' → C s a s' ∧ EveryStep step C s' as := by
  constructor
  · intro h s' hs
    refine ⟨h [] a as s s' rfl rfl hs, fun l₁ b l₂ s₁ s₂ heq hrun hstep => ?_⟩
    exact h (a :: l₁) b l₂ s₁ s₂ (by rw [heq]; rfl) ((run_cons_of_step hs l₁).trans hrun) hstep
  · intro h l₁ b l₂ s₁ s₂ heq hrun hstep
    cases l₁ with
    | nil =>
      cases hrun
      obtain ⟨rfl, rfl⟩ := List.cons.inj heq
      exact (h s₂ hstep).1
    | cons c l₁ =>
      obtain ⟨rfl, rfl⟩ := List.cons.inj heq
      obtain ⟨s', hs, hrun⟩ := run_cons_eq_some hrun
      exact (h s' hs).2 l₁ b l₂ s₁ s₂ rfl hrun hstep

/-- The state a run ends in is one of its states. -/
theorem EveryState.last {s s' : σ} {as : List α} (h : EveryState step P s as)
    (hrun : run step s as = some s') : P s' :=
  h as [] s' (List.append_nil as).symm hrun

/-- Whether a given run keeps a decidable property is found by running it. -/
instance decidableEveryState [DecidablePred P] :
    ∀ (s : σ) (as : List α), Decidable (EveryState step P s as)
  | s, [] => decidable_of_iff (P s) everyState_nil.symm
  | s, a :: as =>
    match hs : step s a with
    | none => decidable_of_iff (P s) (everyState_cons_of_none hs).symm
    | some s' =>
      have := decidableEveryState s' as
      decidable_of_iff (P s ∧ EveryState step P s' as) (everyState_cons_of_some hs).symm

/-- Two properties that agree on the states of a run hold throughout together. -/
theorem EveryState.congr {s : σ} {as : List α}
    (h : EveryState step (fun s' => P s' ↔ Q s') s as) :
    EveryState step P s as ↔ EveryState step Q s as := by
  constructor
  · intro hP l₁ l₂ s₁ heq hrun
    exact (h l₁ l₂ s₁ heq hrun).mp (hP l₁ l₂ s₁ heq hrun)
  · intro hQ l₁ l₂ s₁ heq hrun
    exact (h l₁ l₂ s₁ heq hrun).mpr (hQ l₁ l₂ s₁ heq hrun)

/-- A condition on the steps may be weakened, at steps that are taken. -/
theorem EveryStep.mono {s : σ} {as : List α} (h : EveryStep step C s as)
    (hCD : ∀ s a s', step s a = some s' → C s a s' → D s a s') : EveryStep step D s as :=
  fun l₁ a l₂ s₁ s₂ heq hrun hstep => hCD s₁ a s₂ hstep (h l₁ a l₂ s₁ s₂ heq hrun hstep)

/-! ## Invariants -/

/-- **The invariant rule**: what the steps with `C` keep holds in every state of a run of such
    steps. -/
theorem everyState_of_steps (hkeep : ∀ s a s', P s → step s a = some s' → C s a s' → P s')
    {s : σ} {as : List α} (h₀ : P s) (hsteps : EveryStep step C s as) : EveryState step P s as := by
  induction as generalizing s with
  | nil => exact everyState_nil.mpr h₀
  | cons a as ih =>
    refine everyState_cons.mpr ⟨h₀, fun s' hs => ?_⟩
    obtain ⟨hC, hsteps⟩ := everyStep_cons.mp hsteps s' hs
    exact ih (hkeep s a s' h₀ hs hC) hsteps

/-- An invariant no step can break. -/
theorem everyState_of_invariant (hkeep : ∀ s a s', P s → step s a = some s' → P s') {s : σ}
    (h₀ : P s) (as : List α) : EveryState step P s as :=
  everyState_of_steps (C := fun _ _ _ => True) (fun s a s' hP hs _ => hkeep s a s' hP hs) h₀
    fun _ _ _ _ _ _ _ _ => trivial

/-- Where each step keeps `P` and satisfies `D` exactly under the condition `C`, a run does
    throughout exactly when all its steps meet `C`. -/
theorem everyState_and_everyStep_iff
    (hkeep : ∀ s a s', P s → step s a = some s' → (P s' ∧ D s a s' ↔ C s a s')) {s : σ}
    (h₀ : P s) (as : List α) :
    EveryState step P s as ∧ EveryStep step D s as ↔ EveryStep step C s as := by
  constructor
  · rintro ⟨hP, hD⟩ l₁ a l₂ s₁ s₂ heq hrun hstep
    have hnext : P s₂ :=
      hP (l₁ ++ [a]) l₂ s₂ (heq.trans (List.append_cons l₁ a l₂))
        (run_append_of hrun (run_cons_of_step hstep []))
    exact (hkeep s₁ a s₂ (hP l₁ (a :: l₂) s₁ heq hrun) hstep).mp
      ⟨hnext, hD l₁ a l₂ s₁ s₂ heq hrun hstep⟩
  · intro hC
    have hP : EveryState step P s as :=
      everyState_of_steps (fun s a s' hP hs hC => ((hkeep s a s' hP hs).mpr hC).1) h₀ hC
    refine ⟨hP, ?_⟩
    intro l₁ a l₂ s₁ s₂ heq hrun hstep
    have hhere : P s₁ := hP l₁ (a :: l₂) s₁ heq hrun
    exact ((hkeep s₁ a s₂ hhere hstep).mpr (hC l₁ a l₂ s₁ s₂ heq hrun hstep)).2

/-- The same with nothing asked of the steps but that they keep `P`. -/
theorem everyState_iff_everyStep
    (hkeep : ∀ s a s', P s → step s a = some s' → (P s' ↔ C s a s')) {s : σ} (h₀ : P s)
    (as : List α) : EveryState step P s as ↔ EveryStep step C s as := by
  have hboth := everyState_and_everyStep_iff (D := fun _ _ _ => True)
    (fun s a s' hP hs => (and_iff_left trivial).trans (hkeep s a s' hP hs)) h₀ as
  exact (and_iff_left fun _ _ _ _ _ _ _ _ => trivial).symm.trans hboth

/-! ## Coming to rest -/

/-- Where the runs of some acts are bounded, one of them ends where no such act is possible. -/
theorem exists_rest {W : α → Prop} {s : σ} {n : Nat}
    (hbound : ∀ as s', (∀ a ∈ as, W a) → run step s as = some s' → as.length ≤ n) :
    ∃ as s', (∀ a ∈ as, W a) ∧ run step s as = some s' ∧ ∀ a, W a → step s' a = none := by
  induction n generalizing s with
  | zero =>
    refine ⟨[], s, ?_, rfl, ?_⟩
    · intro a ha
      cases ha
    · intro a ha
      cases hs : step s a with
      | none => rfl
      | some s' =>
        have hlen := hbound [a] s' (by simpa using ha) (run_cons_of_step hs [])
        simp at hlen
  | succ n ih =>
    by_cases hrest : ∀ a, W a → step s a = none
    · refine ⟨[], s, ?_, rfl, hrest⟩
      intro a ha
      cases ha
    · obtain ⟨a, hrest⟩ := Classical.not_forall.mp hrest
      obtain ⟨ha, hstep⟩ := Classical.not_imp.mp hrest
      obtain ⟨s₁, hs⟩ := Option.ne_none_iff_exists'.mp hstep
      -- what is possible from there is one act shorter
      have hshort : ∀ as s', (∀ b ∈ as, W b) → run step s₁ as = some s' → as.length ≤ n := by
        intro as s' has hrun
        have hall : ∀ b ∈ a :: as, W b := by
          intro b hb
          rcases List.mem_cons.mp hb with rfl | hb
          · exact ha
          · exact has b hb
        have hlen := hbound (a :: as) s' hall ((run_cons_of_step hs as).trans hrun)
        rw [List.length_cons] at hlen
        omega
      obtain ⟨as, s', has, hrun, hend⟩ := ih hshort
      refine ⟨a :: as, s', ?_, (run_cons_of_step hs as).trans hrun, hend⟩
      intro b hb
      rcases List.mem_cons.mp hb with rfl | hb
      · exact ha
      · exact has b hb

/-! ## Recursion -/

/-- Where each step that can be reached makes something smaller, no run is infinite. -/
theorem acc_of_decreasing {r : σ → σ → Prop} (size : σ → Nat) {s : σ}
    (h : ∀ s₁ s₂, Relation.ReflTransGen r s s₁ → r s₁ s₂ → size s₂ < size s₁) :
    Acc (fun s₂ s₁ => r s₁ s₂) s := by
  induction hsize : size s using Nat.strongRecOn generalizing s with
  | ind n ih =>
    subst hsize
    constructor
    intro s' hs'
    refine ih (size s') (h s s' .refl hs') ?_ rfl
    intro s₁ s₂ hs₁
    exact h s₁ s₂ (.head hs' hs₁)

end Runs
