import Mathlib.Data.List.Basic
import TwinScreen.Step

/-!
# What steps do

A step that succeeds is opened into the steps it is made of. `Step.after` is the state that a step
leaves, by success or by failure, and `Step.Preserves` says that this state keeps a property.
`Step.CommutesWith` says that a step does the same on a state and on its image under a function.
Both hold of a step if they hold of its parts (`Step.Compositional`).
-/
namespace TwinScreen.Step

variable {σ τ α β : Type}

/-! ## Outcomes of steps -/

/-- Two steps in a row succeed if the first one does and the second one does on what it leaves. -/
theorem bind_eq_ok (step : Step σ α) (next : α → Step σ β) (s s' : σ) (b : β) :
    (step >>= next).run s = .ok b s' ↔ ∃ a t, step.run s = .ok a t ∧ (next a).run t = .ok b s' := by
  rw [EStateM.run_bind]
  cases step.run s <;> simp

theorem run_bind_of_ok {step : Step σ α} {s t : σ} {a : α} (h : step.run s = .ok a t)
    (next : α → Step σ β) : (step >>= next).run s = (next a).run t := by
  rw [EStateM.run_bind, h]

theorem run_bind_of_error {step : Step σ α} {s t : σ} {e : Fault} (h : step.run s = .error e t)
    (next : α → Step σ β) : (step >>= next).run s = .error e t := by
  rw [EStateM.run_bind, h]

theorem run_get_bind (next : σ → Step σ α) (s : σ) : (get >>= next).run s = (next s).run s := rfl

@[simp] theorem run_lift_ok (a : α) (s : σ) :
    (liftM (.ok a : Except Fault α) : Step σ α).run s = .ok a s := rfl

@[simp] theorem run_lift_error (e : Fault) (s : σ) :
    (liftM (.error e : Except Fault α) : Step σ α).run s = .error e s := rfl

theorem lift_eq_ok (x : Except Fault α) (s s' : σ) (a : α) :
    (liftM x : Step σ α).run s = .ok a s' ↔ x = .ok a ∧ s = s' := by
  cases x <;> simp

/-- A step behind a check has succeeded only where the check lets it pass. -/
theorem check_eq_ok (refused : Prop) [Decidable refused] (e : Fault) (next : Unit → Step σ α)
    (s s' : σ) (a : α) :
    (if refused then throw e >>= next else next ()).run s = .ok a s' ↔
      ¬ refused ∧ (next ()).run s = .ok a s' := by
  split
  · rename_i h
    simp [h]
  · rename_i h
    simp [h]

theorem run_within (part : σ → τ) (replace : σ → τ → σ) (step : Step τ α) (s : σ) :
    (step.within part replace).run s =
      match step.run (part s) with
      | .ok a t => .ok a (replace s t)
      | .error e t => .error e (replace s t) := rfl

theorem within_eq_ok (part : σ → τ) (replace : σ → τ → σ) (step : Step τ α) (s s' : σ) (a : α) :
    (step.within part replace).run s = .ok a s' ↔
      ∃ t, step.run (part s) = .ok a t ∧ replace s t = s' := by
  rw [run_within]
  cases step.run (part s) <;> simp

/-- The result of a step comes with the state that it leaves. -/
theorem result_eq_ok (step : Step σ α) (s s' : σ) (a : α) :
    step.result s = .ok (a, s') ↔ step.run s = .ok a s' := by
  rw [result, ← show step.run s = step s from rfl]
  cases step.run s <;> simp

theorem result_of_error {step : Step σ α} {s s' : σ} {e : Fault} (h : step.run s = .error e s') :
    step.result s = .error e := by
  rw [result, ← show step.run s = step s from rfl, h]

/-! ## Loops -/

theorem run_forM_zero (step : Nat → Step σ Unit) (s : σ) :
    ((List.range 0).forM step).run s = .ok () s := rfl

theorem run_forM_succ (step : Nat → Step σ Unit) (n : Nat) (s : σ) :
    ((List.range (n + 1)).forM step).run s =
      ((List.range n).forM step >>= fun _ => step n).run s := by
  simp [List.range_succ]

/-- What every round of a loop carries on holds at its end. -/
theorem forM_ok {step : Nat → Step σ Unit} {n : Nat} {s s' : σ} (P : Nat → σ → Prop)
    (hround : ∀ k < n, ∀ t t', P k t → (step k).run t = .ok () t' → P (k + 1) t')
    (hstart : P 0 s) (h : ((List.range n).forM step).run s = .ok () s') : P n s' := by
  induction n generalizing s' with
  | zero =>
    rw [run_forM_zero] at h
    obtain ⟨_, rfl⟩ := EStateM.Result.ok.inj h
    exact hstart
  | succ n ih =>
    rw [run_forM_succ, bind_eq_ok] at h
    obtain ⟨_, t, hbefore, hlast⟩ := h
    have ht := ih (fun k hk => hround k (by omega)) hbefore
    exact hround n (by omega) t s' ht hlast

/-- A loop ends if every round succeeds and carries on what the next one needs. -/
theorem exists_forM {step : Nat → Step σ Unit} {n : Nat} {s : σ} (P : Nat → σ → Prop)
    (hround : ∀ k < n, ∀ t, P k t → ∃ t', (step k).run t = .ok () t' ∧ P (k + 1) t')
    (hstart : P 0 s) : ∃ s', ((List.range n).forM step).run s = .ok () s' ∧ P n s' := by
  induction n with
  | zero => exact ⟨s, run_forM_zero step s, hstart⟩
  | succ n ih =>
    obtain ⟨t, hbefore, ht⟩ := ih (fun k hk => hround k (by omega))
    obtain ⟨s', hlast, hs'⟩ := hround n (by omega) t ht
    exact ⟨s', by rw [run_forM_succ, run_bind_of_ok hbefore, hlast], hs'⟩

/-- A loop over a list ends if its body succeeds on each element and keeps what it needs. -/
theorem exists_forM_of_mem {step : β → Step σ Unit} {l : List β} {s : σ} (P : σ → Prop)
    (hround : ∀ b ∈ l, ∀ t, P t → ∃ t', (step b).run t = .ok () t' ∧ P t') (hstart : P s) :
    ∃ s', (l.forM step).run s = .ok () s' ∧ P s' := by
  induction l generalizing s with
  | nil => exact ⟨s, rfl, hstart⟩
  | cons b more ih =>
    obtain ⟨t, hfirst, ht⟩ := hround b (by simp) s hstart
    obtain ⟨s', hmore, hs'⟩ := ih (fun b' hb' => hround b' (by simp [hb'])) ht
    exact ⟨s', (run_bind_of_ok hfirst _).trans hmore, hs'⟩

/-! ## Properties of steps -/

/-- A property that a step has if its parts have it. -/
structure Compositional (K : {α : Type} → Step σ α → Prop) : Prop where
  pure : ∀ {α : Type} (a : α), K (pure a : Step σ α)
  lift : ∀ {α : Type} (x : Except Fault α), K (liftM x : Step σ α)
  bind : ∀ {α β : Type} {step : Step σ α} {next : α → Step σ β},
    K step → (∀ a, K (next a)) → K (step >>= next)

namespace Compositional

variable {K : {α : Type} → Step σ α → Prop}

/-- Only results that a computation can have are passed on. -/
theorem lift_bind (hK : Compositional @K) {x : Except Fault α} {next : α → Step σ β}
    (hnext : ∀ a, x = .ok a → K (next a)) : K (liftM x >>= next) := by
  cases x with
  | error e => exact hK.lift (.error e)
  | ok a => exact hnext a rfl

theorem forM (hK : Compositional @K) (l : List β) {step : β → Step σ Unit}
    (hstep : ∀ b, K (step b)) : K (l.forM step) := by
  induction l with
  | nil => exact hK.pure ()
  | cons b more ih => exact hK.bind (hstep b) fun _ => ih

end Compositional

/-! ## What is left -/

/-- The state that a step leaves, by success or by failure. -/
def after (step : Step σ α) (s : σ) : σ :=
  match step.run s with
  | .ok _ s' => s'
  | .error _ s' => s'

theorem after_of_ok {step : Step σ α} {s s' : σ} {a : α} (h : step.run s = .ok a s') :
    step.after s = s' := by
  rw [after, h]

theorem after_of_error {step : Step σ α} {s s' : σ} {e : Fault} (h : step.run s = .error e s') :
    step.after s = s' := by
  rw [after, h]

theorem after_bind_of_ok {step : Step σ α} {s t : σ} {a : α} (h : step.run s = .ok a t)
    (next : α → Step σ β) : (step >>= next).after s = (next a).after t := by
  unfold after
  rw [run_bind_of_ok h]

theorem after_bind_of_error {step : Step σ α} {s t : σ} {e : Fault}
    (h : step.run s = .error e t) (next : α → Step σ β) : (step >>= next).after s = t := by
  unfold after
  rw [run_bind_of_error h]

theorem after_bind_pure (step : Step σ α) (result : α → β) (s : σ) :
    (step >>= fun a => pure (result a)).after s = step.after s := by
  unfold after
  rw [EStateM.run_bind]
  cases step.run s <;> rfl

/-- A step on a part of the state leaves the other parts. -/
theorem after_within (part : σ → τ) (replace : σ → τ → σ) (step : Step τ α) (s : σ) :
    (step.within part replace).after s = replace s (step.after (part s)) := by
  unfold after
  rw [run_within]
  cases step.run (part s) <;> rfl

/-- Whatever becomes of the step, the property holds afterwards if it held before. -/
def Preserves (P : σ → Prop) (step : Step σ α) : Prop := ∀ s, P s → P (step.after s)

namespace Preserves

variable {P : σ → Prop}

theorem ite (c : Prop) [Decidable c] {yes no : Step σ α} (hyes : Preserves P yes)
    (hno : Preserves P no) : Preserves P (if c then yes else no) := by
  split <;> assumption

theorem check (refused : Prop) [Decidable refused] (e : Fault) {next : Unit → Step σ α}
    (hnext : Preserves P (next ())) :
    Preserves P (if refused then throw e >>= next else next ()) := by
  refine .ite refused ?_ hnext
  exact fun _ h => h

theorem pure (a : α) : Preserves P (pure a : Step σ α) := fun _ h => h

theorem get : Preserves P (get : Step σ σ) := fun _ h => h

theorem lift (x : Except Fault α) : Preserves P (liftM x : Step σ α) := by
  intro s h
  cases x <;> exact h

theorem bind {step : Step σ α} {next : α → Step σ β} (hstep : Preserves P step)
    (hnext : ∀ a, Preserves P (next a)) : Preserves P (step >>= next) := by
  intro s h
  have hafter := hstep s h
  unfold after at hafter ⊢
  rw [EStateM.run_bind]
  cases hrun : step.run s with
  | ok a t =>
    rw [hrun] at hafter
    exact hnext a t hafter
  | error e t => simpa [hrun] using hafter

theorem compositional (P : σ → Prop) :
    Compositional fun {α} (step : Step σ α) => Preserves P step :=
  ⟨.pure, .lift, .bind⟩

theorem forM (l : List β) {step : β → Step σ Unit} (hstep : ∀ b, Preserves P (step b)) :
    Preserves P (l.forM step) :=
  (compositional P).forM l hstep

theorem within {part : τ → σ} {replace : τ → σ → τ} {Q : τ → Prop} {step : Step σ α}
    (hpart : ∀ t, Q t → P (part t)) (hreplace : ∀ t s, Q t → P s → Q (replace t s))
    (hstep : Preserves P step) : Preserves Q (step.within part replace) := by
  intro t h
  rw [after_within]
  exact hreplace t _ h (hstep _ (hpart t h))

end Preserves

/-! ## Two runs -/

/-- The outcome with another state in place of the one that is left. -/
def onState (f : σ → σ) : EStateM.Result Fault σ α → EStateM.Result Fault σ α
  | .ok a s => .ok a (f s)
  | .error e s => .error e (f s)

/-- On the image of a state with the property the step does what it does on the state: it has the
same result or the same fault and leaves the image of what it leaves there, with the property
again. -/
def CommutesWith (f : σ → σ) (P : σ → Prop) (step : Step σ α) : Prop :=
  ∀ s, P s → P (step.after s) ∧ step.run (f s) = onState f (step.run s)

namespace CommutesWith

variable {f : σ → σ} {P : σ → Prop}

theorem pure (a : α) : CommutesWith f P (pure a : Step σ α) := fun _ h => ⟨h, rfl⟩

theorem lift (x : Except Fault α) : CommutesWith f P (liftM x : Step σ α) := by
  intro s h
  cases x <;> exact ⟨h, rfl⟩

theorem bind {step : Step σ α} {next : α → Step σ β} (hstep : CommutesWith f P step)
    (hnext : ∀ a, CommutesWith f P (next a)) : CommutesWith f P (step >>= next) := by
  intro s h
  obtain ⟨hafter, hrun⟩ := hstep s h
  cases hfirst : step.run s with
  | ok a t =>
    rw [after_of_ok hfirst] at hafter
    rw [hfirst] at hrun
    rw [after_bind_of_ok hfirst, run_bind_of_ok hfirst, run_bind_of_ok hrun]
    exact hnext a t hafter
  | error e t =>
    rw [after_of_error hfirst] at hafter
    rw [hfirst] at hrun
    rw [after_bind_of_error hfirst, run_bind_of_error hfirst, run_bind_of_error hrun]
    exact ⟨hafter, rfl⟩

theorem compositional (f : σ → σ) (P : σ → Prop) :
    Compositional fun {α} (step : Step σ α) => CommutesWith f P step :=
  ⟨.pure, .lift, .bind⟩

end CommutesWith

end TwinScreen.Step
