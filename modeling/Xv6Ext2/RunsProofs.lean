import Mathlib.Data.Fintype.EquivFin
import Xv6Ext2.OutcomeProofs

/-! # Runs of a step function — induction along a schedule

    A system is a step function on states, labelled by actions; a step either leads to a state or
    fails.  A run is the list of its actions.  `exec` takes the steps one after another, `AllSteps
    P` says that each step of the run is taken in a state and with an action that satisfy `P`.  An
    invariant that a step satisfying `P` keeps holds in every state that such a run reaches.

    A loop without input is the iteration of a function while `go` holds.  Over finitely
    many states it ends exactly if it does not come back to a state. -/

namespace Runs

open Outcome

variable {σ α ε : Type} (step : σ → α → Except ε σ)

def exec : List α → σ → Except ε σ
  | [], s => .ok s
  | a :: as, s => step s a >>= exec as

/-- Every step of the run satisfies `P` in the state in which it is taken. -/
def AllSteps (P : σ → α → Prop) : List α → σ → Prop
  | [], _ => True
  | a :: as, s => P s a ∧
      match step s a with
      | .ok s' => AllSteps P as s'
      | .error _ => True

instance AllSteps.decide (P : σ → α → Prop) [∀ s a, Decidable (P s a)] :
    ∀ (as : List α) (s : σ), Decidable (AllSteps step P as s)
  | [], _ => isTrue trivial
  | a :: as, s =>
    match h : step s a with
    | .ok s' =>
      have := AllSteps.decide P as s'
      decidable_of_iff (P s a ∧ AllSteps step P as s') (by rw [AllSteps, h])
    | .error _ => decidable_of_iff (P s a) (by rw [AllSteps, h]; simp)

variable {step}

lemma AllSteps.of_mem {P : σ → α → Prop} {as : List α} (h : ∀ a ∈ as, ∀ s, P s a) (s : σ) :
    AllSteps step P as s := by
  induction as generalizing s with
  | nil => trivial
  | cons a as ih =>
    refine ⟨h a List.mem_cons_self s, ?_⟩
    cases step s a with
    | ok s' => exact ih (fun b hb => h b (List.mem_cons_of_mem _ hb)) s'
    | error e => trivial

lemma AllSteps.of_forall {P : σ → α → Prop} (h : ∀ s a, P s a) (as : List α) (s : σ) :
    AllSteps step P as s := .of_mem (fun a _ s => h s a) s

lemma AllSteps.tail {P : σ → α → Prop} {a : α} {as : List α} {s s' : σ}
    (h : AllSteps step P (a :: as) s) (hs : step s a = .ok s') : AllSteps step P as s' := by
  have := h.2
  rwa [hs] at this

lemma AllSteps.cons {P : σ → α → Prop} {a : α} {as : List α} {s s' : σ} (h : P s a)
    (hs : step s a = .ok s') (has : AllSteps step P as s') : AllSteps step P (a :: as) s := by
  refine ⟨h, ?_⟩
  rwa [hs]

lemma exec_cons_ok {a : α} {as : List α} {s u : σ} (h : exec step (a :: as) s = .ok u) :
    ∃ s', step s a = .ok s' ∧ exec step as s' = .ok u := bind_eq_ok.mp h

/-- **The invariant rule.**  What every step of the run keeps holds at its end. -/
lemma exec_invariant {P : σ → α → Prop} {I : σ → Prop}
    (hstep : ∀ s a s', I s → P s a → step s a = .ok s' → I s') :
    ∀ (as : List α) (s u : σ), I s → AllSteps step P as s → exec step as s = .ok u → I u := by
  intro as
  induction as with
  | nil =>
    intro s u hs _ h
    obtain rfl : s = u := Except.ok.inj h
    exact hs
  | cons a as ih =>
    intro s u hs hP h
    obtain ⟨s', h1, h2⟩ := exec_cons_ok h
    exact ih s' u (hstep s a s' hs hP.1 h1) (hP.tail h1) h2

/-- **The rule for outcomes.**  Along the run the invariant holds, and a run that stops
    stops with an error of one of its steps. -/
lemma exec_sat {P : σ → α → Prop} {I : σ → Prop} {E : ε → Prop}
    (hstep : ∀ s a, I s → P s a → Sat (step s a) I E) :
    ∀ (as : List α) (s : σ), I s → AllSteps step P as s → Sat (exec step as s) I E := by
  intro as
  induction as with
  | nil => exact fun s hs _ => Sat.ok hs
  | cons a as ih =>
    intro s hs hP
    have h := hstep s a hs hP.1
    rw [exec]
    cases hr : step s a with
    | ok s' => exact ih s' (h.of_ok hr) (hP.tail hr)
    | error e => exact Sat.error (h.of_error hr)

/-- The invariant rule without a condition on the steps. -/
lemma exec_invariant_of_step {I : σ → Prop} (hstep : ∀ s a s', I s → step s a = .ok s' → I s')
    {as : List α} {s u : σ} (hs : I s) (h : exec step as s = .ok u) : I u := by
  exact exec_invariant (P := fun _ _ => True) (fun s a s' hI _ => hstep s a s' hI)
    as s u hs (.of_forall (fun _ _ => trivial) as s) h

/-! ## Loops -/

section Loops

variable (next : σ → σ) (go : σ → Prop)

/-- The loop from `s` reaches a state in which it stops. -/
def Ends (s : σ) : Prop := ∃ n, ¬go (next^[n] s)

/-- The loop from `s` comes back to a state. -/
def Returns (s : σ) : Prop :=
  ∃ m n, m < n ∧ next^[m] s = next^[n] s ∧ ∀ k < n, go (next^[k] s)

variable {next go}

lemma iterate_add_congr {s : σ} {m n : Nat} (h : next^[m] s = next^[n] s) (k : Nat) :
    next^[m + k] s = next^[n + k] s := by
  rw [Nat.add_comm m, Nat.add_comm n, Function.iterate_add_apply, Function.iterate_add_apply, h]

/-- A loop that comes back goes round for ever. -/
lemma Returns.not_ends {s : σ} (h : Returns next go s) : ¬Ends next go s := by
  obtain ⟨m, n, hlt, heq, hgo⟩ := h
  have hall : ∀ k, go (next^[k] s) := by
    intro k
    induction k using Nat.strong_induction_on with
    | _ k ih =>
      by_cases hk : k < n
      · exact hgo k hk
      -- one round earlier the loop was in the same state
      have hsame := iterate_add_congr heq (k - n)
      rw [show n + (k - n) = k by omega] at hsame
      rw [← hsame]
      exact ih _ (by omega)
  rintro ⟨k, hk⟩
  exact hk (hall k)

/-- **The rule for loops.**  Among finitely many states, a loop that does not end comes back. -/
lemma ends_iff_not_returns [Finite σ] (s : σ) : Ends next go s ↔ ¬Returns next go s := by
  refine ⟨fun he hr => hr.not_ends he, fun hr => ?_⟩
  by_contra hends
  have hgo : ∀ n, go (next^[n] s) := fun n => by_contra fun hn => hends ⟨n, hn⟩
  refine not_injective_infinite_finite (fun n : Nat => next^[n] s) (fun m n hmn => ?_)
  by_contra hne
  rcases Nat.lt_or_gt_of_ne hne with hlt | hlt
  · exact hr ⟨m, n, hlt, hmn, fun k _ => hgo k⟩
  · exact hr ⟨n, m, hlt, hmn.symm, fun k _ => hgo k⟩

end Loops

end Runs
