import Mathlib.Logic.Basic

/-! # Outcomes of fallible code — rules of pre- and postconditions

    A call of a fallible function ends in `.ok` with a result or in `.error`.
    `Sat x Q E` says what is known of the call `x` in both cases: every result
    satisfies `Q` and every error satisfies `E`.  The rules below compose such
    facts along the code; no rule mentions a particular state or error type.

    `Rel R x y` compares two calls: both return, with results related by `R`, or both
    end in the same error. -/

namespace Outcome

variable {ε α β : Type}

/-- Results satisfy `Q`, errors satisfy `E`. -/
def Sat (x : Except ε α) (Q : α → Prop) (E : ε → Prop) : Prop :=
  match x with
  | .ok a => Q a
  | .error e => E e

lemma Sat.ok {a : α} {Q : α → Prop} {E : ε → Prop} (h : Q a) : Sat (.ok a) Q E := h

lemma Sat.error {e : ε} {Q : α → Prop} {E : ε → Prop} (h : E e) : Sat (.error e) Q E := h

/-- Sequential composition: the second call starts from a result of the first. -/
lemma Sat.bind {x : Except ε α} {f : α → Except ε β} {Q : α → Prop} {R : β → Prop} {E : ε → Prop}
    (hx : Sat x Q E) (hf : ∀ a, Q a → Sat (f a) R E) : Sat (x >>= f) R E := by
  cases x with
  | ok a => exact hf a hx
  | error e => exact hx

lemma Sat.map {x : Except ε α} {f : α → β} {Q : β → Prop} {E : ε → Prop}
    (hx : Sat x (fun a => Q (f a)) E) : Sat (f <$> x) Q E := by
  cases x with
  | ok a => exact hx
  | error e => exact hx

lemma Sat.mono {x : Except ε α} {Q R : α → Prop} {E F : ε → Prop}
    (hx : Sat x Q E) (hQ : ∀ a, Q a → R a) (hE : ∀ e, E e → F e) : Sat x R F := by
  cases x with
  | ok a => exact hQ a hx
  | error e => exact hE e hx

/-- What is recorded of the rest of a run once the call `x` has returned; nothing when it
    does not return. -/
def after (x : Except ε α) (f : α → List β) : List β :=
  match x with
  | .ok a => f a
  | .error _ => []

lemma after_ok {x : Except ε α} {a : α} (h : x = .ok a) (f : α → List β) :
    after x f = f a := by rw [h, after]

lemma mem_after {x : Except ε α} {f : α → List β} {b : β} :
    b ∈ after x f ↔ ∃ a, x = .ok a ∧ b ∈ f a := by
  cases x with
  | ok a =>
    refine ⟨fun h => ⟨a, rfl, h⟩, ?_⟩
    rintro ⟨a', ha, h⟩
    obtain rfl := Except.ok.inj ha
    exact h
  | error e =>
    constructor
    · intro h
      cases h
    · rintro ⟨a, ha, -⟩
      cases ha

lemma Sat.and {x : Except ε α} {Q R : α → Prop} {E : ε → Prop} (hQ : Sat x Q E)
    (hR : Sat x R E) : Sat x (fun a => Q a ∧ R a) E := by
  cases x with
  | ok a => exact ⟨hQ, hR⟩
  | error e => exact hQ

lemma Sat.of_ok {x : Except ε α} {Q : α → Prop} {E : ε → Prop} {a : α}
    (hx : Sat x Q E) (h : x = .ok a) : Q a := by
  subst h
  exact hx

lemma Sat.of_error {x : Except ε α} {Q : α → Prop} {E : ε → Prop} {e : ε}
    (hx : Sat x Q E) (h : x = .error e) : E e := by
  subst h
  exact hx

/-- A call without errors returns. -/
lemma Sat.exists_ok {x : Except ε α} {Q : α → Prop}
    (hx : Sat x Q (fun _ => False)) : ∃ a, x = .ok a ∧ Q a := by
  cases x with
  | ok a => exact ⟨a, rfl, hx⟩
  | error e => exact hx.elim

lemma bind_eq_ok {x : Except ε α} {f : α → Except ε β} {b : β} :
    x >>= f = .ok b ↔ ∃ a, x = .ok a ∧ f a = .ok b := by
  cases x with
  | ok a =>
    constructor
    · intro h; exact ⟨a, rfl, h⟩
    · rintro ⟨a', ha, h⟩
      obtain rfl : a = a' := Except.ok.inj ha
      exact h
  | error e =>
    constructor
    · intro h; exact nomatch h
    · rintro ⟨a', ha, -⟩; exact nomatch ha

/-- A computation whose result was seen through `f` has one. -/
lemma exists_ok_of_map {x : Except ε α} {f : α → β} {b : β} (h : x.map f = .ok b) :
    ∃ a, x = .ok a ∧ f a = b := by
  cases x with
  | error e => exact nomatch h
  | ok a => exact ⟨a, rfl, Except.ok.inj h⟩

@[simp] lemma ok_bind (a : α) (f : α → Except ε β) : (Except.ok a >>= f) = f a := rfl

@[simp] lemma error_bind (e : ε) (f : α → Except ε β) :
    ((Except.error e : Except ε α) >>= f) = .error e := rfl

variable {γ δ : Type}

lemma ok_pair_inj {a a' : α} {b b' : β}
    (h : (.ok (a, b) : Except ε (α × β)) = .ok (a', b')) : a = a' ∧ b = b' :=
  Prod.mk.inj (Except.ok.inj h)

lemma ok_triple_inj {a a' : α} {b b' : β} {c c' : γ}
    (h : (.ok (a, b, c) : Except ε (α × β × γ)) = .ok (a', b', c')) : a = a' ∧ b = b' ∧ c = c' :=
  ⟨(ok_pair_inj h).1, Prod.mk.inj (ok_pair_inj h).2⟩

/-- Two continuations that do the same to related values. -/
lemma map_bind_map {x : Except ε α} {g : α → γ} {k : β → δ} {f : α → Except ε β}
    {f' : γ → Except ε δ} (h : ∀ a, f' (g a) = (f a).map k) :
    (x.map g >>= f') = (x >>= f).map k := by
  cases x with
  | error e => rfl
  | ok a => exact h a

/-- Two loops that do the same to related states. -/
lemma foldlM_map {g : α → γ} {f : α → β → Except ε α} {f' : γ → β → Except ε γ}
    (h : ∀ s i, f' (g s) i = (f s i).map g) (l : List β) (s : α) :
    l.foldlM f' (g s) = (l.foldlM f s).map g := by
  induction l generalizing s with
  | nil => rfl
  | cons i l ih =>
    rw [List.foldlM_cons, List.foldlM_cons, h]
    exact map_bind_map ih

/-- A counting loop returns if each of its turns does, and `P` goes from turn to turn. -/
lemma foldlM_range_ok {σ : Type} {f : σ → Nat → Except ε σ} {P : Nat → σ → Prop} {n : Nat} {s : σ}
    (hstep : ∀ i < n, ∀ s, P i s → ∃ s', f s i = .ok s' ∧ P (i + 1) s') (h0 : P 0 s) :
    ∃ s', (List.range n).foldlM f s = .ok s' ∧ P n s' := by
  induction n with
  | zero => exact ⟨s, rfl, h0⟩
  | succ n ih =>
    obtain ⟨s₁, hrun, h₁⟩ := ih (fun i hi => hstep i (Nat.lt_succ_of_lt hi))
    obtain ⟨s₂, hlast, h₂⟩ := hstep n (Nat.lt_succ_self n) s₁ h₁
    refine ⟨s₂, ?_, h₂⟩
    rw [List.range_succ, List.foldlM_append, hrun]
    show ([n].foldlM f s₁) = _
    rw [List.foldlM_cons, hlast]
    rfl

/-! ## Calls that pass a state -/

variable {σ : Type}

/-- What is known of the call `x` in state `s`: the result and the new state satisfy `Q`,
    or the error satisfies `E`. -/
def SatS (x : StateT σ (Except ε) α) (s : σ) (Q : α → σ → Prop) (E : ε → Prop) : Prop :=
  Sat (x s) (fun r => Q r.1 r.2) E

section SatS

variable {x y : StateT σ (Except ε) α} {f : α → StateT σ (Except ε) β} {s : σ}
  {Q Q' : α → σ → Prop} {R : β → σ → Prop} {E : ε → Prop}

lemma SatS.bind (hx : SatS x s Q E) (hf : ∀ a s', Q a s' → SatS (f a) s' R E) :
    SatS (x >>= f) s R E := Sat.bind hx (fun r hr => hf r.1 r.2 hr)

lemma SatS.mono (hx : SatS x s Q E) (h : ∀ a s', Q a s' → Q' a s') : SatS x s Q' E :=
  Sat.mono hx (fun r hr => h r.1 r.2 hr) (fun _ he => he)

lemma SatS.and (hQ : SatS x s Q E) (hQ' : SatS x s Q' E) :
    SatS x s (fun a s' => Q a s' ∧ Q' a s') E := Sat.and hQ hQ'

lemma SatS.ite {c : Prop} [Decidable c] (ht : c → SatS x s Q E) (hf : ¬c → SatS y s Q E) :
    SatS (if c then x else y) s Q E := by
  split
  · next hc =>
    exact ht hc
  · next hc =>
    exact hf hc

lemma SatS.of_ok (hx : SatS x s Q E) {a : α} {s' : σ} (h : x s = .ok (a, s')) : Q a s' := by
  rwa [SatS, h] at hx

end SatS

/-! ## Two calls side by side -/

/-- Related results, or the same error. -/
inductive Rel (R : α → β → Prop) : Except ε α → Except ε β → Prop
  | ok {a : α} {b : β} (h : R a b) : Rel R (.ok a) (.ok b)
  | error (e : ε) : Rel R (.error e) (.error e)

/-- Equal first components, and second components related by `R`. -/
def EqFst (R : α → β → Prop) : γ × α → γ × β → Prop
  | (c, a), (d, b) => c = d ∧ R a b

lemma Rel.bind {R : α → β → Prop} {S : γ → δ → Prop} {x : Except ε α} {y : Except ε β}
    {f : α → Except ε γ} {g : β → Except ε δ} (h : Rel R x y)
    (hfg : ∀ a b, R a b → Rel S (f a) (g b)) : Rel S (x >>= f) (y >>= g) := by
  cases h with
  | ok hab => exact hfg _ _ hab
  | error e => exact .error e

lemma Rel.mono {R S : α → β → Prop} {x : Except ε α} {y : Except ε β} (h : Rel R x y)
    (hRS : ∀ a b, R a b → S a b) : Rel S x y := by
  cases h with
  | ok hab => exact .ok (hRS _ _ hab)
  | error e => exact .error e

/-- Two calls that are related, followed by code that does the same. -/
lemma Rel.bind_eq {R : α → β → Prop} {x : Except ε α} {y : Except ε β} {f : α → Except ε γ}
    {g : β → Except ε γ} (h : Rel R x y) (hfg : ∀ a b, R a b → f a = g b) :
    (x >>= f) = (y >>= g) := by
  cases h with
  | ok hab => exact hfg _ _ hab
  | error e => rfl

lemma Rel.exists_ok {R : α → β → Prop} {x : Except ε α} {y : Except ε β} {a : α}
    (h : Rel R x y) (hx : x = .ok a) : ∃ b, y = .ok b ∧ R a b := by
  cases h with
  | ok hab =>
    obtain rfl := Except.ok.inj hx
    exact ⟨_, rfl, hab⟩
  | error e => exact nomatch hx

lemma Rel.of_error {R : α → β → Prop} {x : Except ε α} {y : Except ε β} {e : ε}
    (h : Rel R x y) (hx : x = .error e) : y = .error e := by
  cases h with
  | ok hab => exact nomatch hx
  | error e' => exact congrArg _ (Except.error.inj hx)

end Outcome
