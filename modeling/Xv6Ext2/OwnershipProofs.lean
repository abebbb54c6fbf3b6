import Mathlib.Logic.Function.Basic

/-! # Ownership — pointer slots that share nothing

    A family of slots, each holding a number; `0` is the empty slot.  The slots
    share nothing when no number other than `0` is held twice.  Filling a slot with
    a number that no slot holds keeps this, and so does emptying a slot.

    `Tracked own used data` says that a use map agrees with the slots: of the numbers in
    `data` exactly those in use are held. -/

namespace Ownership

open Function (update update_of_ne update_self)

variable {P : Type}

/-- No number other than `0` is held by two slots. -/
def Distinct (own : P → Nat) : Prop := ∀ p q, own p ≠ 0 → own p = own q → p = q

/-- The slots share nothing, hold numbers of `data` only, and `used` tells which. -/
structure Tracked (own : P → Nat) (used data : Nat → Prop) : Prop where
  distinct : Distinct own
  in_data  : ∀ q, own q ≠ 0 → data (own q)
  used_iff : ∀ b, data b → (used b ↔ ∃ q, own q = b)

variable {own : P → Nat} {p : P} {b : Nat} {used used' data : Nat → Prop}

lemma Tracked.used_of_held (h : Tracked own used data) {q : P} (hq : own q ≠ 0) :
    used (own q) := (h.used_iff _ (h.in_data q hq)).mpr ⟨q, rfl⟩

/-- No slot holds a number that is not in use. -/
lemma Tracked.fresh (h : Tracked own used data) (hb : data b) (hu : ¬used b) (q : P) :
    own q ≠ b := fun e => hu ((h.used_iff b hb).mpr ⟨q, e⟩)

variable [DecidableEq P]

/-! ## One slot changes -/

lemma Distinct.install (h : Distinct own) (hb : ∀ q, own q ≠ b) : Distinct (update own p b) := by
  intro q r hq hqr
  by_cases hqp : q = p
  · by_cases hrp : r = p
    · rw [hqp, hrp]
    · rw [hqp, update_self, update_of_ne hrp] at hqr
      exact absurd hqr.symm (hb r)
  by_cases hrp : r = p
  · rw [hrp, update_self, update_of_ne hqp] at hqr
    exact absurd hqr (hb q)
  rw [update_of_ne hqp] at hq
  rw [update_of_ne hqp, update_of_ne hrp] at hqr
  exact h q r hq hqr

lemma Distinct.remove (h : Distinct own) : Distinct (update own p 0) := by
  intro q r hq hqr
  by_cases hqp : q = p
  · rw [hqp, update_self] at hq
    exact absurd rfl hq
  by_cases hrp : r = p
  · rw [hrp, update_self] at hqr
    exact absurd hqr hq
  rw [update_of_ne hqp] at hq
  rw [update_of_ne hqp, update_of_ne hrp] at hqr
  exact h q r hq hqr

lemma update_of_held {q : P} (hp : own p = 0) (hq : own q ≠ 0) : update own p b q = own q := by
  refine update_of_ne ?_ _ _
  rintro rfl
  exact hq hp

lemma Tracked.install (h : Tracked own used data) (hp : own p = 0) (h0 : ¬data 0)
    (hb : data b) (hu : ¬used b) (hused : ∀ c, data c → (used' c ↔ used c ∨ c = b)) :
    Tracked (update own p b) used' data := by
  refine ⟨h.distinct.install (h.fresh hb hu), fun q hq => ?_, fun c hc => ?_⟩
  · by_cases hqp : q = p
    · rwa [hqp, update_self]
    · rw [update_of_ne hqp] at hq ⊢
      exact h.in_data q hq
  · rw [hused c hc, h.used_iff c hc]
    constructor
    · rintro (⟨q, hq⟩ | rfl)
      · refine ⟨q, ?_⟩
        rwa [update_of_held hp (fun e => h0 (by rw [← e, hq]; exact hc))]
      · exact ⟨p, update_self _ _ _⟩
    · rintro ⟨q, hq⟩
      by_cases hqp : q = p
      · rw [hqp, update_self] at hq
        exact .inr hq.symm
      · rw [update_of_ne hqp] at hq
        exact .inl ⟨q, hq⟩

lemma Tracked.remove (h : Tracked own used data) (hp : own p = b) (h0 : ¬data 0) (hb : b ≠ 0)
    (hused : ∀ c, data c → (used' c ↔ used c ∧ c ≠ b)) : Tracked (update own p 0) used' data := by
  refine ⟨h.distinct.remove, fun q hq => ?_, fun c hc => ?_⟩
  · by_cases hqp : q = p
    · rw [hqp, update_self] at hq
      exact absurd rfl hq
    · rw [update_of_ne hqp] at hq ⊢
      exact h.in_data q hq
  · rw [hused c hc, h.used_iff c hc]
    constructor
    · rintro ⟨⟨q, hq⟩, hne⟩
      have hqp : q ≠ p := by
        rintro rfl
        exact hne (hq.symm.trans hp)
      exact ⟨q, by rw [update_of_ne hqp]; exact hq⟩
    · rintro ⟨q, hq⟩
      by_cases hqp : q = p
      · rw [hqp, update_self] at hq
        exact absurd (hq ▸ hc) h0
      rw [update_of_ne hqp] at hq
      refine ⟨⟨q, hq⟩, fun e => hqp ?_⟩
      refine h.distinct q p ?_ (by rw [hq, hp, e])
      rwa [hq, e]

end Ownership
