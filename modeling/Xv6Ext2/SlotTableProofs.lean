import Mathlib.Data.Fintype.EquivFin
import Mathlib.Logic.Function.Basic

/-! # A table of slots with busy flags

    `n` entries and `n` slots; an entry may own a slot, and a slot's flag is `1`
    while an entry owns it.  `Ok` is the invariant of such a table.  An entry that
    owns no slot can take one whose flag is `0`, and there always is one. -/

namespace SlotTable

open Function (update update_of_ne update_self)

/-- The first index from `i` on, among `fuel` of them, that satisfies `p`. -/
def firstFrom (p : Nat → Bool) : Nat → Nat → Option Nat
  | 0, _ => none
  | fuel + 1, i => if p i = true then some i else firstFrom p fuel (i + 1)

variable {p : Nat → Bool} {fuel i : Nat}

lemma firstFrom_some {k : Nat}
    (h : firstFrom p fuel i = some k) : i ≤ k ∧ k < i + fuel ∧ p k = true := by
  induction fuel generalizing i with
  | zero => exact nomatch h
  | succ fuel ih =>
    rw [firstFrom] at h
    split at h
    · next hp =>
      obtain rfl := Option.some.inj h
      exact ⟨le_rfl, by omega, hp⟩
    · obtain ⟨h1, h2, h3⟩ := ih h
      exact ⟨by omega, by omega, h3⟩

lemma firstFrom_none (h : firstFrom p fuel i = none) : ∀ k, i ≤ k → k < i + fuel → p k = false := by
  induction fuel generalizing i with
  | zero =>
    intro k h1 h2
    omega
  | succ fuel ih =>
    rw [firstFrom] at h
    split at h
    · exact nomatch h
    · next hp =>
      intro k h1 h2
      by_cases hk : k = i
      · rw [hk]
        exact Bool.not_eq_true _ ▸ hp
      · exact ih h k (by omega) (by omega)

/-- Owned slots exist, no slot has two owners, and the flags tell which are owned. -/
structure Ok (n : Nat) (owner : Nat → Option Nat) (busy : Nat → Nat) : Prop where
  slot_lt : ∀ a < n, ∀ i, owner a = some i → i < n
  inj     : ∀ a < n, ∀ b < n, ∀ i, owner a = some i → owner b = some i → a = b
  owned   : ∀ a < n, ∀ i, owner a = some i → busy i = 1
  idle    : ∀ i < n, (∀ a < n, owner a ≠ some i) → busy i = 0

variable {n : Nat} {owner : Nat → Option Nat} {busy : Nat → Nat}

lemma Ok.busy_iff (h : Ok n owner busy) (hi : i < n) : busy i = 1 ↔ ∃ a < n, owner a = some i := by
  constructor
  · intro hb
    by_contra hno
    have h0 := h.idle i hi (fun a ha e => hno ⟨a, ha, e⟩)
    rw [h0] at hb
    exact nomatch hb
  · rintro ⟨a, ha, e⟩
    exact h.owned a ha i e

/-- A table in which nothing is owned. -/
lemma Ok.empty (hown : ∀ a < n, owner a = none) (hbusy : ∀ i < n, busy i = 0) :
    Ok n owner busy := by
  refine ⟨fun a ha i e => ?_, fun a ha b _ i e _ => ?_, fun a ha i e => ?_,
    fun i hi _ => hbusy i hi⟩
  · rw [hown a ha] at e; exact nomatch e
  · rw [hown a ha] at e; exact nomatch e
  · rw [hown a ha] at e; exact nomatch e

variable {a : Nat}

lemma Ok.keep (h : Ok n owner busy) {v : Option Nat} (hown : owner a = v) :
    Ok n (update owner a v) busy := by
  subst hown
  rwa [Function.update_eq_self]

lemma Ok.acquire (h : Ok n owner busy) (ha : a < n) (hown : owner a = none) (hi : i < n)
    (hbusy : busy i = 0) : Ok n (update owner a (some i)) (update busy i 1) := by
  have hfree : ∀ b < n, owner b ≠ some i := by
    intro b hb e
    rw [h.owned b hb i e] at hbusy
    exact nomatch hbusy
  refine ⟨fun b hb j e => ?_, fun b hb c hc j eb ec => ?_, fun b hb j e => ?_, fun j hj hno => ?_⟩
  · by_cases hba : b = a
    · rw [hba, update_self] at e
      exact Option.some.inj e ▸ hi
    · rw [update_of_ne hba] at e
      exact h.slot_lt b hb j e
  · by_cases hba : b = a <;> by_cases hca : c = a
    · rw [hba, hca]
    · rw [hba, update_self] at eb
      rw [update_of_ne hca, ← eb] at ec
      exact absurd ec (hfree c hc)
    · rw [hca, update_self] at ec
      rw [update_of_ne hba, ← ec] at eb
      exact absurd eb (hfree b hb)
    · rw [update_of_ne hba] at eb
      rw [update_of_ne hca] at ec
      exact h.inj b hb c hc j eb ec
  · by_cases hji : j = i
    · rw [hji, update_self]
    rw [update_of_ne hji]
    by_cases hba : b = a
    · rw [hba, update_self] at e
      exact absurd (Option.some.inj e).symm hji
    · rw [update_of_ne hba] at e
      exact h.owned b hb j e
  · have hji : j ≠ i := by
      rintro rfl
      exact hno a ha (update_self _ _ _)
    rw [update_of_ne hji]
    refine h.idle j hj (fun b hb e => ?_)
    have hba : b ≠ a := by
      rintro rfl
      rw [hown] at e
      exact nomatch e
    exact hno b hb (by rw [update_of_ne hba]; exact e)

lemma Ok.release (h : Ok n owner busy) (ha : a < n) (hown : owner a = some i) :
    Ok n (update owner a none) (update busy i 0) := by
  have hne : ∀ b < n, ∀ j, update owner a none b = some j → b ≠ a ∧ owner b = some j := by
    intro b _ j e
    by_cases hba : b = a
    · rw [hba, update_self] at e; exact nomatch e
    · rw [update_of_ne hba] at e; exact ⟨hba, e⟩
  refine ⟨fun b hb j e => h.slot_lt b hb j (hne b hb j e).2, fun b hb c hc j eb ec =>
    h.inj b hb c hc j (hne b hb j eb).2 (hne c hc j ec).2, fun b hb j e => ?_,
    fun j hj hno => ?_⟩
  · obtain ⟨hba, e'⟩ := hne b hb j e
    have hji : j ≠ i := by
      rintro rfl
      exact hba (h.inj b hb a ha j e' hown)
    rw [update_of_ne hji]
    exact h.owned b hb j e'
  · by_cases hji : j = i
    · rw [hji, update_self]
    rw [update_of_ne hji]
    refine h.idle j hj (fun b hb e => ?_)
    have hba : b ≠ a := by
      rintro rfl
      rw [hown] at e
      exact hji (Option.some.inj e).symm
    exact hno b hb (by rw [update_of_ne hba]; exact e)

lemma Ok.exists_idle (h : Ok n owner busy) (ha : a < n) (hown : owner a = none) :
    ∃ i < n, busy i = 0 := by
  by_contra hno
  -- otherwise each slot has an owner, and the owners are as many as the entries
  have hall : ∀ i : Fin n, ∃ b : Fin n, owner b = some i.val := by
    intro i
    by_contra hi
    refine hno ⟨i, i.isLt, h.idle i i.isLt (fun b hb e => hi ⟨⟨b, hb⟩, e⟩)⟩
  choose f hf using hall
  have hinj : Function.Injective f := by
    intro i j hij
    have hi := hf i
    rw [hij, hf j] at hi
    exact Fin.ext (Option.some.inj hi).symm
  obtain ⟨i, hi⟩ := Finite.surjective_of_injective hinj ⟨a, ha⟩
  have := hf i
  rw [hi, hown] at this
  exact nomatch this

end SlotTable
