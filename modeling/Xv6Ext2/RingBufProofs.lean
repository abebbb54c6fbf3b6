import Mathlib.Data.List.Infix
import Mathlib.Data.Nat.ModEq
import Mathlib.Logic.Function.Basic

/-! # A ring with free-running counters

    A ring of `cap` places and two counters that run modulo `M`: the number of elements pushed and
    the number popped.  The places are used round and round, so `cap` has to divide `M`, and the
    counters tell a full ring from an empty one only if `cap < M`.  `Rep` says which elements were
    pushed and popped so far; it does not mention the moduli the counters have gone through.

    - `Rep.isFull_iff`, `Rep.isEmpty_iff` : what the comparisons of the counters mean;
    - `Rep.push`, `Rep.pop` : the ring is a queue;
    - `Rep.unpush` : the last element that was pushed can be taken back. -/

structure RingBuf (α : Type) where
  data   : Nat → α
  nread  : Nat
  nwrite : Nat

namespace RingBuf

variable {α : Type} (cap M : Nat)

def isFull (r : RingBuf α) : Bool := decide (r.nwrite = (r.nread + cap) % M)

def isEmpty (r : RingBuf α) : Bool := decide (r.nread = r.nwrite)

/-- The element that was pushed first and is not yet popped. -/
def front (r : RingBuf α) : α := r.data (r.nread % cap)

def push (r : RingBuf α) (a : α) : RingBuf α :=
  { r with data := Function.update r.data (r.nwrite % cap) a, nwrite := (r.nwrite + 1) % M }

def pop (r : RingBuf α) : RingBuf α := { r with nread := (r.nread + 1) % M }

/-- The ring after all of `pushed` was pushed and all of `popped` was popped. -/
structure Rep (r : RingBuf α) (pushed popped : List α) : Prop where
  nwrite : r.nwrite = pushed.length % M
  nread  : r.nread = popped.length % M
  before : popped <+: pushed
  room   : pushed.length ≤ popped.length + cap
  held   : ∀ k, popped.length ≤ k → k < pushed.length → pushed[k]? = some (r.data (k % cap))

variable {cap M} {r : RingBuf α} {pushed popped : List α}

/-- Numbers that differ by less than `M` are equal if they are equal modulo `M`. -/
lemma add_mod_cancel {a d : Nat} (hd : d < M) (h : (a + d) % M = a % M) : d = 0 := by
  have hdvd : M ∣ (a + d) - a := (Nat.modEq_iff_dvd' (Nat.le_add_right a d)).mp h.symm
  rw [Nat.add_sub_cancel_left] at hdvd
  exact Nat.eq_zero_of_dvd_of_lt hdvd hd

lemma Rep.length_le (h : Rep cap M r pushed popped) : popped.length ≤ pushed.length :=
  h.before.length_le

lemma Rep.fill (h : Rep cap M r pushed popped) (hM : cap < M) :
    (r.nwrite + (M - r.nread)) % M = pushed.length - popped.length := by
  have hle := h.length_le
  have hroom := h.room
  have hlt : popped.length % M < M := Nat.mod_lt _ (by omega)
  obtain ⟨d, hd⟩ := Nat.exists_eq_add_of_le hle
  rw [h.nwrite, h.nread, hd, Nat.add_sub_cancel_left, Nat.mod_add_mod]
  have hsum : popped.length + d + (M - popped.length % M) = d + M * (popped.length / M + 1) := by
    have := Nat.div_add_mod popped.length M
    rw [Nat.mul_add, Nat.mul_one]
    omega
  rw [hsum, Nat.add_mul_mod_self_left, Nat.mod_eq_of_lt (by omega)]

lemma Rep.isEmpty_iff (h : Rep cap M r pushed popped) (hM : cap < M) :
    r.isEmpty = true ↔ popped = pushed := by
  rw [isEmpty, decide_eq_true_iff, h.nread, h.nwrite]
  constructor
  · intro he
    obtain ⟨d, hd⟩ := Nat.exists_eq_add_of_le h.length_le
    have hroom := h.room
    rw [hd] at he hroom
    have := add_mod_cancel (by omega) he.symm
    exact h.before.eq_of_length (by omega)
  · intro he
    rw [he]

lemma Rep.isFull_iff (h : Rep cap M r pushed popped) (hM : cap < M) :
    r.isFull cap M = true ↔ pushed.length = popped.length + cap := by
  rw [isFull, decide_eq_true_iff, h.nread, h.nwrite, Nat.mod_add_mod]
  constructor
  · intro he
    obtain ⟨d, hd⟩ := Nat.exists_eq_add_of_le h.room
    have hle := h.length_le
    rw [hd] at he
    have := add_mod_cancel (by omega) he.symm
    omega
  · intro he
    rw [he]

lemma Rep.push (h : Rep cap M r pushed popped) (hM : cap ∣ M)
    (hroom : pushed.length < popped.length + cap) (a : α) :
    Rep cap M (r.push cap M a) (pushed ++ [a]) popped := by
  have hle := h.length_le
  refine ⟨?_, h.nread, h.before.trans (List.prefix_append _ _), ?_, fun k hk hlt => ?_⟩
  · show (r.nwrite + 1) % M = _
    rw [h.nwrite, Nat.mod_add_mod, List.length_append, List.length_singleton]
  · rwa [List.length_append, List.length_singleton]
  · rw [List.length_append, List.length_singleton] at hlt
    show _ = some (Function.update r.data (r.nwrite % cap) a (k % cap))
    rw [h.nwrite, Nat.mod_mod_of_dvd _ hM]
    by_cases hkl : k = pushed.length
    · subst hkl
      rw [Function.update_self, List.getElem?_append_right le_rfl, Nat.sub_self]
      rfl
    -- another element that is held has another place
    have hne : k % cap ≠ pushed.length % cap := by
      intro he
      obtain ⟨d, hd⟩ := Nat.exists_eq_add_of_le (show k ≤ pushed.length by omega)
      rw [hd] at he
      have := add_mod_cancel (show d < cap by omega) he.symm
      omega
    rw [Function.update_of_ne hne, List.getElem?_append_left (by omega)]
    exact h.held k hk (by omega)

lemma Rep.front (h : Rep cap M r pushed popped) (hM : cap ∣ M)
    (hne : popped.length < pushed.length) : pushed[popped.length]? = some (r.front cap) := by
  rw [h.held popped.length le_rfl hne, RingBuf.front, h.nread, Nat.mod_mod_of_dvd _ hM]

lemma Rep.unpush {a : α} (h : Rep cap M r (pushed ++ [a]) popped) (hM : 0 < M)
    (hbefore : popped <+: pushed) :
    Rep cap M { r with nwrite := (r.nwrite + (M - 1)) % M } pushed popped := by
  have hlen : (pushed ++ [a]).length = pushed.length + 1 := List.length_append
  refine ⟨?_, h.nread, hbefore, ?_, fun k hk hlt => ?_⟩
  · show (r.nwrite + (M - 1)) % M = _
    rw [h.nwrite, hlen, Nat.mod_add_mod, show pushed.length + 1 + (M - 1) = pushed.length + M by omega,
      Nat.add_mod_right]
  · have := h.room
    omega
  · have := h.held k hk (by omega)
    rwa [List.getElem?_append_left hlt] at this

lemma Rep.pop (h : Rep cap M r pushed popped) (hM : cap ∣ M) (hne : popped.length < pushed.length) :
    Rep cap M (r.pop M) pushed (popped ++ [r.front cap]) := by
  have hlen : (popped ++ [r.front cap]).length = popped.length + 1 := List.length_append
  refine ⟨h.nwrite, ?_, ?_, ?_, fun k hk hlt => ?_⟩
  · show (r.nread + 1) % M = _
    rw [h.nread, Nat.mod_add_mod, hlen]
  · obtain ⟨rest, hrest⟩ := h.before
    have hfront := h.front hM hne
    rw [← hrest, List.getElem?_append_right le_rfl, Nat.sub_self] at hfront
    cases rest with
    | nil => exact nomatch hfront
    | cons a rest =>
      obtain rfl := Option.some.inj hfront
      exact ⟨rest, by rw [← hrest, List.append_assoc]; rfl⟩
  · have := h.room
    omega
  · exact h.held k (by omega) hlt

end RingBuf
