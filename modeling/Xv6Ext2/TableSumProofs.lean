import Mathlib.Algebra.BigOperators.Group.Finset.Piecewise

/-! # Sums over the places of a table

    `D` is a finite set of places of a table.  When one place changes, a sum over the
    places changes by what that place contributes (`sum_change`).  `count D g a` is the
    number of places that point to `a`: the value a reference count of `a` has to keep
    when every reference is a place of the table. -/

namespace TableSum

section Sum

variable {ι M : Type} [DecidableEq ι] [AddCommMonoid M] {D : Finset ι} {x : ι} {f g : ι → M}

lemma sum_split (hx : x ∈ D) (f : ι → M) : ∑ i ∈ D, f i = f x + ∑ i ∈ D \ {x}, f i :=
  Finset.sum_eq_add_sum_sdiff_singleton_of_mem hx f

/-- The place `x` changes: its old value leaves the sum, its new value enters. -/
lemma sum_change (hx : x ∈ D) (h : ∀ i ∈ D, i ≠ x → g i = f i) :
    ∑ i ∈ D, g i + f x = ∑ i ∈ D, f i + g x := by
  have hrest : ∑ i ∈ D \ {x}, g i = ∑ i ∈ D \ {x}, f i := by
    refine Finset.sum_congr rfl (fun i hi => ?_)
    obtain ⟨hi, hne⟩ := Finset.mem_sdiff.mp hi
    exact h i hi (fun heq => hne (Finset.mem_singleton.mpr heq))
  rw [sum_split hx f, sum_split hx g, hrest, add_comm (g x), add_comm (f x), add_right_comm]

end Sum

section Count

variable {ι α : Type} [DecidableEq ι] [DecidableEq α]

/-- How many places of `D` point to `a`. -/
def count (D : Finset ι) (g : ι → Option α) (a : α) : Nat :=
  ∑ i ∈ D, if g i = some a then 1 else 0

variable {D : Finset ι} {g : ι → Option α} {a : α} {x : ι}

/-- A place leaves the count of what it pointed to and enters the count of what it points to. -/
lemma count_update (hx : x ∈ D) (v : Option α) (a : α) :
    count D (Function.update g x v) a + (if g x = some a then 1 else 0)
      = count D g a + (if v = some a then 1 else 0) := by
  have h := sum_change (f := fun i => if g i = some a then 1 else 0)
    (g := fun i => if Function.update g x v i = some a then 1 else 0) hx
    (fun i _ hne => by rw [Function.update_of_ne hne])
  rwa [Function.update_self] at h

lemma count_pos (hx : x ∈ D) (h : g x = some a) : 0 < count D g a := by
  rw [count, sum_split hx, if_pos h]
  omega

omit [DecidableEq ι] in
lemma count_empty : count D (fun _ => none) a = 0 := Finset.sum_eq_zero (fun _ _ => rfl)

end Count

end TableSum
