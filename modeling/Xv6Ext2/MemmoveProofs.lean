import Xv6Ext2.ByteBlockProofs
import Xv6Ext2.Param

/-! # The two versions of memmove

    `memmove` of `string.c` and `memmove` of `ulib.c` over the bytes of an address space.
    Pointers are 32-bit numbers and each step of a pointer wraps.

    * `forward_below`, `forward_above`, `backward_above` — what the two loops leave, for each
      order of the ranges; a forward copy to a higher address repeats the first bytes.
    * `memmove_moves` — the kernel's version moves, however the ranges overlap.
    * `umemmove_eq_iff` — the user library's version does so only if that repetition is what
      the source holds. -/

namespace Memmove

open ByteBlock Param

open Function (update update_of_ne update_self)

/-! ## The functions -/

/-- `p++`. -/
def next (p : Nat) : Nat := (p + 1) % UINT

/-- `while(n-- > 0) *d++ = *s++`. -/
def forward : Nat → Block → Nat → Nat → Block
  | 0, m, _, _ => m
  | n + 1, m, d, s => forward n (update m d (m s)) (next d) (next s)

/-- `while(n-- > 0) *--d = *--s`; the two pointers are `n` bytes behind `d` and `s`. -/
def backward : Nat → Block → Nat → Nat → Block
  | 0, m, _, _ => m
  | n + 1, m, d, s =>
      backward n (update m ((d + n) % UINT) (m ((s + n) % UINT))) d s

def memmove (m : Block) (dst src n : Nat) : Block :=
  if src < dst ∧ (src + n) % UINT > dst then backward n m dst src else forward n m dst src

/-- `memmove` of the user library; `n` is an `int`. -/
def umemmove (m : Block) (dst src : Nat) (n : Int) : Block := forward n.toNat m dst src

/-! ## The loops -/

section Loops

variable {m : Block} {d s n : Nat}

/-- One turn of a loop, then a copy of the rest: the copy in front of which the first byte was
    stored. -/
lemma blit_update {f g : Nat → UInt8} (h0 : f 0 = m s) (hrest : ∀ i < n, g i = f (i + 1)) :
    blit (update m d (m s)) (d + 1) n g = blit m d (n + 1) f := by
  funext k
  by_cases hk : d + 1 ≤ k ∧ k < d + 1 + n
  · rw [blit_in hk, blit_in (by omega), hrest _ (by omega), show k - (d + 1) + 1 = k - d by omega]
  rw [blit_out (by omega)]
  by_cases hd : k = d
  · rw [hd, update_self, blit_in (by omega), Nat.sub_self, h0]
  · rw [update_of_ne hd, blit_out (by omega)]

lemma next_eq (h : d + 1 < UINT) : next d = d + 1 := Nat.mod_eq_of_lt h

lemma forward_succ (hd : d + (n + 1) ≤ UINT) (hs : s + (n + 1) ≤ UINT) :
    forward (n + 1) m d s = forward n (update m d (m s)) (d + 1) (s + 1) := by
  cases n with
  | zero => rfl
  | succ n =>
      rw [forward, next_eq (by omega), next_eq (by omega)]

/-- Forward to a lower or the same address: a byte is stored only after it was read. -/
lemma forward_below (hd : d + n ≤ UINT) (hs : s + n ≤ UINT) (h : d ≤ s) :
    forward n m d s = blit m d n (fun i => m (s + i)) := by
  induction n generalizing m d s with
  | zero =>
      funext k
      rw [blit_out (by omega), forward]
  | succ n ih =>
      rw [forward_succ hd hs, ih (by omega) (by omega) (by omega)]
      refine blit_update rfl (fun i _ => ?_)
      rw [update_of_ne (by omega), Nat.add_right_comm, Nat.add_assoc]

/-- Forward to a higher address: from the first stored byte on, the loop reads what it has
    stored. -/
lemma forward_above (hd : d + n ≤ UINT) (hs : s + n ≤ UINT) (h : s < d) :
    forward n m d s = blit m d n (fun i => m (s + i % (d - s))) := by
  induction n generalizing m d s with
  | zero =>
      funext k
      rw [blit_out (by omega), forward]
  | succ n ih =>
      rw [forward_succ hd hs, ih (by omega) (by omega) (by omega),
        show d + 1 - (s + 1) = d - s by omega]
      refine blit_update (by rw [Nat.zero_mod]; rfl) (fun i _ => ?_)
      have hlt := Nat.mod_lt i (show d - s > 0 by omega)
      have hmod : (i + 1) % (d - s) = (i % (d - s) + 1) % (d - s) := by rw [Nat.mod_add_mod]
      by_cases hwrap : i % (d - s) + 1 = d - s
      · -- the byte just stored, a copy of the first one
        rw [show s + 1 + i % (d - s) = d by omega, update_self, hmod, hwrap, Nat.mod_self]
        rfl
      have hstep : (i + 1) % (d - s) = i % (d - s) + 1 := by
        rw [hmod, Nat.mod_eq_of_lt (by omega)]
      rw [update_of_ne (by omega), hstep, Nat.add_right_comm, Nat.add_assoc]

/-- Backward to a higher or the same address. -/
lemma backward_above (hd : d + n ≤ UINT) (hs : s + n ≤ UINT) (h : s ≤ d) :
    backward n m d s = blit m d n (fun i => m (s + i)) := by
  induction n generalizing m with
  | zero =>
      funext k
      rw [blit_out (by omega), backward]
  | succ n ih =>
      rw [backward, Nat.mod_eq_of_lt (by omega : d + n < UINT),
        Nat.mod_eq_of_lt (by omega : s + n < UINT), ih (by omega) (by omega)]
      funext k
      by_cases hk : d ≤ k ∧ k < d + n
      · rw [blit_in hk, blit_in (by omega), update_of_ne (by omega)]
      rw [blit_out (by omega)]
      by_cases hlast : k = d + n
      · rw [hlast, update_self, blit_in (by omega), Nat.add_sub_cancel_left]
      · rw [update_of_ne hlast, blit_out (by omega)]

end Loops

/-! ## What they leave -/

section Moves

variable {m : Block} {dst src n : Nat}

lemma memmove_eq_blit (hd : dst + n ≤ UINT) (hs : src + n ≤ UINT) :
    memmove m dst src n = blit m dst n (fun i => m (src + i)) := by
  unfold memmove
  by_cases hlt : src < dst
  · by_cases hn : n = 0
    · subst hn
      rw [Nat.add_zero, Nat.mod_eq_of_lt (by omega : src < UINT), if_neg (by omega), forward]
      funext k
      rw [blit_out (by omega)]
    -- the source ends below the end of the destination, so `s + n` does not wrap
    have hend : (src + n) % UINT = src + n := Nat.mod_eq_of_lt (by omega)
    by_cases hover : src + n > dst
    · rw [if_pos ⟨hlt, by omega⟩]
      exact backward_above hd hs hlt.le
    rw [if_neg (by omega), forward_above hd hs hlt]
    refine blit_congr (fun i hi => ?_)
    rw [Nat.mod_eq_of_lt (by omega)]
  · rw [if_neg (fun h => hlt h.1)]
    exact forward_below hd hs (Nat.le_of_not_lt hlt)

/-- **The kernel's `memmove` moves.**  Afterwards the destination holds what the source held,
    and every other byte is as before. -/
theorem memmove_moves (m : Block) (dst src n : Nat) (hd : dst + n ≤ UINT) (hs : src + n ≤ UINT) :
    (∀ i < n, memmove m dst src n (dst + i) = m (src + i)) ∧
      ∀ k, k < dst ∨ dst + n ≤ k → memmove m dst src n k = m k := by
  rw [memmove_eq_blit hd hs]
  refine ⟨fun i hi => ?_, fun k hk => blit_out hk⟩
  rw [blit_in (by omega), Nat.add_sub_cancel_left]

/-- Overlapping ranges at the end of the address space. -/
theorem memmove_moves_overlap :
    (∀ i < 2, memmove (fun k => UInt8.ofNat k) 0xfffffffe 0xfffffffd 2 (0xfffffffe + i) =
      UInt8.ofNat (0xfffffffd + i)) ∧ ∀ k, k < 0xfffffffe ∨ 0xfffffffe + 2 ≤ k →
      memmove (fun k => UInt8.ofNat k) 0xfffffffe 0xfffffffd 2 k = UInt8.ofNat k :=
  memmove_moves (fun k => UInt8.ofNat k) 0xfffffffe 0xfffffffd 2 (by decide) (by decide)

/-- The user library copies upwards only.  Where the destination starts inside the source, it
    repeats the bytes in front of the destination. -/
lemma umemmove_eq_blit (hd : dst + n ≤ UINT) (hs : src + n ≤ UINT) :
    umemmove m dst src n = blit m dst n
      (fun i => m (src + if src < dst then i % (dst - src) else i)) := by
  unfold umemmove
  rw [Int.toNat_natCast]
  by_cases hlt : src < dst
  · simp only [if_pos hlt]
    exact forward_above hd hs hlt
  · simp only [if_neg hlt]
    exact forward_below hd hs (Nat.le_of_not_lt hlt)

/-- **The two versions agree** exactly if the destination does not start inside the source, or
    the source repeats itself at that distance. -/
theorem umemmove_eq_iff (m : Block) (dst src : Nat) (n : Int) (hn : 0 ≤ n) (hint : n < 2 ^ 31)
    (hd : dst + n ≤ UINT) (hs : src + n ≤ UINT) : umemmove m dst src n = memmove m dst src n.toNat ↔
      (src < dst → dst < src + n → ∀ i : Nat, i < n → m (src + i) = m (src + i % (dst - src))) := by
  obtain ⟨n, rfl⟩ := Int.eq_ofNat_of_zero_le hn
  rw [Int.toNat_natCast, umemmove_eq_blit (by omega) (by omega),
    memmove_eq_blit (by omega) (by omega)]
  constructor
  · intro heq hlt _ i hi
    have hk := congrFun heq (dst + i)
    rw [blit_in (by omega), blit_in (by omega), Nat.add_sub_cancel_left, if_pos hlt] at hk
    exact hk.symm
  · intro hrep
    refine blit_congr (fun i hi => ?_)
    by_cases hlt : src < dst
    · rw [if_pos hlt]
      by_cases hover : dst < src + n
      · exact (hrep hlt (by omega) i (by omega)).symm
      · rw [Nat.mod_eq_of_lt (by omega)]
    · rw [if_neg hlt]

end Moves

/-- A move down by one byte. -/
theorem umemmove_eq_iff_down :
    umemmove (fun k => UInt8.ofNat k) 0 1 2 = memmove (fun k => UInt8.ofNat k) 0 1 2 :=
  (umemmove_eq_iff (fun k => UInt8.ofNat k) 0 1 2 (by decide) (by decide) (by decide)
    (by decide)).mpr (fun h => absurd h (by decide))

/-- Bytes 0 and 1 moved up by one: the kernel leaves 0, 1 there, the user library 0, 0. -/
theorem umemmove_repeats : umemmove (fun k => UInt8.ofNat k) 1 0 2 2 = 0 ∧
    memmove (fun k => UInt8.ofNat k) 1 0 2 2 = 1 := by
  decide +kernel

end Memmove
