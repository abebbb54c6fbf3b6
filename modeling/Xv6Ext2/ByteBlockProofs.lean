import Mathlib.Logic.Function.Basic
import Mathlib.Data.Nat.Bitwise

/-! # Blocks of bytes — little-endian words, copied ranges, single bits

    A block in memory is read through its first address: `b k` is the byte `k` places on.  The block
    is not cut off at its size, so a loop that runs past the end of a buffer reads (and writes) the
    bytes that follow it, as it does in C.

    * `blit` copies a range of bytes into a block (`memmove`, `memset`);
    * `getLE` / `putLE` read and write an unsigned word of any width;
    * `bitMask`, `byteBit` are the masks `1 << k` and the bits they select. -/

namespace ByteBlock

/-- The bytes from the first byte of a block on. -/
abbrev Block := Nat → UInt8

/-- Copy `n` bytes of `src` to offset `o` of `b`. -/
def blit (b : Block) (o n : Nat) (src : Nat → UInt8) : Block :=
  fun k => if o ≤ k ∧ k < o + n then src (k - o) else b k

variable {b : Block} {o n k : Nat} {src : Nat → UInt8}

lemma blit_in (h : o ≤ k ∧ k < o + n) : blit b o n src k = src (k - o) := if_pos h

lemma blit_out (h : k < o ∨ o + n ≤ k) : blit b o n src k = b k := by
  refine if_neg ?_
  omega

/-- Only `n` bytes of the source count. -/
lemma blit_congr {src' : Nat → UInt8}
    (h : ∀ k < n, src k = src' k) : blit b o n src = blit b o n src' := by
  funext k
  by_cases hk : o ≤ k ∧ k < o + n
  · rw [blit_in hk, blit_in hk, h _ (by omega)]
  · rw [blit_out (by omega), blit_out (by omega)]

/-! ## Little-endian words -/

/-- The unsigned little-endian word of `n` bytes at offset `o`. -/
def getLE (b : Block) : Nat → Nat → Nat
  | 0, _ => 0
  | n + 1, o => (b o).toNat + 256 * getLE b n (o + 1)

/-- Byte `j` of the little-endian encoding of `v`. -/
def leByte (v j : Nat) : UInt8 := UInt8.ofNat (v / 256 ^ j)

/-- Store `v` as a little-endian word of `n` bytes at offset `o`; what does not
    fit into `n` bytes is cut off, as in an assignment to a C integer type. -/
def putLE (b : Block) (n o v : Nat) : Block := blit b o n (leByte v)

lemma getLE_lt (b : Block) (n o : Nat) : getLE b n o < 256 ^ n := by
  induction n generalizing o with
  | zero => exact Nat.one_pos
  | succ n ih =>
    have h := ih (o + 1)
    have hb := (b o).toNat_lt
    rw [getLE, Nat.pow_succ]
    omega

/-- A word depends only on its own bytes. -/
lemma getLE_congr {c : Block}
    (h : ∀ k, o ≤ k → k < o + n → b k = c k) : getLE b n o = getLE c n o := by
  induction n generalizing o with
  | zero => rfl
  | succ n ih =>
    rw [getLE, getLE, h o (Nat.le_refl o) (by omega), ih (fun k h1 h2 => h k (by omega) (by omega))]

lemma getLE_shift (b : Block) (off n o : Nat) :
    getLE (fun k => b (off + k)) n o = getLE b n (off + o) := by
  induction n generalizing o with
  | zero => rfl
  | succ n ih =>
    rw [getLE, getLE, ih, Nat.add_assoc]

variable {o' n' : Nat}

lemma getLE_blit_out (h : o' + n' ≤ o ∨ o + n ≤ o') :
    getLE (blit b o n src) n' o' = getLE b n' o' := getLE_congr (fun k _ _ => blit_out (by omega))

lemma getLE_blit_in (h : o ≤ o' ∧ o' + n' ≤ o + n) :
    getLE (blit b o n src) n' o' = getLE src n' (o' - o) := by
  induction n' generalizing o' with
  | zero => rfl
  | succ n' ih =>
    rw [getLE, getLE, blit_in (by omega), ih (by omega), show o' + 1 - o = o' - o + 1 by omega]

lemma getLE_leByte (n v j : Nat) : getLE (leByte v) n j = v / 256 ^ j % 256 ^ n := by
  induction n generalizing j with
  | zero => rw [getLE, Nat.pow_zero, Nat.mod_one]
  | succ n ih =>
    have hbyte : (leByte v j).toNat = v / 256 ^ j % 256 := UInt8.toNat_ofNat'
    have hdiv : v / 256 ^ (j + 1) = v / 256 ^ j / 256 := by
      rw [Nat.div_div_eq_div_mul, Nat.pow_succ]
    rw [getLE, ih, hbyte, hdiv, Nat.pow_succ, Nat.mul_comm (256 ^ n), Nat.mod_mul]

lemma getLE_putLE (b : Block) (n o v : Nat) : getLE (putLE b n o v) n o = v % 256 ^ n := by
  rw [putLE, getLE_blit_in (by omega), Nat.sub_self, getLE_leByte, Nat.pow_zero, Nat.div_one]

lemma getLE_putLE_of_disjoint {v : Nat} (h : o' + n' ≤ o ∨ o + n ≤ o') :
    getLE (putLE b n o v) n' o' = getLE b n' o' := getLE_blit_out h

lemma putLE_out {v : Nat} (h : k < o ∨ o + n ≤ k) : putLE b n o v k = b k := blit_out h

lemma getLE_zero (h : ∀ k, o ≤ k → k < o + n → b k = 0) : getLE b n o = 0 := by
  rw [getLE_congr (c := fun _ => 0) h]
  clear h
  induction n generalizing o with
  | zero => rfl
  | succ n ih => rw [getLE, ih]; rfl

/-! ## Bits -/

def bitMask (k : Nat) : UInt8 := 1 <<< UInt8.ofNat k

/-- Bit `k` of a byte, the least significant bit first. -/
def byteBit (x : UInt8) (k : Nat) : Bool := x.toNat.testBit k

lemma bitMask_toNat (h : k < 8) : (bitMask k).toNat = 2 ^ k := by
  have key : ∀ j : Fin 8, (bitMask j.val).toNat = 2 ^ j.val := by decide
  exact key ⟨k, h⟩

lemma byteBit_ones (h : k < 8) : byteBit 255 k = true := by
  have hall : ∀ j < 8, byteBit 255 j = true := by decide
  exact hall k h

lemma byteBit_or (x y : UInt8) (k : Nat) : byteBit (x ||| y) k = (byteBit x k || byteBit y k) := by
  rw [byteBit, UInt8.toNat_or, Nat.testBit_or]; rfl

lemma byteBit_and (x y : UInt8) (k : Nat) : byteBit (x &&& y) k = (byteBit x k && byteBit y k) := by
  rw [byteBit, UInt8.toNat_and, Nat.testBit_and]; rfl

variable {j : Nat}

lemma byteBit_mask (h : j < 8) : byteBit (bitMask j) k = decide (j = k) := by
  rw [byteBit, bitMask_toNat h, Nat.testBit_two_pow]

variable {x : UInt8}

lemma byteBit_compl (h : k < 8) : byteBit (~~~x) k = !byteBit x k := by
  have hx : (~~~x).toNat = 255 - x.toNat := by
    rw [UInt8.toNat_not]; rfl
  have hlt : x.toNat < 2 ^ 8 := x.toNat_lt
  rw [byteBit, hx, show 255 - x.toNat = 2 ^ 8 - (x.toNat + 1) by omega,
    Nat.testBit_two_pow_sub_succ hlt]
  simp [h, byteBit]

/-- Two bytes with the same eight bits are the same byte. -/
lemma byte_ext {y : UInt8} (h : ∀ k < 8, byteBit x k = byteBit y k) : x = y := by
  refine UInt8.toNat_inj.mp (Nat.eq_of_testBit_eq ?_)
  intro k
  by_cases hk : k < 8
  · exact h k hk
  have hx : x.toNat < 2 ^ k :=
    Nat.lt_of_lt_of_le x.toNat_lt (Nat.pow_le_pow_right (by decide) (by omega))
  have hy : y.toNat < 2 ^ k :=
    Nat.lt_of_lt_of_le y.toNat_lt (Nat.pow_le_pow_right (by decide) (by omega))
  rw [Nat.testBit_lt_two_pow hx, Nat.testBit_lt_two_pow hy]

/-- The test `(x & (1 << k)) == 0` reads bit `k`. -/
lemma and_mask_eq_zero (h : k < 8) : x &&& bitMask k = 0 ↔ byteBit x k = false := by
  constructor
  · intro h0
    have hb := byteBit_and x (bitMask k) k
    rw [h0, byteBit_mask h] at hb
    simpa [byteBit] using hb.symm
  · intro hb
    refine byte_ext (fun j _ => ?_)
    rw [byteBit_and, byteBit_mask h]
    by_cases hj : k = j
    · rw [← hj, hb]; simp [byteBit]
    · simp [hj, byteBit]

lemma byteBit_set (h : j < 8) : byteBit (x ||| bitMask j) k = (byteBit x k || decide (j = k)) := by
  rw [byteBit_or, byteBit_mask h]

lemma byteBit_clear (h : j < 8) (hk : k < 8) :
    byteBit (x &&& ~~~bitMask j) k = (byteBit x k && !decide (j = k)) := by
  rw [byteBit_and, byteBit_compl hk, byteBit_mask h]

/-- Store the words `a i, a (i + 1), ..`, `n` of them, at offset `o + 4 * i`. -/
def putWords (b : Block) (o : Nat) (a : Nat → Nat) : Nat → Nat → Block
  | 0, _ => b
  | n + 1, i => putWords (putLE b 4 (o + 4 * i) (a i)) o a n (i + 1)

variable {i : Nat} {a : Nat → Nat}

lemma putWords_out (h : k < o + 4 * i ∨ o + 4 * (i + n) ≤ k) : putWords b o a n i k = b k := by
  induction n generalizing b i with
  | zero => rfl
  | succ n ih => rw [putWords, ih (by omega), putLE_out (by omega)]

lemma getLE_putWords_of_disjoint (h : o' + n' ≤ o + 4 * i ∨ o + 4 * (i + n) ≤ o') :
    getLE (putWords b o a n i) n' o' = getLE b n' o' :=
  getLE_congr (fun k _ _ => putWords_out (by omega))

/-- Stored words read back, cut to their width. -/
lemma getLE_putWords (h1 : i ≤ j) (h2 : j < i + n) :
    getLE (putWords b o a n i) 4 (o + 4 * j) = a j % 256 ^ 4 := by
  induction n generalizing b i with
  | zero => omega
  | succ n ih =>
    rw [putWords]
    by_cases hj : j = i
    · -- the words after the first one are stored behind it
      rw [hj, getLE_putWords_of_disjoint (by omega), getLE_putLE]
    · exact ih (by omega) (by omega)

/-! ## Bits of a block -/

/-- Bit `k` of a block, least significant bit first. -/
def blockBit (b : Block) (k : Nat) : Bool := byteBit (b (k / 8)) (k % 8)

/-- Set bit `k`, least significant bit first. -/
def setBit (b : Block) (k : Nat) : Block :=
  Function.update b (k / 8) (b (k / 8) ||| bitMask (k % 8))

/-- Clear bit `k`, least significant bit first. -/
def clearBit (b : Block) (k : Nat) : Block :=
  Function.update b (k / 8) (b (k / 8) &&& ~~~bitMask (k % 8))

lemma blockBit_setBit (b : Block) (j k : Nat) :
    blockBit (setBit b j) k = (blockBit b k || decide (j = k)) := by
  unfold blockBit setBit
  by_cases hd : k / 8 = j / 8
  · rw [hd, Function.update_self, byteBit_set (Nat.mod_lt _ (by decide)),
      show decide (j % 8 = k % 8) = decide (j = k) from decide_eq_decide.mpr (by omega)]
  · rw [Function.update_of_ne hd, show decide (j = k) = false from
      decide_eq_false (by rintro rfl; exact hd rfl), Bool.or_false]

lemma blockBit_clearBit (b : Block) (j k : Nat) :
    blockBit (clearBit b j) k = (blockBit b k && !decide (j = k)) := by
  unfold blockBit clearBit
  by_cases hd : k / 8 = j / 8
  · rw [hd, Function.update_self, byteBit_clear (Nat.mod_lt _ (by decide))
      (Nat.mod_lt _ (by decide)),
      show decide (j % 8 = k % 8) = decide (j = k) from decide_eq_decide.mpr (by omega)]
  rw [Function.update_of_ne hd, show decide (j = k) = false from
    decide_eq_false (by rintro rfl; exact hd rfl)]
  simp

/-- Two blocks with the same bits are the same block. -/
lemma block_ext {c : Block} (h : ∀ k, blockBit b k = blockBit c k) : b = c := by
  funext i
  refine byte_ext (fun k hk => ?_)
  have := h (i * 8 + k)
  unfold blockBit at this
  rwa [show (i * 8 + k) / 8 = i by omega, show (i * 8 + k) % 8 = k by omega] at this

lemma blockBit_zero (k : Nat) : blockBit (fun _ => 0) k = false := by
  unfold blockBit byteBit
  exact Nat.zero_testBit _

end ByteBlock
