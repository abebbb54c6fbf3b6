import Xv6Ext2.ByteBlockProofs
import Xv6Ext2.OutcomeProofs
import Xv6Ext2.Param

/-! # The buffer cache as the file systems use it (bio.c)

    One device seen through its buffer cache.  `disk` is what the device holds; `buf b` is the data
    of the buffer that caches block `b`, if there is one. `bread` returns the cached data or reads
    the block, `bwrite` stores the buffer's data on the device, and `bput` is an assignment to
    `bp->data` that no `bwrite` follows.

    Each buffer is protected by a sleep-lock that its holder may not take twice.
    The locks a function's caller holds are passed along as `held`, and a
    `bread` of a held buffer is the outcome `deadlock`.

    The bytes after the `BSIZE` bytes of a buffer belong to other variables of
    the kernel: they read as fixed bytes here and stores to them are not kept. -/

namespace BufCache

open ByteBlock

/-- Block size (fs.h). -/
def BSIZE : Nat := 1024

/-- How a call can fail to return: `panic(msg)`, waiting for a sleep-lock that
    the caller itself holds, a loop that never ends, or an access outside a buffer
    or through a null pointer, whose effect the C program does not define. -/
inductive Err where
  | panic (msg : String)
  | deadlock
  | hang
  | wild
  deriving DecidableEq, Repr

/-- A division by `d`; a zero divisor traps, and `trap` panics. -/
def checkDiv (d : Nat) : Except Err Unit :=
  if d = 0 then .error (.panic "trap") else .ok ()

lemma checkDiv_of_pos {d : Nat} (h : 0 < d) : checkDiv d = .ok () :=
  if_neg (Nat.pos_iff_ne_zero.mp h)

lemma checkDiv_ok {d : Nat} {u : Unit} (h : checkDiv d = .ok u) : 0 < d := by
  by_contra h0
  rw [checkDiv, if_pos (Nat.eq_zero_of_not_pos h0)] at h
  exact nomatch h

/-- `x - 1` of an `unsigned int`. -/
def pred32 (x : Nat) : Nat := (x + (2 ^ 32 - 1)) % 2 ^ 32

/-- The contents of a device, block by block. -/
abbrev Disk := Nat → Block

/-- A device and the buffers that cache its blocks. -/
structure Bcache where
  disk : Disk
  buf  : Nat → Option Block

/-- What a `bread` of block `b` sees. -/
def Bcache.view (s : Bcache) (b : Nat) : Block := (s.buf b).getD (s.disk b)

/-- The first `BSIZE` bytes of `d`, over the bytes that follow the old buffer. -/
def fillBlock (old d : Block) : Block := blit old 0 BSIZE d

/-- The cache once block `b` has a buffer with its contents. -/
def Bcache.touch (s : Bcache) (b : Nat) : Bcache :=
  { s with buf := Function.update s.buf b (some (s.view b)) }

/-- `bread`: return the buffer of block `b` with its contents. -/
def bread (held : List Nat) (b : Nat) (s : Bcache) : Except Err (Block × Bcache) :=
  if b ∈ held then .error .deadlock else .ok (s.view b, s.touch b)

/-- A change of `bp->data` in memory only. -/
def bput (b : Nat) (d : Block) (s : Bcache) : Bcache :=
  { s with buf := Function.update s.buf b (some (fillBlock (s.view b) d)) }

/-- `bwrite` of a buffer whose data is `d`. -/
def bwrite (b : Nat) (d : Block) (s : Bcache) : Bcache where
  disk := Function.update s.disk b (fillBlock (s.disk b) d)
  buf  := Function.update s.buf b (some (fillBlock (s.view b) d))

/-- `bget` recycles the buffer of block `b`. -/
def dropBuf (b : Nat) (s : Bcache) : Bcache :=
  { s with buf := Function.update s.buf b none }

variable {d old : Block} {k : Nat}

lemma fillBlock_in (h : k < BSIZE) : fillBlock old d k = d k := by
  rw [fillBlock, blit_in (by omega), Nat.sub_zero]

lemma fillBlock_out (h : BSIZE ≤ k) : fillBlock old d k = old k := blit_out (by omega)

/-- A word inside the block is the word of the new data. -/
lemma getLE_fillBlock {n o : Nat} (h : o + n ≤ BSIZE) : getLE (fillBlock old d) n o = getLE d n o :=
  getLE_congr (fun k _ hk => fillBlock_in (by omega))

lemma blockBit_fillBlock (h : k < 8 * BSIZE) : blockBit (fillBlock old d) k = blockBit d k := by
  unfold blockBit
  rw [fillBlock_in (by omega)]

/-! ## What each access does to the contents -/

@[simp] lemma touch_disk (s : Bcache) (b : Nat) : (s.touch b).disk = s.disk := rfl

@[simp] lemma touch_view (s : Bcache) (b : Nat) : (s.touch b).view = s.view := by
  funext c
  by_cases hc : c = b
  · subst hc
    simp only [Bcache.view, Bcache.touch, Function.update_self, Option.getD_some]
  · simp only [Bcache.view, Bcache.touch, Function.update_of_ne hc]

@[simp] lemma bput_view (s : Bcache) (b : Nat) (d : Block) :
    (bput b d s).view = Function.update s.view b (fillBlock (s.view b) d) := by
  funext c
  by_cases hc : c = b
  · subst hc
    simp only [Bcache.view, bput, Function.update_self, Option.getD_some]
  · simp only [Bcache.view, bput, Function.update_of_ne hc]

@[simp] lemma bwrite_disk (s : Bcache) (b : Nat) (d : Block) :
    (bwrite b d s).disk = Function.update s.disk b (fillBlock (s.disk b) d) := rfl

@[simp] lemma bwrite_view (s : Bcache) (b : Nat) (d : Block) :
    (bwrite b d s).view = Function.update s.view b (fillBlock (s.view b) d) := by
  funext c
  by_cases hc : c = b
  · subst hc
    simp only [Bcache.view, bwrite, Function.update_self, Option.getD_some]
  · simp only [Bcache.view, bwrite, Function.update_of_ne hc]

lemma bread_of_notMem {held : List Nat} {b : Nat} {s : Bcache} (h : b ∉ held) :
    bread held b s = .ok (s.view b, s.touch b) := if_neg h

lemma bread_nil {α : Type} {b : Nat} {s : Bcache} {f : Block × Bcache → Except Err α} :
    (bread [] b s >>= f) = f (s.view b, s.touch b) := by
  rw [bread_of_notMem List.not_mem_nil]
  rfl

/-- A `bread` that returns gives the block's contents and changes no contents. -/
lemma bread_ok {held : List Nat} {b : Nat} {s s' : Bcache} (h : bread held b s = .ok (d, s')) :
    b ∉ held ∧ d = s.view b ∧ s' = s.touch b := by
  by_cases hb : b ∈ held
  · rw [bread, if_pos hb] at h; exact nomatch h
  rw [bread_of_notMem hb] at h
  obtain ⟨rfl, rfl⟩ := Outcome.ok_pair_inj h
  exact ⟨hb, rfl, rfl⟩

end BufCache
