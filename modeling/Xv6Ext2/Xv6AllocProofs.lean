import Mathlib.Data.Finset.Card
import Mathlib.Data.Finset.Range
import Xv6Ext2.BufCacheProofs

/-! # Block allocation on the root device (fs.c)

    `xv6fs_balloc` and `xv6fs_bfree` over the buffer cache of the root device.  The functions change
    buffers and log them: `log_write` leaves the buffer in the cache until the transaction commits,
    so a later `bread` sees the change and the disk does not have it yet.

    The spec lemmas say how a call ends and what it does to the contents: `xv6fsBalloc`
    takes a block that was free and runs out only when none is left, `xv6fsBfree` of a
    block in use returns. -/

namespace Xv6Alloc

open ByteBlock BufCache Outcome

structure Superblock where
  size       : Nat
  nblocks    : Nat
  ninodes    : Nat
  nlog       : Nat
  logstart   : Nat
  inodestart : Nat
  bmapstart  : Nat
  deriving DecidableEq, Repr

/-- Bitmap bits per block. -/
def BPB : Nat := BSIZE * 8

/-- Block of free map containing bit for block `b`. -/
def BBLOCK (b : Nat) (sb : Superblock) : Nat := b / BPB + sb.bmapstart

/-- What `log_write` does to a buffer whose data is `d`.  Its tests and the header of the log are
    `Xv6Image.logBlock`. -/
def logWrite (b : Nat) (d : Block) (s : Bcache) : Bcache := bput b d s

def xv6fsBzero (held : List Nat) (bno : Nat) (s : Bcache) : Except Err Bcache := do
  let (_, s) ← bread held bno s
  .ok (logWrite bno (fun _ => 0) s)

/-- The inner loop of `xv6fs_balloc`: the first free bit from `bi` on. -/
def ballocBit (size b : Nat) (data : Block) : Nat → Nat → Option Nat
  | 0, _ => none
  | fuel + 1, bi =>
    if b + bi < size then
      if data (bi / 8) &&& bitMask (bi % 8) = 0 then some bi
      else ballocBit size b data fuel (bi + 1)
    else none

/-- The outer loop from block number `b` on. -/
def ballocFrom (sb : Superblock) (held : List Nat) :
    Nat → Nat → Bcache → Except Err (Nat × Bcache)
  | 0, _, _ => .error (.panic "balloc: out of blocks")
  | fuel + 1, b, s =>
    if b < sb.size then do
      let (data, s) ← bread held (BBLOCK b sb) s
      match ballocBit sb.size b data BPB 0 with
      | some bi => do
          let s := logWrite (BBLOCK b sb)
            (Function.update data (bi / 8) (data (bi / 8) ||| bitMask (bi % 8))) s
          let s ← xv6fsBzero held (b + bi) s
          .ok (b + bi, s)
      | none => ballocFrom sb held fuel (b + BPB) s
    else .error (.panic "balloc: out of blocks")

def xv6fsBalloc (sb : Superblock) (held : List Nat) (s : Bcache) :
    Except Err (Nat × Bcache) :=
  ballocFrom sb held (sb.size / BPB + 1) 0 s

def xv6fsBfree (sb : Superblock) (held : List Nat) (b : Nat) (s : Bcache) :
    Except Err Bcache := do
  let (data, s) ← bread held (BBLOCK b sb) s
  let bi := b % BPB
  if data (bi / 8) &&& bitMask (bi % 8) = 0 then
    .error (.panic "freeing free block")
  else
    .ok (logWrite (BBLOCK b sb)
      (Function.update data (bi / 8) (data (bi / 8) &&& ~~~bitMask (bi % 8))) s)

/-! ## The layout and the bitmap -/

/-- The first data block: the bitmap has `size / BPB + 1` blocks. -/
def dataStart (sb : Superblock) : Nat := sb.bmapstart + sb.size / BPB + 1

/-- A block that files use. -/
def DataBlock (sb : Superblock) (b : Nat) : Prop := dataStart sb ≤ b ∧ b < sb.size

def bitOf (sb : Superblock) (v : Disk) (b : Nat) : Bool :=
  blockBit (v (BBLOCK b sb)) (b % BPB)

/-- The number of blocks whose bit is clear. -/
def freeBlocks (sb : Superblock) (v : Disk) : Nat :=
  ((Finset.range sb.size).filter (fun b => bitOf sb v b = false)).card

/-- `xv6fs_balloc` panics, with fewer than `k` blocks free. -/
abbrev Short (sb : Superblock) (v : Disk) (k : Nat) (e : Err) : Prop :=
  e = .panic "balloc: out of blocks" ∧ freeBlocks sb v < k

/-- The contents once the bit of block `b` is set. -/
def marked (sb : Superblock) (v : Disk) (b : Nat) : Disk :=
  Function.update v (BBLOCK b sb)
    (fillBlock (v (BBLOCK b sb)) (setBit (v (BBLOCK b sb)) (b % BPB)))

/-- The contents once the bit of block `b` is clear. -/
def unmarked (sb : Superblock) (v : Disk) (b : Nat) : Disk :=
  Function.update v (BBLOCK b sb)
    (fillBlock (v (BBLOCK b sb)) (clearBit (v (BBLOCK b sb)) (b % BPB)))

/-- The contents once block `b` is zero. -/
def zeroed (v : Disk) (b : Nat) : Disk := Function.update v b (fillBlock (v b) (fun _ => 0))

lemma BPB_pos : 0 < BPB := by decide

lemma bmapstart_lt_dataStart (sb : Superblock) : sb.bmapstart < dataStart sb :=
  Nat.lt_succ_of_le (Nat.le_add_right _ _)

lemma bmapstart_le_BBLOCK (sb : Superblock) (b : Nat) : sb.bmapstart ≤ BBLOCK b sb :=
  Nat.le_add_left _ _

variable {sb : Superblock} {b : Nat}

lemma BBLOCK_lt (h : b < sb.size) : BBLOCK b sb < dataStart sb := by
  have : b / BPB ≤ sb.size / BPB := Nat.div_le_div_right h.le
  unfold BBLOCK dataStart
  omega

variable {c : Nat}

lemma BBLOCK_ne (hb : b < sb.size) (hc : dataStart sb ≤ c) : BBLOCK b sb ≠ c := by
  have := BBLOCK_lt hb
  omega

/-- Two blocks share a bitmap block when they have the same quotient. -/
lemma BBLOCK_inj (h : BBLOCK b sb = BBLOCK c sb) : b / BPB = c / BPB := by
  unfold BBLOCK at h
  omega

lemma bitOf_marked (sb : Superblock) (v : Disk) (b c : Nat) :
    bitOf sb (marked sb v b) c = (bitOf sb v c || decide (c = b)) := by
  unfold bitOf marked
  by_cases h : BBLOCK c sb = BBLOCK b sb
  · have hq := BBLOCK_inj h
    have heq : decide (b % BPB = c % BPB) = decide (c = b) := by
      refine decide_eq_decide.mpr ⟨fun hm => ?_, fun e => by rw [e]⟩
      rw [← Nat.div_add_mod c BPB, ← Nat.div_add_mod b BPB, hq, hm]
    have hlt : c % BPB < 8 * BSIZE := Nat.mod_lt _ BPB_pos
    rw [h, Function.update_self, blockBit_fillBlock hlt, blockBit_setBit, heq]
  · have hne : c ≠ b := fun e => h (by rw [e])
    rw [Function.update_of_ne h, decide_eq_false hne, Bool.or_false]

lemma bitOf_unmarked (sb : Superblock) (v : Disk) (b c : Nat) :
    bitOf sb (unmarked sb v b) c = (bitOf sb v c && !decide (c = b)) := by
  unfold bitOf unmarked
  by_cases h : BBLOCK c sb = BBLOCK b sb
  · have hq := BBLOCK_inj h
    have heq : decide (b % BPB = c % BPB) = decide (c = b) := by
      refine decide_eq_decide.mpr ⟨fun hm => ?_, fun e => by rw [e]⟩
      rw [← Nat.div_add_mod c BPB, ← Nat.div_add_mod b BPB, hq, hm]
    have hlt : c % BPB < 8 * BSIZE := Nat.mod_lt _ BPB_pos
    rw [h, Function.update_self, blockBit_fillBlock hlt, blockBit_clearBit, heq]
  · have hne : c ≠ b := fun e => h (by rw [e])
    rw [Function.update_of_ne h, decide_eq_false hne, Bool.not_false, Bool.and_true]

variable {v v' : Disk}

lemma bitOf_congr (h : v' (BBLOCK c sb) = v (BBLOCK c sb)) : bitOf sb v' c = bitOf sb v c := by
  unfold bitOf
  rw [h]

lemma freeBlocks_taken (hb : b < sb.size) (hfree : bitOf sb v b = false)
    (h : ∀ c < sb.size, bitOf sb v' c = (bitOf sb v c || decide (c = b))) :
    freeBlocks sb v = freeBlocks sb v' + 1 := by
  have herase : (Finset.range sb.size).filter (fun c => bitOf sb v' c = false) =
      ((Finset.range sb.size).filter (fun c => bitOf sb v c = false)).erase b := by
    ext c
    rw [Finset.mem_erase, Finset.mem_filter, Finset.mem_filter, Finset.mem_range]
    constructor
    · rintro ⟨hc, hbit⟩
      rw [h c hc, Bool.or_eq_false_iff, decide_eq_false_iff_not] at hbit
      exact ⟨hbit.2, hc, hbit.1⟩
    · rintro ⟨hne, hc, hbit⟩
      rw [h c hc, hbit, decide_eq_false hne]
      exact ⟨hc, rfl⟩
  have hmem : b ∈ (Finset.range sb.size).filter (fun c => bitOf sb v c = false) := by
    rw [Finset.mem_filter, Finset.mem_range]
    exact ⟨hb, hfree⟩
  unfold freeBlocks
  rw [herase, Finset.card_erase_of_mem hmem]
  have := Finset.card_pos.mpr ⟨b, hmem⟩
  omega

lemma freeBlocks_congr
    (h : ∀ c < sb.size, bitOf sb v' c = bitOf sb v c) : freeBlocks sb v' = freeBlocks sb v := by
  unfold freeBlocks
  refine congrArg Finset.card (Finset.filter_congr (fun c hc => ?_))
  rw [h c (Finset.mem_range.mp hc)]

lemma freeBlocks_eq_zero (h : ∀ c < sb.size, bitOf sb v c = true) : freeBlocks sb v = 0 := by
  unfold freeBlocks
  rw [Finset.card_eq_zero, Finset.filter_eq_empty_iff]
  intro c hc
  rw [h c (Finset.mem_range.mp hc)]
  decide

/-! ## How the two functions end -/

lemma ballocBit_spec (size b : Nat) (data : Block) (fuel bi : Nat) :
    match ballocBit size b data fuel bi with
    | some k => bi ≤ k ∧ k < bi + fuel ∧ b + k < size ∧ blockBit data k = false
    | none => ∀ k, bi ≤ k → k < bi + fuel → b + k < size → blockBit data k = true := by
  induction fuel generalizing bi with
  | zero =>
    intro k h1 h2
    omega
  | succ fuel ih =>
    rw [ballocBit]
    by_cases hlt : b + bi < size
    · rw [if_pos hlt]
      by_cases hz : data (bi / 8) &&& bitMask (bi % 8) = 0
      · rw [if_pos hz]
        exact ⟨le_rfl, by omega, hlt, (and_mask_eq_zero (Nat.mod_lt _ (by decide))).mp hz⟩
      rw [if_neg hz]
      have hset : blockBit data bi = true := by
        rwa [and_mask_eq_zero (Nat.mod_lt _ (by decide)), Bool.not_eq_false] at hz
      have hrec := ih (bi + 1)
      cases hr : ballocBit size b data fuel (bi + 1) with
      | some k =>
        rw [hr] at hrec
        exact ⟨by omega, by omega, hrec.2.2⟩
      | none =>
        rw [hr] at hrec
        intro k h1 h2 h3
        by_cases hk : k = bi
        · rw [hk]; exact hset
        · exact hrec k (by omega) (by omega) h3
    · rw [if_neg hlt]
      intro k h1 _ h3
      omega

/-- What a call of `xv6fs_balloc` returns: a block that was free, now marked and zero. -/
def Taken (sb : Superblock) (s : Bcache) (r : Nat × Bcache) : Prop :=
  r.1 < sb.size ∧ bitOf sb s.view r.1 = false ∧
    r.2.view = zeroed (marked sb s.view r.1) r.1

lemma ballocFrom_sat (sb : Superblock) (held : List Nat) (fuel : Nat) :
    ∀ (i : Nat) (s : Bcache), i + fuel = sb.size / BPB + 1 →
      (∀ x ∈ held, dataStart sb ≤ x ∧ (x < sb.size → bitOf sb s.view x = true)) →
      Sat (ballocFrom sb held fuel (i * BPB) s) (Taken sb s)
        (fun e => e = .panic "balloc: out of blocks" ∧
          ∀ c < sb.size, i * BPB ≤ c → bitOf sb s.view c = true) := by
  induction fuel with
  | zero =>
    intro i s hi _
    refine Sat.error ⟨rfl, fun c hc hle => ?_⟩
    -- the bitmap blocks are used up
    have := Nat.lt_mul_div_succ sb.size BPB_pos
    rw [Nat.add_zero] at hi
    rw [hi, Nat.mul_comm] at hle
    omega
  | succ fuel ih =>
    intro i s hi hheld
    rw [ballocFrom]
    split
    · next hlt =>
      have hbb : BBLOCK (i * BPB) sb ∉ held := by
        intro hmem
        exact BBLOCK_ne hlt (hheld _ hmem).1 rfl
      rw [bread_of_notMem hbb, ok_bind]
      dsimp only
      have hspec := ballocBit_spec sb.size (i * BPB) (s.view (BBLOCK (i * BPB) sb)) BPB 0
      -- the blocks whose bits stand in this bitmap block
      have hblk : ∀ k < BPB, BBLOCK (i * BPB + k) sb = BBLOCK (i * BPB) sb ∧
          (i * BPB + k) % BPB = k := by
        intro k hk
        unfold BBLOCK
        rw [Nat.mul_comm i BPB, Nat.mul_add_div BPB_pos, Nat.div_eq_of_lt hk,
          Nat.mul_add_mod, Nat.mod_eq_of_lt hk, Nat.mul_div_cancel_left _ BPB_pos]
        exact ⟨rfl, rfl⟩
      have hbit : ∀ k < BPB, bitOf sb s.view (i * BPB + k) =
          blockBit (s.view (BBLOCK (i * BPB) sb)) k := by
        intro k hk
        unfold bitOf
        rw [(hblk k hk).1, (hblk k hk).2]
      cases hr : ballocBit sb.size (i * BPB) (s.view (BBLOCK (i * BPB) sb)) BPB 0 with
      | some k =>
        rw [hr] at hspec
        obtain ⟨-, hk, hsize, hclear⟩ := hspec
        rw [Nat.zero_add] at hk
        rw [← hbit k hk] at hclear
        have hfree : i * BPB + k ∉ held := by
          intro hmem
          rw [(hheld _ hmem).2 hsize] at hclear
          exact nomatch hclear
        dsimp only
        rw [xv6fsBzero, bread_of_notMem hfree, ok_bind, ok_bind]
        refine Sat.ok ⟨hsize, hclear, ?_⟩
        dsimp only
        rw [logWrite, bput_view, touch_view, logWrite, bput_view, touch_view]
        unfold zeroed marked
        rw [(hblk k hk).1, (hblk k hk).2]
        rfl
      | none =>
        rw [hr] at hspec
        have hrec := ih (i + 1) (s.touch (BBLOCK (i * BPB) sb)) (by omega)
          (by rw [touch_view]; exact hheld)
        rw [Nat.succ_mul] at hrec
        unfold Taken at hrec ⊢
        rw [touch_view] at hrec
        refine hrec.mono (fun r h => h) (fun e he => ⟨he.1, fun c hc hle => ?_⟩)
        by_cases hc' : i * BPB + BPB ≤ c
        · exact he.2 c hc hc'
        · rw [show c = i * BPB + (c - i * BPB) by omega, hbit _ (by omega)]
          exact hspec _ (Nat.zero_le _) (by omega) (by omega)
    · exact Sat.error ⟨rfl, fun c hc hle => by omega⟩

/-- `xv6fs_balloc` takes a free block, or there is none.  The buffers that the caller
    holds are of data blocks in use. -/
lemma xv6fsBalloc_sat (sb : Superblock) (held : List Nat) (s : Bcache)
    (hheld : ∀ x ∈ held, dataStart sb ≤ x ∧ (x < sb.size → bitOf sb s.view x = true)) :
    Sat (xv6fsBalloc sb held s) (Taken sb s)
      (fun e => e = .panic "balloc: out of blocks" ∧ freeBlocks sb s.view = 0) := by
  have h := ballocFrom_sat sb held (sb.size / BPB + 1) 0 s (Nat.zero_add _) hheld
  rw [Nat.zero_mul] at h
  exact h.mono (fun r hr => hr)
    (fun e he => ⟨he.1, freeBlocks_eq_zero (fun c hc => he.2 c hc (Nat.zero_le c))⟩)

lemma xv6fsBfree_sat (sb : Superblock) (held : List Nat) (b : Nat) (s : Bcache)
    (hheld : BBLOCK b sb ∉ held) (hbit : bitOf sb s.view b = true) :
    Sat (xv6fsBfree sb held b s) (fun s' => s'.view = unmarked sb s.view b) (fun _ => False) := by
  have hset : ¬(s.view (BBLOCK b sb) (b % BPB / 8) &&& bitMask (b % BPB % 8) = 0) := by
    rwa [and_mask_eq_zero (Nat.mod_lt _ (by decide)), Bool.not_eq_false]
  rw [xv6fsBfree, bread_of_notMem hheld, ok_bind]
  dsimp only
  rw [if_neg hset]
  refine Sat.ok ?_
  rw [logWrite, bput_view, touch_view]
  rfl

end Xv6Alloc
