import Xv6Ext2.Ext2LayoutProofs
import Xv6Ext2.RunsProofs

/-! # `ext2fs_bfree` against `ext2fs_balloc`

    The two functions compute the bitmap block and the bit of a block by different formulas.
    `ext2fs_balloc` takes the group of the inode and the first clear bit of its scan; `ext2fs_bfree`
    divides the block number by the number of *inodes* in a group, subtracts the bitmap's block
    number from the remainder and counts the bits of a byte from the other end.

    - `Inverse` : the two formulas meet on the block that is handed out;
    - `balloc_bfree_inverse` : freeing the block that was just allocated restores every
      bitmap exactly when they meet, and in runs in which they meet at every
      allocation the live blocks are distinct and can be freed. -/

namespace Ext2RoundTrip

open ByteBlock BufCache Outcome Runs Ext2Alloc Ext2Layout

/-- Freeing the block that `ext2fs_balloc` returns gives back the block bitmaps of
    the first `n` groups. -/
def RoundTrip (sb : Ext2Super) (n : Nat) (s : Bcache) (inum : Nat) : Prop :=
  ∀ b s', ext2fsBalloc sb [] inum s = .ok (b, s') →
    ∃ s'', ext2fsBfree sb [] b s' = .ok s'' ∧
      ∀ g < n, ∀ k < 8 * BSIZE,
        blockBit (s''.view (bgBlockBitmap (s.view 2) g)) k =
          blockBit (s.view (bgBlockBitmap (s.view 2) g)) k

/-- Block `b`, which stands for bit `f` of the scan of bitmap block `bb`, leads
    `ext2fs_bfree` back to this bit. -/
structure LeadsBack (sb : Ext2Super) (desc : Block) (bb f b : Nat) : Prop where
  block : b = (bb + f) % 2 ^ 32
  desc  : bgBlockBitmap desc (getGroupNo b sb) = bb
  index : getInodeIndex b sb = (bb + scanIdx f) % 2 ^ 32

/-- Bit `f` of the scan for inode `inum` can be taken and given back: the block's own
    number leads back to it, the block is not the descriptor block, and where it is a
    group's bitmap, this bitmap is empty. -/
structure Inverse (sb : Ext2Super) (n : Nat) (v : Disk) (inum f : Nat) : Prop where
  back        : LeadsBack sb (v 2) (bitmapOf sb v inum) f ((bitmapOf sb v inum + f) % 2 ^ 32)
  bitmap_ne   : bitmapOf sb v inum ≠ 2
  block_ne    : (bitmapOf sb v inum + f) % 2 ^ 32 ≠ 2
  bitmap_zero : ∀ g < n, bgBlockBitmap (v 2) g = (bitmapOf sb v inum + f) % 2 ^ 32 →
    ∀ k < 8 * BSIZE, blockBit (v ((bitmapOf sb v inum + f) % 2 ^ 32)) k = false

/-! ## The two index formulas -/

lemma pred32_lt (x : Nat) : pred32 x < 2 ^ 32 := Nat.mod_lt _ (by decide)

lemma getInodeIndex_lt (b : Nat) (sb : Ext2Super) : getInodeIndex b sb < 2 ^ 32 :=
  Nat.lt_of_le_of_lt (Nat.mod_le _ _) (pred32_lt b)

lemma freeIdx_eq_iff {r bb k : Nat} (hr : r < 2 ^ 32) (hk : k < 2 ^ 32) :
    freeIdx r bb = k ↔ r = (bb + k) % 2 ^ 32 := by
  unfold freeIdx
  omega

lemma scanIdx_lt_pow {f : Nat} (hf : f < 8 * BSIZE) : scanIdx f < 2 ^ 32 :=
  Nat.lt_trans (scanIdx_lt hf) (by decide)

variable {sb : Ext2Super} {desc : Block} {b : Nat}

/-- The bit that `ext2fs_bfree` clears, once the bitmap block is the right one. -/
lemma LeadsBack.freeIdx_eq {bb f : Nat} (h : LeadsBack sb desc bb f b) (hf : f < 8 * BSIZE) :
    freeIdx (getInodeIndex b sb) bb = scanIdx f :=
  (freeIdx_eq_iff (getInodeIndex_lt b sb) (scanIdx_lt_pow hf)).mpr h.index

lemma LeadsBack.unique {bb bb' f f' : Nat}
    (h : LeadsBack sb desc bb f b) (h' : LeadsBack sb desc bb' f' b)
    (hf : f < 8 * BSIZE) (hf' : f' < 8 * BSIZE) : bb = bb' ∧ f = f' := by
  obtain rfl : bb = bb' := h.desc.symm.trans h'.desc
  have hidx : scanIdx f = scanIdx f' := by
    rw [← h.freeIdx_eq hf, ← h'.freeIdx_eq hf']
  refine ⟨rfl, ?_⟩
  rw [← scanIdx_scanIdx f, hidx, scanIdx_scanIdx]

lemma FirstClear.lt_of_free {b : Block} {f : Nat} (hf : FirstClear b f)
    (h : ∃ k < 8 * BSIZE, blockBit b k = false) : f < 8 * BSIZE := by
  obtain ⟨k, hk, hclear⟩ := h
  by_contra hge
  have hlt : scanIdx k < f := Nat.lt_of_lt_of_le (scanIdx_lt hk) (Nat.le_of_not_lt hge)
  have hset := hf.before _ hlt
  rw [scanBit, scanIdx_scanIdx, hclear] at hset
  exact nomatch hset

lemma ext2fsBfree_view {s s' : Bcache} (h : ext2fsBfree sb [] b s = .ok s') :
    (∀ c, c ≠ bitmapOf sb s.view b → s'.view c = s.view c) ∧
    ∀ k < 8 * BSIZE, blockBit (s'.view (bitmapOf sb s.view b)) k =
      (blockBit (s.view (bitmapOf sb s.view b)) k &&
        !decide (freeIdx (getInodeIndex b sb) (bitmapOf sb s.view b) = k)) := by
  obtain ⟨-, -, -, -, -, rfl⟩ := ext2fsBfree_ok h
  refine ⟨fun c hc => ?_, fun k hk => ?_⟩
  · rw [bwrite_view, Function.update_of_ne hc, touch_view, touch_view]
  · rw [bwrite_view, Function.update_self, blockBit_fillBlock hk, blockBit_clearBit]

/-! ## One allocation and the free that follows it -/

section OneCall

variable {sb : Ext2Super} {n : Nat} {s : Bcache} {inum f : Nat}

/-- The descriptors are read from block 2, which a call leaves alone unless it is the
    bitmap or the new block. -/
lemma allocated_desc {bb b : Nat} {d : Block} (hne : b ≠ bb) (h1 : bb ≠ 2) (h2 : b ≠ 2) (c : Nat) :
    bitmapOf sb (allocated s bb d b).view c = bitmapOf sb s.view c := by
  unfold bitmapOf
  rw [allocated_view_of_ne hne h1.symm h2.symm]

/-- Zeroing block 2 makes `ext2fs_bfree` take block 0 for the bitmap. -/
lemma bitmapOf_zeroed_desc {bb : Nat} {d : Block} (hne : 2 ≠ bb) :
    bitmapOf sb (allocated s bb d 2).view 2 = 0 := by
  have hgno : getGroupNo 2 sb ≤ 1 := by
    show 1 / sb.sInodesPerGroup ≤ 1
    exact Nat.div_le_self _ _
  show getLE _ 4 (getGroupNo 2 sb * 32) = 0
  rw [allocated_view s d hne, Function.update_self,
    getLE_fillBlock (by unfold BSIZE; omega), getLE_zero (fun _ _ _ => rfl)]

lemma inverse_of_roundTrip (hipg : 0 < sb.sInodesPerGroup)
    (hbpg : sb.sBlocksPerGroup = 8192) (hg : getGroupNo inum sb < n)
    (hf : FirstClear (s.view (bitmapOf sb s.view inum)) f) (hf8 : f < 8 * BSIZE)
    (hf0 : f ≠ 0) (h : RoundTrip sb n s inum) : Inverse sb n s.view inum f := by
  have hB := bitmapOf_lt sb s.view inum
  obtain ⟨bb, hbb⟩ : ∃ bb, bb = bitmapOf sb s.view inum := ⟨_, rfl⟩
  have hne : (bb + f) % 2 ^ 32 ≠ bb := by
    rw [hbb]; unfold BSIZE at hf8; omega
  have hlt : f < scanLimit sb := by
    unfold scanLimit BSIZE at *; rw [hbpg]; omega
  obtain ⟨s'', hfree, hbits⟩ := h _ _ (ext2fsBalloc_returns hipg List.not_mem_nil
    List.not_mem_nil hf hlt (by rw [← hbb]; simpa using hne))
  rw [← hbb] at hf hfree hB
  obtain ⟨b, hb⟩ : ∃ b, b = (bb + f) % 2 ^ 32 := ⟨_, rfl⟩
  rw [← hb] at hfree hne
  obtain ⟨hother, hbit⟩ := ext2fsBfree_view hfree
  obtain ⟨-, h2, -, -, -, -⟩ := ext2fsBfree_ok hfree
  -- the bit that was set must be clear again
  have hk := hbits _ hg (scanIdx f) (scanIdx_lt hf8)
  rw [show bgBlockBitmap (s.view 2) (getGroupNo inum sb) = bb from hbb.symm,
    show blockBit (s.view bb) (scanIdx f) = false from hf.clear] at hk
  have hset : blockBit ((allocated s bb (setBit (s.view bb) (scanIdx f)) b).view bb)
      (scanIdx f) = true := by
    rw [allocated_bit_bitmap hne (scanIdx_lt hf8)]; simp
  have hbb' : bitmapOf sb (allocated s bb (setBit (s.view bb) (scanIdx f)) b).view b = bb := by
    by_contra hc
    rw [hother bb (Ne.symm hc), hset] at hk
    exact nomatch hk
  rw [hbb'] at h2 hbit
  rw [hbit _ (scanIdx_lt hf8), hset] at hk
  have hidx : freeIdx (getInodeIndex b sb) bb = scanIdx f := by simpa using hk
  have hindex := (freeIdx_eq_iff (getInodeIndex_lt b sb) (scanIdx_lt_pow hf8)).mp hidx
  have hb2 : b ≠ 2 := by
    intro e
    subst e
    rw [bitmapOf_zeroed_desc hne] at hbb'
    -- then the bitmap is block 0, the bit is 2 and the remainder at most 1
    have : getInodeIndex 2 sb ≤ 1 := Nat.mod_le 1 sb.sInodesPerGroup
    unfold scanIdx BSIZE at *
    omega
  rw [allocated_desc hne h2 hb2] at hbb'
  rw [hbb] at hb
  refine ⟨⟨rfl, ?_, ?_⟩, hbb ▸ h2, hb ▸ hb2, ?_⟩
  · rw [← hb]; exact hbb'.trans hbb
  · rw [← hb, ← hbb]; exact hindex
  · intro g hgn hgb k hk
    have hz := hbits g hgn k hk
    rw [hgb, ← hb, hother b (by rw [allocated_desc hne h2 hb2, hbb']; exact hne),
      allocated_bit_zeroed hne hk] at hz
    rw [← hb]
    exact hz.symm

lemma roundTrip_of_inverse
    (hfree : ∃ k < 8 * BSIZE, blockBit (s.view (bitmapOf sb s.view inum)) k = false)
    (h : 0 < sb.sInodesPerGroup → ∀ f, FirstClear (s.view (bitmapOf sb s.view inum)) f →
      f = 0 ∨ Inverse sb n s.view inum f) : RoundTrip sb n s inum := by
  intro b s' hr
  obtain ⟨hipg, -, -, f, hf, -, hb, hne, -, rfl⟩ := ext2fsBalloc_ok hr
  have hB := bitmapOf_lt sb s.view inum
  have hf8 := FirstClear.lt_of_free hf hfree
  have hinv : Inverse sb n s.view inum f := by
    rcases h hipg f hf with rfl | hinv
    · rw [Nat.add_zero, Nat.mod_eq_of_lt hB] at hb
      exact absurd hb hne
    · exact hinv
  obtain ⟨hback, h2, hb2, hzero⟩ := hinv
  rw [← hb] at hback hb2 hzero
  obtain ⟨bb, hbb⟩ : ∃ bb, bb = bitmapOf sb s.view inum := ⟨_, rfl⟩
  rw [← hbb] at hf hne hB hback h2 ⊢
  have hdesc : bitmapOf sb (allocated s bb (setBit (s.view bb) (scanIdx f)) b).view b = bb :=
    (allocated_desc hne h2 hb2 b).trans hback.desc
  have hidx := hback.freeIdx_eq hf8
  obtain ⟨s'', hs''⟩ : ∃ s'', ext2fsBfree sb [] b
      (allocated s bb (setBit (s.view bb) (scanIdx f)) b) = .ok s'' :=
    ext2fsBfree_returns hipg List.not_mem_nil
      (by rw [hdesc]; simpa using h2) (by rw [hdesc, hidx]; exact scanIdx_lt hf8)
      (by rw [hdesc, hidx, allocated_bit_bitmap hne (scanIdx_lt hf8)]; simp)
  obtain ⟨hother, hbit⟩ := ext2fsBfree_view hs''
  rw [hdesc] at hother hbit
  refine ⟨s'', hs'', fun g hg k hk => ?_⟩
  by_cases hgB : bgBlockBitmap (s.view 2) g = bb
  · rw [hgB, hbit k hk, hidx, allocated_bit_bitmap hne hk]
    by_cases hik : scanIdx f = k
    · subst hik
      have hclear : blockBit (s.view bb) (scanIdx f) = false := hf.clear
      rw [hclear]
      simp
    · simp [hik]
  · rw [hother _ hgB]
    by_cases hgb : bgBlockBitmap (s.view 2) g = b
    · rw [hgb, allocated_bit_zeroed hne hk, hzero g hg hgb k hk]
    · rw [allocated_view_of_ne hne hgB hgb]

end OneCall

/-! ## Runs of allocations and frees -/

/-- The device and the blocks that are allocated and not yet freed. -/
structure AllocState where
  bc   : Bcache
  live : List Nat

inductive AllocAct where
  | balloc (inum : Nat)
  | bfree (b : Nat)

def allocStep (sb : Ext2Super) (s : AllocState) : AllocAct → Except Err AllocState
  | .balloc inum => do
      let (b, bc) ← ext2fsBalloc sb [] inum s.bc
      .ok ⟨bc, b :: s.live⟩
  | .bfree b => do
      let bc ← ext2fsBfree sb [] b s.bc
      .ok ⟨bc, s.live.erase b⟩

/-- An allocation for an inode of the first `n` groups, in whose bitmap the first clear
    bit can be taken and given back; a free of a live block. -/
def AllocGood (sb : Ext2Super) (n : Nat) (s : AllocState) : AllocAct → Prop
  | .balloc inum => getGroupNo inum sb < n ∧
      (∃ k < 8 * BSIZE, blockBit (s.bc.view (bitmapOf sb s.bc.view inum)) k = false) ∧
      ∀ f, FirstClear (s.bc.view (bitmapOf sb s.bc.view inum)) f →
        f = 0 ∨ Inverse sb n s.bc.view inum f
  | .bfree b => b ∈ s.live

/-- A live block leads back to a set bit of one of the `n` bitmaps. -/
structure Home (sb : Ext2Super) (n : Nat) (v : Disk) (b : Nat) : Prop where
  inodes_pos : 0 < sb.sInodesPerGroup
  home : ∃ g < n, ∃ f < 8 * BSIZE, bgBlockBitmap (v 2) g ≠ 2 ∧
    LeadsBack sb (v 2) (bgBlockBitmap (v 2) g) f b ∧
    blockBit (v (bgBlockBitmap (v 2) g)) (scanIdx f) = true

/-- Live blocks are distinct and each has its bit. -/
structure LiveInv (sb : Ext2Super) (n : Nat) (s : AllocState) : Prop where
  nodup : s.live.Nodup
  home  : ∀ b ∈ s.live, Home sb n s.bc.view b

variable {s' : AllocState} {n : Nat}

lemma liveInv_balloc {s : AllocState} {inum : Nat}
    (hs : LiveInv sb n s) (hgood : AllocGood sb n s (.balloc inum))
    (h : allocStep sb s (.balloc inum) = .ok s') : LiveInv sb n s' := by
  obtain ⟨⟨b, bc⟩, hr, h⟩ := bind_eq_ok.mp h
  obtain rfl := Except.ok.inj h
  obtain ⟨hg, hfree, hinv⟩ := hgood
  obtain ⟨hipg, -, -, f, hf, -, hb, hne, -, rfl⟩ := ext2fsBalloc_ok hr
  have hB := bitmapOf_lt sb s.bc.view inum
  have hf8 := FirstClear.lt_of_free hf hfree
  obtain ⟨hback, h2, hb2, hzero⟩ : Inverse sb n s.bc.view inum f := by
    rcases hinv f hf with rfl | hinv
    · rw [Nat.add_zero, Nat.mod_eq_of_lt hB] at hb
      exact absurd hb hne
    · exact hinv
  rw [← hb] at hback hb2 hzero
  obtain ⟨bb, hbb⟩ : ∃ bb, bb = bitmapOf sb s.bc.view inum := ⟨_, rfl⟩
  rw [← hbb] at hf hne hback h2 ⊢
  have hdesc : (allocated s.bc bb (setBit (s.bc.view bb) (scanIdx f)) b).view 2
      = s.bc.view 2 := allocated_view_of_ne hne h2.symm hb2.symm
  refine ⟨List.nodup_cons.mpr ⟨fun hmem => ?_, hs.nodup⟩, fun c hc => ?_⟩
  · -- a live block's bit is set, the bit of the new block was clear
    obtain ⟨g, -, f', hf8', -, hback', hset⟩ := (hs.home b hmem).home
    obtain ⟨hbb', rfl⟩ := hback.unique hback' hf8 hf8'
    rw [← hbb'] at hset
    have hclear : blockBit (s.bc.view bb) (scanIdx f) = false := hf.clear
    rw [hclear] at hset
    exact nomatch hset
  · rcases List.mem_cons.mp hc with rfl | hmem
    · refine ⟨hipg, getGroupNo inum sb, hg, f, hf8, ?_⟩
      rw [hdesc, show bgBlockBitmap (s.bc.view 2) (getGroupNo inum sb) = bb from hbb.symm]
      refine ⟨h2, hback, ?_⟩
      rw [allocated_bit_bitmap hne (scanIdx_lt hf8)]
      simp
    obtain ⟨hipg', g, hgn, f', hf8', hg2, hback', hset⟩ := hs.home c hmem
    refine ⟨hipg', g, hgn, f', hf8', ?_⟩
    rw [hdesc]
    refine ⟨hg2, hback', ?_⟩
    by_cases hgB : bgBlockBitmap (s.bc.view 2) g = bb
    · rw [hgB] at hset ⊢
      rw [allocated_bit_bitmap hne (scanIdx_lt hf8'), hset, Bool.true_or]
    by_cases hgb : bgBlockBitmap (s.bc.view 2) g = b
    · rw [hgb, hzero g hgn hgb _ (scanIdx_lt hf8')] at hset
      exact nomatch hset
    · rwa [allocated_view_of_ne hne hgB hgb]

/-- The bit that `ext2fs_bfree` of a live block clears. -/
lemma Home.freeIdx_eq {v : Disk} (h : Home sb n v b) :
    ∃ g < n, ∃ f < 8 * BSIZE, bgBlockBitmap (v 2) g ≠ 2 ∧ bitmapOf sb v b ≠ 2 ∧
      LeadsBack sb (v 2) (bitmapOf sb v b) f b ∧
      freeIdx (getInodeIndex b sb) (bitmapOf sb v b) = scanIdx f ∧
      blockBit (v (bitmapOf sb v b)) (scanIdx f) = true := by
  obtain ⟨-, g, hg, f, hf8, h2, hback, hset⟩ := h
  have hdesc : bitmapOf sb v b = bgBlockBitmap (v 2) g := hback.desc
  rw [hdesc]
  exact ⟨g, hg, f, hf8, h2, h2, hback, hback.freeIdx_eq hf8, hset⟩

lemma Home.bfree_returns {s : Bcache}
    (h : Home sb n s.view b) : ∃ s', ext2fsBfree sb [] b s = .ok s' := by
  obtain ⟨-, -, f, hf8, -, h2, -, hidx, hset⟩ := h.freeIdx_eq
  exact ext2fsBfree_returns h.inodes_pos List.not_mem_nil (by simpa using h2)
    (by rw [hidx]; exact scanIdx_lt hf8) (by rw [hidx]; exact hset)

lemma liveInv_bfree {s : AllocState} (hs : LiveInv sb n s)
    (hlive : b ∈ s.live) (h : allocStep sb s (.bfree b) = .ok s') : LiveInv sb n s' := by
  obtain ⟨bc, hr, h⟩ := bind_eq_ok.mp h
  obtain rfl := Except.ok.inj h
  obtain ⟨hother, hbit⟩ := ext2fsBfree_view hr
  obtain ⟨-, -, f, hf8, -, h2, hback, hidx, -⟩ := (hs.home b hlive).freeIdx_eq
  have hdesc : bc.view 2 = s.bc.view 2 := hother 2 h2.symm
  refine ⟨hs.nodup.erase b, fun c hc => ?_⟩
  obtain ⟨hcb, hmem⟩ := (List.Nodup.mem_erase_iff hs.nodup).mp hc
  obtain ⟨hipg, g, hgn, f', hf8', hg2, hback', hset⟩ := hs.home c hmem
  refine ⟨hipg, g, hgn, f', hf8', ?_⟩
  rw [hdesc]
  refine ⟨hg2, hback', ?_⟩
  by_cases hgB : bgBlockBitmap (s.bc.view 2) g = bitmapOf sb s.bc.view b
  · -- same bitmap: another block has another bit
    rw [hgB] at hset hback' ⊢
    have hne : scanIdx f ≠ scanIdx f' := by
      intro e
      have hff : f = f' := by rw [← scanIdx_scanIdx f, e, scanIdx_scanIdx]
      rw [← hff] at hback'
      exact hcb (hback'.block.trans hback.block.symm)
    rw [hbit _ (scanIdx_lt hf8'), hset, hidx]
    simp [hne]
  · rwa [hother _ hgB]

lemma liveInv_step (s : AllocState) (a : AllocAct) (s' : AllocState) (hs : LiveInv sb n s)
    (hgood : AllocGood sb n s a) (h : allocStep sb s a = .ok s') : LiveInv sb n s' := by
  cases a with
  | balloc inum => exact liveInv_balloc hs hgood h
  | bfree b => exact liveInv_bfree hs hgood h

/-- **Main result.**  For groups of 8192 blocks, freeing the block just allocated gives back every
    bitmap exactly when the first clear bit of the scan is bit 0 (then no block is returned) or one
    to which the block's number leads back; with no inodes in a group the division traps.  In a run
    all of whose allocations meet this condition, the live blocks are pairwise distinct and each of
    them can be freed. -/
theorem balloc_bfree_inverse {sb : Ext2Super} (hbpg : sb.sBlocksPerGroup = 8192) (n : Nat) :
    (∀ (s : Bcache) (inum : Nat), getGroupNo inum sb < n →
      (∃ k < 8 * BSIZE, blockBit (s.view (bitmapOf sb s.view inum)) k = false) →
      (RoundTrip sb n s inum ↔ (0 < sb.sInodesPerGroup →
        ∀ f, FirstClear (s.view (bitmapOf sb s.view inum)) f →
          f = 0 ∨ Inverse sb n s.view inum f))) ∧
    (∀ (as : List AllocAct) (s u : AllocState), s.live = [] →
      AllSteps (allocStep sb) (AllocGood sb n) as s → exec (allocStep sb) as s = .ok u →
      u.live.Nodup ∧ ∀ b ∈ u.live, ∃ bc, ext2fsBfree sb [] b u.bc = .ok bc) := by
  refine ⟨fun s inum hg hfree => ⟨fun h hipg f hf => ?_, roundTrip_of_inverse hfree⟩,
    fun as s u hlive hgood h => ?_⟩
  · by_cases hf0 : f = 0
    · exact .inl hf0
    · exact .inr (inverse_of_roundTrip hipg hbpg hg hf (FirstClear.lt_of_free hf hfree) hf0 h)
  · have hs : LiveInv sb n s := ⟨hlive ▸ List.nodup_nil, fun b hb => nomatch (hlive ▸ hb : b ∈ [])⟩
    have hu := exec_invariant liveInv_step as s u hs hgood h
    exact ⟨hu.nodup, fun b hb => (hu.home b hb).bfree_returns⟩

/-- The bitmap in block 4, with the upper half of its second byte in use: the block
    handed out is 16, and its number leads back to the bit. -/
theorem balloc_bfree_inverse_smallImage : RoundTrip smallSuper 1 (smallImage 4 240) 1 := by
  have hf : FirstClear
      ((smallImage 4 240).view (bitmapOf smallSuper (smallImage 4 240).view 1)) 12 :=
    ⟨by decide, by decide⟩
  refine ((balloc_bfree_inverse (rfl : smallSuper.sBlocksPerGroup = 8192) 1).1
    (smallImage 4 240) 1 (by decide) ⟨scanIdx 12, by decide, hf.clear⟩).mpr (fun _ f hf' => ?_)
  obtain rfl : f = 12 := hf'.unique hf
  refine .inr ⟨⟨rfl, by decide, by decide⟩, by decide, by decide, ?_⟩
  intro g hg h
  obtain rfl : g = 0 := by omega
  exact absurd h (by decide)

/-- The bitmap in block 3, with blocks 1 to 8 in use: `ext2fs_balloc` sets bit 15 and
    returns block 11, and `ext2fs_bfree` of block 11 clears bit 7, that of block 8. -/
theorem bfree_clears_other_bit :
    ∃ s' s'', ext2fsBalloc smallSuper [] 1 (smallImage 3 0) = .ok (11, s') ∧
      ext2fsBfree smallSuper [] 11 s' = .ok s'' ∧
      blockBit ((smallImage 3 0).view 3) 7 = true ∧ blockBit (s''.view 3) 7 = false ∧
      blockBit ((smallImage 3 0).view 3) 15 = false ∧ blockBit (s''.view 3) 15 = true ∧
      ¬RoundTrip smallSuper 1 (smallImage 3 0) 1 := by
  have hf : FirstClear ((smallImage 3 0).view (bitmapOf smallSuper (smallImage 3 0).view 1)) 8 :=
    ⟨by decide, by decide⟩
  have hr : ext2fsBalloc smallSuper [] 1 (smallImage 3 0) = .ok (11,
      allocated (smallImage 3 0) 3 (setBit ((smallImage 3 0).view 3) (scanIdx 8)) 11) :=
    ext2fsBalloc_returns (by decide) List.not_mem_nil List.not_mem_nil hf (by decide) (by decide)
  obtain ⟨s'', hs''⟩ : ∃ s'', ext2fsBfree smallSuper [] 11
      (allocated (smallImage 3 0) 3 (setBit ((smallImage 3 0).view 3) (scanIdx 8)) 11) = .ok s'' :=
    ext2fsBfree_returns (by decide) List.not_mem_nil (by decide) (by decide) (by decide)
  have hview := ext2fsBfree_ok hs''
  have h7 : blockBit (s''.view 3) 7 = false := by
    rw [hview.2.2.2.2.2]; decide
  have h15 : blockBit (s''.view 3) 15 = true := by
    rw [hview.2.2.2.2.2]; decide
  refine ⟨_, s'', hr, hs'', by decide, h7, by decide, h15, fun h => ?_⟩
  obtain ⟨u, hu, hbits⟩ := h _ _ hr
  obtain rfl : s'' = u := Except.ok.inj (hs''.symm.trans hu)
  have := hbits 0 (by decide) 7 (by decide)
  rw [show bgBlockBitmap ((smallImage 3 0).view 2) 0 = 3 by decide, h7] at this
  exact absurd this (by decide)

end Ext2RoundTrip
