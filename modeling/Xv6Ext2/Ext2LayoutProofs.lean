import Xv6Ext2.Ext2AllocProofs

/-! # The ext2 block bitmaps and `ext2fs_balloc`

    `Ext2Image` is the on-disk format of the block bitmaps: bit `k` of group `g`, least significant
    bit first, stands for block `s_first_data_block + g * s_blocks_per_group + k`, every block in
    use has its bit set, and so have the bits that stand for no block.

    `ext2fs_balloc` counts the bits of a byte from the other end and counts blocks
    from the bitmap block itself, so the block it hands out is seldom the one whose
    bit it sets.  The main result says for which bitmaps it is. -/

namespace Ext2Layout

open ByteBlock BufCache Outcome Ext2Alloc

/-- The block bitmap of group `g`, from the descriptor table that starts in block 2. -/
def groupBitmap (v : Disk) (g : Nat) : Nat := bgBlockBitmap (v (2 + g / 32)) (g % 32)

/-- An image of `n` block groups; `occupied` are the blocks of files, bitmaps, inode
    tables and descriptors. -/
structure Ext2Image (sb : Ext2Super) (n : Nat) (occupied : Nat → Prop) (v : Disk) : Prop where
  inodes_pos  : 0 < sb.sInodesPerGroup
  group_pos   : 0 < sb.sBlocksPerGroup
  group_le    : sb.sBlocksPerGroup ≤ 8 * BSIZE
  blocks_lt   : sb.sBlocksCount < 2 ^ 31
  bitmap_lt   : ∀ g < n, groupBitmap v g < sb.sBlocksCount
  bitmap_inj  : ∀ g < n, ∀ h < n, groupBitmap v g = groupBitmap v h → g = h
  bitmap_used : ∀ g < n, occupied (groupBitmap v g)
  table_used  : ∀ g < n, occupied (2 + g / 32)
  marked      : ∀ h < n, ∀ k < sb.sBlocksPerGroup,
    occupied (sb.sFirstDataBlock + h * sb.sBlocksPerGroup + k) →
      blockBit (v (groupBitmap v h)) k = true
  padded      : ∀ h < n, ∀ k < 8 * BSIZE, blockBit (v (groupBitmap v h)) k = false →
    k < sb.sBlocksPerGroup ∧
      sb.sFirstDataBlock + h * sb.sBlocksPerGroup + k < sb.sBlocksCount

/-- Block `b` was free in the image `v` and is taken in `v'`, no other bit of a block
    bitmap has changed, and nothing occupied `b`. -/
def TakesFree (sb : Ext2Super) (n : Nat) (occupied : Nat → Prop) (v v' : Disk) (b : Nat) :
    Prop :=
  (∃ h < n, ∃ k < sb.sBlocksPerGroup,
    b = sb.sFirstDataBlock + h * sb.sBlocksPerGroup + k ∧
    blockBit (v (groupBitmap v h)) k = false ∧
    blockBit (v' (groupBitmap v h)) k = true ∧
    ∀ g < n, ∀ i < 8 * BSIZE, ¬(g = h ∧ i = k) →
      blockBit (v' (groupBitmap v g)) i = blockBit (v (groupBitmap v g)) i) ∧
  ¬occupied b

/-- Bit `f` of the scan and block `bb + f` belong together: `bb` is the bitmap of a
    group whose numbering puts that bit at that block. -/
def Aligned (sb : Ext2Super) (n : Nat) (v : Disk) (bb f : Nat) : Prop :=
  f < 8 * BSIZE ∧ ∃ h < n, groupBitmap v h = bb ∧
    bb + 2 * (f % 8) = sb.sFirstDataBlock + h * sb.sBlocksPerGroup + 7

/-! ## Bits of the blocks that `ext2fs_balloc` writes -/

lemma bitmapOf_lt (sb : Ext2Super) (v : Disk) (inum : Nat) :
    bitmapOf sb v inum < 2 ^ 32 := getLE_lt _ 4 _

section Allocated

variable {s : Bcache} {bb b f : Nat} (hne : b ≠ bb)
include hne

/-- The zeroed block has no bit set. -/
lemma allocated_bit_zeroed {d : Block} {k : Nat} (hk : k < 8 * BSIZE) :
    blockBit ((allocated s bb d b).view b) k = false := by
  rw [allocated_view s d hne, Function.update_self, blockBit_fillBlock hk, blockBit_zero]

lemma allocated_bit_bitmap {k : Nat} (hk : k < 8 * BSIZE) :
    blockBit ((allocated s bb (setBit (s.view bb) (scanIdx f)) b).view bb) k =
      (blockBit (s.view bb) k || decide (scanIdx f = k)) := by
  rw [allocated_view s _ hne, Function.update_of_ne hne.symm, Function.update_self,
    blockBit_fillBlock hk, blockBit_setBit]

lemma allocated_view_of_ne {d : Block} {c : Nat} (h1 : c ≠ bb) (h2 : c ≠ b) :
    (allocated s bb d b).view c = s.view c := by
  rw [allocated_view s d hne, Function.update_of_ne h2, Function.update_of_ne h1]

end Allocated

/-! ## When the block handed out is a free one -/

section Image

variable {sb : Ext2Super} {n : Nat} {occupied : Nat → Prop} {s : Bcache}
  (hi : Ext2Image sb n occupied s.view)
include hi

lemma scanLimit_lt : scanLimit sb < 2 ^ 32 := by
  have := hi.group_le
  unfold scanLimit BSIZE at *
  omega

/-- A free block at the place of the bit that was set: the bit belongs to it. -/
lemma aligned_of_takesFree {inum f : Nat}
    (hb : (bitmapOf sb s.view inum + f) % 2 ^ 32 ≠ bitmapOf sb s.view inum)
    (h : TakesFree sb n occupied s.view (allocated s (bitmapOf sb s.view inum)
        (setBit (s.view (bitmapOf sb s.view inum)) (scanIdx f))
        ((bitmapOf sb s.view inum + f) % 2 ^ 32)).view ((bitmapOf sb s.view inum + f) % 2 ^ 32)) :
    Aligned sb n s.view (bitmapOf sb s.view inum) f := by
  obtain ⟨⟨h, hh, k, hk, hbk, hold, hnew, -⟩, -⟩ := h
  have hk8 : k < 8 * BSIZE := Nat.lt_of_lt_of_le hk hi.group_le
  have hlim := hi.blocks_lt
  have hlt := hi.bitmap_lt h hh
  -- the bit that appeared is in the only block in which bits appear
  have hbb : groupBitmap s.view h = bitmapOf sb s.view inum := by
    by_contra hne
    by_cases hz : groupBitmap s.view h = (bitmapOf sb s.view inum + f) % 2 ^ 32
    · rw [hz, allocated_bit_zeroed hb hk8] at hnew
      exact nomatch hnew
    · rw [allocated_view_of_ne hb hne hz, hold] at hnew
      exact nomatch hnew
  rw [hbb] at hold hnew hlt
  rw [allocated_bit_bitmap hb hk8, hold, Bool.false_or, decide_eq_true_eq] at hnew
  have hf8 : f < 8 * BSIZE := by
    rw [← scanIdx_scanIdx f, hnew]
    exact scanIdx_lt hk8
  refine ⟨hf8, h, hh, hbb, ?_⟩
  unfold scanIdx BSIZE at *
  omega

/-- An aligned bit: the block handed out is the free one that the bit stands for. -/
lemma takesFree_of_aligned {inum f b : Nat} (hf : FirstClear (s.view (bitmapOf sb s.view inum)) f)
    (hb : b = (bitmapOf sb s.view inum + f) % 2 ^ 32) (hne : b ≠ bitmapOf sb s.view inum)
    (h : Aligned sb n s.view (bitmapOf sb s.view inum) f) : TakesFree sb n occupied s.view
      (allocated s (bitmapOf sb s.view inum)
        (setBit (s.view (bitmapOf sb s.view inum)) (scanIdx f)) b).view b := by
  obtain ⟨hf8, h, hh, hbb, heq⟩ := h
  have hlim := hi.blocks_lt
  have hlt := hi.bitmap_lt h hh
  have hk8 : scanIdx f < 8 * BSIZE := scanIdx_lt hf8
  have hold : blockBit (s.view (groupBitmap s.view h)) (scanIdx f) = false := by
    rw [hbb]; exact hf.clear
  obtain ⟨hk, -⟩ := hi.padded h hh _ hk8 hold
  have hbk : b = sb.sFirstDataBlock + h * sb.sBlocksPerGroup + scanIdx f := by
    rw [hbb] at hlt
    unfold scanIdx BSIZE at *
    omega
  have hfree : ¬occupied b := by
    intro ho
    rw [hbk] at ho
    rw [hi.marked h hh _ hk ho] at hold
    exact nomatch hold
  refine ⟨⟨h, hh, scanIdx f, hk, hbk, hold, ?_, ?_⟩, hfree⟩
  · rw [hbb, allocated_bit_bitmap hne hk8]
    simp
  · intro g hg i hi8 hgi
    -- a bitmap block is occupied, so it is not the block that is zeroed
    have hgb : groupBitmap s.view g ≠ b := fun e => hfree (e ▸ hi.bitmap_used g hg)
    by_cases hgB : groupBitmap s.view g = bitmapOf sb s.view inum
    · obtain rfl : g = h := hi.bitmap_inj g hg h hh (hgB.trans hbb.symm)
      have hik : scanIdx f ≠ i := fun e => hgi ⟨rfl, e.symm⟩
      rw [hgB, allocated_bit_bitmap hne hi8]
      simp [hik]
    · rw [allocated_view_of_ne hne hgB hgb]

end Image

/-- **Main result.**  The block that `ext2fs_balloc` returns is a free one, whose bit
    and no other it sets, exactly when the first clear bit of its scan is aligned with
    the block's number.  When that bit is the very first of the scan, the block's number
    is the bitmap's own and the call waits for the bitmap's lock for ever. -/
theorem balloc_takes_free_iff {sb : Ext2Super} {n : Nat} {occupied : Nat → Prop}
    {s : Bcache} (hi : Ext2Image sb n occupied s.view) (inum : Nat) :
    ((∀ b s', ext2fsBalloc sb [] inum s = .ok (b, s') → TakesFree sb n occupied s.view s'.view b) ↔
      ∀ f, FirstClear (s.view (bitmapOf sb s.view inum)) f → f < scanLimit sb →
        f = 0 ∨ Aligned sb n s.view (bitmapOf sb s.view inum) f) ∧
    (FirstClear (s.view (bitmapOf sb s.view inum)) 0 →
      ext2fsBalloc sb [] inum s = .error .deadlock) := by
  have hlim := scanLimit_lt hi
  have hB := bitmapOf_lt sb s.view inum
  refine ⟨⟨fun h f hf hlt => ?_, fun h b s' hr => ?_⟩, fun h0 => ?_⟩
  · by_cases hf0 : f = 0
    · exact .inl hf0
    have hb : (bitmapOf sb s.view inum + f) % 2 ^ 32 ≠ bitmapOf sb s.view inum := by
      omega
    have hr := ext2fsBalloc_returns (s := s) hi.inodes_pos List.not_mem_nil
      List.not_mem_nil hf hlt (by simpa using hb)
    exact .inr (aligned_of_takesFree hi hb (h _ _ hr))
  · obtain ⟨-, -, -, f, hf, hlt, hb, hne, -, rfl⟩ := ext2fsBalloc_ok hr
    rcases h f hf hlt with rfl | ha
    · rw [Nat.add_zero, Nat.mod_eq_of_lt hB] at hb
      exact absurd hb hne
    · exact takesFree_of_aligned hi hf hb hne ha
  · have hpos : 0 < scanLimit sb := by
      have := hi.group_pos
      have := hi.group_le
      unfold scanLimit BSIZE at *
      omega
    rw [ext2fsBalloc, checkDiv_of_pos hi.inodes_pos, ok_bind, bread_nil]
    dsimp only
    rw [show bgBlockBitmap (s.view 2) (getGroupNo inum sb) = bitmapOf sb s.view inum
      from rfl, bread_nil]
    dsimp only
    rw [touch_view, ext2fsFreeBlock_of_clear h0 hpos]
    dsimp only
    rw [Nat.add_zero, Nat.mod_eq_of_lt hB, ext2fsBzero, bread, if_pos (List.mem_singleton.mpr rfl)]
    rfl

/-! ## Two small images -/

/-- One group of 8192 blocks with the superblock in block 1. -/
def smallSuper : Ext2Super where
  sBlocksCount    := 8193
  sFirstDataBlock := 1
  sBlocksPerGroup := 8192
  sInodesPerGroup := 2048
  sInodeSize      := 128

/-- A bitmap: blocks 1 to 8 are in use, and of blocks 9 to 16 those of `byte1`. -/
def smallBitmap (byte1 : UInt8) : Block :=
  fun k => if k = 0 then 255 else if k = 1 then byte1 else 0

/-- An image whose block bitmap is block `bb`. -/
def smallDisk (bb : UInt8) (byte1 : UInt8) : Disk :=
  fun b => if b = 2 then fun k => if k = 0 then bb else 0
    else if b = bb.toNat then smallBitmap byte1 else fun _ => 0

/-- The image with nothing in the buffer cache. -/
def smallImage (bb byte1 : UInt8) : Bcache := ⟨smallDisk bb byte1, fun _ => none⟩

/-- The blocks in use, by the bitmap. -/
def smallOccupied (byte1 : UInt8) (b : Nat) : Prop :=
  1 ≤ b ∧ blockBit (smallBitmap byte1) (b - 1) = true

/-- The bitmap may be any block between the descriptors and block 8. -/
lemma smallImage_ext2 {bb : UInt8} (byte1 : UInt8) (h1 : 2 < bb.toNat) (h2 : bb.toNat ≤ 8) :
    Ext2Image smallSuper 1 (smallOccupied byte1) (smallImage bb byte1).view := by
  have hbb : groupBitmap (smallImage bb byte1).view 0 = bb.toNat := by
    show getLE (smallDisk bb byte1 2) 4 0 = bb.toNat
    simp only [getLE, smallDisk, if_true, Nat.zero_add]
    simp
  have hbm : (smallImage bb byte1).view bb.toNat = smallBitmap byte1 := by
    show smallDisk bb byte1 bb.toNat = _
    rw [smallDisk, if_neg (by omega), if_pos rfl]
  have hbyte0 : ∀ k < 8, blockBit (smallBitmap byte1) k = true := by
    intro k hk
    show byteBit (smallBitmap byte1 (k / 8)) (k % 8) = true
    rw [show k / 8 = 0 by omega]
    exact byteBit_ones (Nat.mod_lt k (by decide))
  have hg : ∀ g < 1, g = 0 := fun g hg => by omega
  constructor
  · decide
  · decide
  · decide
  · decide
  · intro g h
    rw [hg g h, hbb]
    exact Nat.lt_of_le_of_lt h2 (by decide)
  · intro g h g' h' _
    rw [hg g h, hg g' h']
  · intro g h
    rw [hg g h, hbb]
    exact ⟨by omega, hbyte0 _ (by omega)⟩
  · intro g h
    rw [hg g h]
    exact ⟨by decide, hbyte0 _ (by decide)⟩
  · intro h hh k _ ho
    rw [hg h hh, hbb, hbm]
    have := ho.2
    rwa [hg h hh, show smallSuper.sFirstDataBlock + 0 * smallSuper.sBlocksPerGroup + k - 1
      = k from by show 1 + 0 * 8192 + k - 1 = k; omega] at this
  · intro h hh k hk _
    rw [hg h hh]
    exact ⟨hk, by show 1 + 0 * 8192 + k < 8193; unfold BSIZE at hk; omega⟩

/-- On an image whose bitmap is block 3, with blocks 1 to 11 in use, `ext2fs_balloc`
    hands out block 11. -/
theorem balloc_takes_used_block : Ext2Image smallSuper 1 (smallOccupied 7) (smallImage 3 7).view ∧
    ∃ s', ext2fsBalloc smallSuper [] 1 (smallImage 3 7) = .ok (11, s') ∧ smallOccupied 7 11 ∧
      ¬TakesFree smallSuper 1 (smallOccupied 7) (smallImage 3 7).view s'.view 11 := by
  have hocc : smallOccupied 7 11 := ⟨by decide, by decide⟩
  have hf : FirstClear ((smallImage 3 7).view (bitmapOf smallSuper (smallImage 3 7).view 1)) 8 :=
    ⟨by decide, by decide⟩
  refine ⟨smallImage_ext2 7 (by decide) (by decide), _,
    ext2fsBalloc_returns (by decide) List.not_mem_nil List.not_mem_nil hf (by decide)
      (by decide), hocc, fun h => h.2 hocc⟩

/-- The bitmap in block 4, and blocks 15 and 16 in use: the first clear bit of the scan
    is bit 10, aligned with block 14. -/
theorem balloc_takes_free_iff_smallImage :
    ∃ b s', ext2fsBalloc smallSuper [] 1 (smallImage 4 192) = .ok (b, s') ∧
      TakesFree smallSuper 1 (smallOccupied 192) (smallImage 4 192).view s'.view b := by
  have hi : Ext2Image smallSuper 1 (smallOccupied 192) (smallImage 4 192).view :=
    smallImage_ext2 192 (by decide) (by decide)
  have hf : FirstClear
      ((smallImage 4 192).view (bitmapOf smallSuper (smallImage 4 192).view 1)) 10 :=
    ⟨by decide, by decide⟩
  obtain ⟨s', hr⟩ : ∃ s', ext2fsBalloc smallSuper [] 1 (smallImage 4 192) = .ok (14, s') :=
    ⟨_, ext2fsBalloc_returns (by decide) List.not_mem_nil List.not_mem_nil hf (by decide)
      (by decide)⟩
  refine ⟨14, s', hr, ((balloc_takes_free_iff hi 1).1.mpr (fun f hf' _ => ?_)) _ _ hr⟩
  obtain rfl : f = 10 := hf'.unique hf
  exact .inr ⟨by decide, 0, by decide, by decide, by decide⟩

end Ext2Layout
