import Xv6Ext2.Ext2InodeProofs

/-! # The scan of a bitmap block (ext2fs.c)

    `ext2fs_free_block` is given the data of a buffer.  The bits of a group fill
    `s_blocks_per_group / 8` bytes of it, but the loop runs over `s_blocks_per_group * 8`
    bytes.  A block here is the memory from the data of the buffer on; what follows the
    first `BSIZE` bytes belongs to other variables of the kernel.

    - `scanBytes` : the bytes of that memory which a call reads or writes;
    - `mem_scanBytes` : the scan goes on as long as it finds set bits;
    - `free_block_right_iff` : a call stays inside the block and tells a full one from the
      others exactly if it stops before its bound does harm. -/

namespace Ext2Bitmap

open ByteBlock BufCache Outcome Ext2Alloc Ext2Inode

/-- The bytes that the loop of `ext2fs_free_block` reads from byte `i` on; the byte that
    it changes is the last of them. -/
def scanBytesFrom (bitmap : Block) : Nat → Nat → List Nat
  | 0, _ => []
  | fuel + 1, i =>
    match freeBit bitmap i 8 0 with
    | some _ => [i]
    | none => i :: scanBytesFrom bitmap fuel (i + 1)

def scanBytes (sb : Ext2Super) (bitmap : Block) : List Nat :=
  scanBytesFrom bitmap (sb.sBlocksPerGroup * 8 % 2 ^ 32) 0

/-- No bit of the block is clear. -/
def Full (b : Block) : Prop := ∀ k < 8 * BSIZE, blockBit b k = true

/-! ## Which bytes the scan reaches -/

variable {b : Block}

/-- All bits of a byte are set when the inner loop ends. -/
lemma freeBit_none_iff {i : Nat} :
    freeBit b i 8 0 = none ↔ ∀ g, i * 8 ≤ g → g < i * 8 + 8 → scanBit b g = true := by
  have hspec := freeBit_spec b i 8 0 rfl
  cases hf : freeBit b i 8 0 with
  | none =>
    rw [hf] at hspec
    exact ⟨fun _ => hspec, fun _ => rfl⟩
  | some r =>
    rw [hf] at hspec
    obtain ⟨h1, h2, hclear, -⟩ := hspec
    refine ⟨(fun e => by cases e), fun hall => ?_⟩
    rw [hall r.1 h1 h2] at hclear
    cases hclear

/-- The scan reads byte `x` if its bound allows it and all bytes before are full. -/
lemma mem_scanBytesFrom (fuel : Nat) : ∀ i x, x ∈ scanBytesFrom b fuel i ↔
      i ≤ x ∧ x < i + fuel ∧ ∀ g, i * 8 ≤ g → g < x * 8 → scanBit b g = true := by
  induction fuel with
  | zero =>
    intro i x
    refine ⟨fun h => absurd h List.not_mem_nil, fun h => ?_⟩
    omega
  | succ fuel ih =>
    intro i x
    rw [scanBytesFrom]
    cases hf : freeBit b i 8 0 with
    | some r =>
      -- the byte has a clear bit: no byte after it is read
      rw [List.mem_singleton]
      constructor
      · rintro rfl
        exact ⟨le_rfl, by omega, fun g h1 h2 => by omega⟩
      · rintro ⟨h1, h2, hset⟩
        by_contra hne
        have hnone : freeBit b i 8 0 = none :=
          freeBit_none_iff.mpr (fun g hg1 hg2 => hset g hg1 (by omega))
        rw [hf] at hnone
        cases hnone
    | none =>
      have hbyte := freeBit_none_iff.mp hf
      rw [List.mem_cons, ih (i + 1) x]
      constructor
      · rintro (rfl | ⟨h1, h2, hset⟩)
        · exact ⟨le_rfl, by omega, fun g h1 h2 => by omega⟩
        · refine ⟨by omega, by omega, fun g hg1 hg2 => ?_⟩
          by_cases hg : g < i * 8 + 8
          · exact hbyte g hg1 hg
          · exact hset g (by omega) hg2
      · rintro ⟨h1, h2, hset⟩
        by_cases hx : x = i
        · exact .inl hx
        · exact .inr ⟨by omega, by omega, fun g hg1 hg2 => hset g (by omega) hg2⟩

variable {sb : Ext2Super}

lemma mem_scanBytes {x : Nat} :
    x ∈ scanBytes sb b ↔ x * 8 < scanLimit sb ∧ ∀ g < x * 8, scanBit b g = true := by
  rw [scanBytes, mem_scanBytesFrom, scanLimit]
  constructor
  · rintro ⟨-, h2, h3⟩
    exact ⟨by omega, fun g hg => h3 g (by omega) hg⟩
  · rintro ⟨h2, h3⟩
    exact ⟨Nat.zero_le x, by omega, fun g _ hg => h3 g hg⟩

/-- The scan looks at every bit of the block, in another order. -/
lemma full_iff_scan : Full b ↔ ∀ f < 8 * BSIZE, scanBit b f = true := by
  constructor
  · exact fun h f hf => h _ (scanIdx_lt hf)
  · intro h k hk
    have := h _ (scanIdx_lt hk)
    rwa [scanBit, scanIdx_scanIdx] at this

/-! ## A call that is right -/

/-- What a call on the block is for: it keeps to the block, returns the number of a bit
    that was clear and sets only this bit, and returns -1 exactly if there is none; then
    `ext2fs_balloc` panics, and `ext2fs_ialloc` goes on with the next group. -/
structure FreeBlockRight (sb : Ext2Super) (b : Block) : Prop where
  inside : ∀ i ∈ scanBytes sb b, i < BSIZE
  found  : ∀ f b', ext2fsFreeBlock sb b = some (f, b') → f < 8 * BSIZE ∧
    scanBit b f = false ∧ ∀ k, blockBit b' k = (decide (k = scanIdx f) || blockBit b k)
  full   : ext2fsFreeBlock sb b = none ↔ Full b
  balloc : Full b → ∀ held inum s, 0 < sb.sInodesPerGroup → 2 ∉ held →
    bitmapOf sb s.view inum ∉ held → s.view (bitmapOf sb s.view inum) = b →
    ext2fsBalloc sb held inum s = .error (.panic "ext2_balloc: out of blocks\n")
  ialloc : Full b → ∀ type i fuel s, s.view (bgInodeBitmap (s.view 2) i) = b →
    ∃ s', s'.view = s.view ∧
      ext2IallocFrom sb type (fuel + 1) i s = ext2IallocFrom sb type fuel (i + 1) s'

/-- A bit that is clear lies before the bound, or there is none and the bound is not behind
    the end of the block. -/
def ScanStops (sb : Ext2Super) (b : Block) : Prop :=
  (∃ f < 8 * BSIZE, f < scanLimit sb ∧ scanBit b f = false) ∨
  (Full b ∧ scanLimit sb ≤ 8 * BSIZE)

lemma balloc_full {held : List Nat} {inum : Nat} {s : Bcache}
    (hipg : 0 < sb.sInodesPerGroup) (h2 : 2 ∉ held) (hB : bitmapOf sb s.view inum ∉ held)
    (hnone : ext2fsFreeBlock sb (s.view (bitmapOf sb s.view inum)) = none) :
    ext2fsBalloc sb held inum s = .error (.panic "ext2_balloc: out of blocks\n") := by
  rw [ext2fsBalloc, checkDiv_of_pos hipg, ok_bind, bread_of_notMem h2, ok_bind]
  dsimp only
  rw [show bgBlockBitmap (s.view 2) (getGroupNo inum sb) = bitmapOf sb s.view inum from rfl,
    bread_of_notMem hB, ok_bind]
  dsimp only
  rw [touch_view, hnone]

/-- A group whose bitmap is full is passed over. -/
lemma iallocGroup_none {type i : Nat} {s : Bcache}
    (hnone : ext2fsFreeBlock sb (s.view (bgInodeBitmap (s.view 2) i)) = none) :
    iallocGroup sb type i s = .ok (none, (s.touch 2).touch (bgInodeBitmap (s.view 2) i)) := by
  rw [iallocGroup, bread_nil]
  dsimp only
  rw [bread_nil]
  dsimp only
  rw [touch_view, hnone]

lemma FreeBlockRight.of_scan (hinside : ∀ i ∈ scanBytes sb b, i < BSIZE)
    (hlt : ∀ f b', ext2fsFreeBlock sb b = some (f, b') → f < 8 * BSIZE)
    (hfull : ext2fsFreeBlock sb b = none ↔ Full b) : FreeBlockRight sb b where
  inside := hinside
  found  := by
    intro f b' hf
    obtain ⟨hfirst, rfl⟩ := ext2fsFreeBlock_some hf
    refine ⟨hlt f _ hf, hfirst.clear, fun k => ?_⟩
    rw [blockBit_setBit]
    by_cases hk : k = scanIdx f <;> simp [hk, eq_comm]
  full   := hfull
  balloc := by
    rintro hb held inum s hipg h2 hB rfl
    exact balloc_full hipg h2 hB (hfull.mpr hb)
  ialloc := by
    rintro hb type i fuel s rfl
    refine ⟨(s.touch 2).touch (bgInodeBitmap (s.view 2) i), by rw [touch_view, touch_view], ?_⟩
    rw [ext2IallocFrom, iallocGroup_none (hfull.mpr hb), ok_bind]

/-- **Main result.**  A call keeps to its block and tells a full one from the others exactly
    if a clear bit stops it, or its bound does at the end of a full block at the latest. -/
theorem free_block_right_iff (sb : Ext2Super) (b : Block) :
    FreeBlockRight sb b ↔ ScanStops sb b := by
  have hspec := ext2fsFreeBlock_spec sb b
  constructor
  · intro h
    by_cases hb : Full b
    · refine .inr ⟨hb, ?_⟩
      by_contra hlimit
      -- all bits of the block are set, so that the scan reads the byte behind it
      have hmem : BSIZE ∈ scanBytes sb b :=
        mem_scanBytes.mpr ⟨by omega, fun g hg => full_iff_scan.mp hb g (by omega)⟩
      exact absurd (h.inside _ hmem) (Nat.lt_irrefl _)
    cases hf : ext2fsFreeBlock sb b with
    | none => exact absurd (h.full.mp hf) hb
    | some r =>
      rw [hf] at hspec
      obtain ⟨hlt, hclear, -⟩ := h.found r.1 r.2 hf
      exact .inl ⟨r.1, hlt, hspec.2.1, hclear⟩
  · rintro (⟨f, hf, hlimit, hclear⟩ | ⟨hb, hlimit⟩)
    · -- the first clear bit is `f` or one before it
      have hsome : ∀ g b', ext2fsFreeBlock sb b = some (g, b') → g < 8 * BSIZE := by
        intro g b' hg
        have hfirst := (ext2fsFreeBlock_some hg).1
        by_contra hge
        have := hfirst.before f (by omega)
        rw [hclear] at this
        cases this
      refine .of_scan (fun i hi => ?_) hsome ⟨fun hnone => ?_, fun hb => ?_⟩
      · by_contra hge
        have := (mem_scanBytes.mp hi).2 f (by omega)
        rw [hclear] at this
        cases this
      · rw [hnone] at hspec
        have := hspec f (Nat.zero_le f) hlimit
        rw [hclear] at this
        cases this
      · have := full_iff_scan.mp hb f hf
        rw [hclear] at this
        cases this
    · have hnone : ext2fsFreeBlock sb b = none := by
        cases hf : ext2fsFreeBlock sb b with
        | none => rfl
        | some r =>
          rw [hf] at hspec
          obtain ⟨-, hlt, hclear, -⟩ := hspec
          have hlt' : r.1 < scanLimit sb := hlt
          rw [full_iff_scan.mp hb r.1 (by omega)] at hclear
          cases hclear
      refine .of_scan (fun i hi => ?_) (fun f b' hf => ?_) ⟨fun _ => hb, fun _ => hnone⟩
      · have := (mem_scanBytes.mp hi).1
        omega
      · rw [hnone] at hf
        cases hf

/-- A group of 8192 blocks, as on a device with blocks of 1024 bytes. -/
def wideSuper : Ext2Super := ⟨8193, 1, 8192, 2048, 128⟩

/-- A bitmap block with all bits set, and a zero byte behind it. -/
def fullBlock : Block := fun k => if k < BSIZE then 255 else 0

lemma fullBlock_full : Full fullBlock := by
  intro k hk
  have hbyte : fullBlock (k / 8) = 255 := if_pos (by omega)
  rw [blockBit, hbyte, byteBit_ones (Nat.mod_lt k (by decide))]

/-- All bits of the block are set, and the call returns the number of a bit behind it. -/
theorem free_block_leaves_block : Full fullBlock ∧ BSIZE ∈ scanBytes wideSuper fullBlock ∧
      (ext2fsFreeBlock wideSuper fullBlock).map Prod.fst = some (8 * BSIZE) ∧
      ¬FreeBlockRight wideSuper fullBlock := by
  have hset := full_iff_scan.mp fullBlock_full
  have hlimit : scanLimit wideSuper = 524288 := by decide
  have hbsize : 8 * BSIZE = 8192 := rfl
  have hmem : BSIZE ∈ scanBytes wideSuper fullBlock :=
    mem_scanBytes.mpr ⟨by omega, fun g hg => hset g (by omega)⟩
  have hfirst : FirstClear fullBlock (8 * BSIZE) := ⟨by decide, hset⟩
  have hfound := ext2fsFreeBlock_of_clear hfirst (show 8 * BSIZE < scanLimit wideSuper by omega)
  refine ⟨fullBlock_full, hmem, by rw [hfound]; rfl, fun h => ?_⟩
  exact absurd (h.inside _ hmem) (Nat.lt_irrefl _)

end Ext2Bitmap
