import Xv6Ext2.BufCacheProofs

/-! # Block allocation on the ext2 device (ext2fs.c)

    `ext2fs_free_block`, `ext2fs_bzero`, `ext2fs_balloc` and `ext2fs_bfree` over the buffer cache of
    the ext2 device.  The superblock `ext2_sb` is read once by `ext2fs_iinit` and never changes; the
    group descriptors are read from block 2 at every call.

    `ext2fs_free_block` looks at the bits of a byte from the most significant
    one down.  `scanBit b f` is the bit it looks at in step `f`, and `scanIdx f`
    is the number of this bit when the bits of a byte are counted from the least
    significant one up, as `ext2fs_bfree` does.  The spec lemmas at the end say
    what `ext2fs_balloc` and `ext2fs_bfree` do to the contents of the device. -/

namespace Ext2Alloc

open ByteBlock BufCache Outcome

/-- The fields of `struct ext2_super_block` that the kernel reads. -/
structure Ext2Super where
  sBlocksCount    : Nat
  sFirstDataBlock : Nat
  sBlocksPerGroup : Nat
  sInodesPerGroup : Nat
  sInodeSize      : Nat
  deriving DecidableEq, Repr

def getGroupNo (inum : Nat) (sb : Ext2Super) : Nat := pred32 inum / sb.sInodesPerGroup

def getInodeIndex (inum : Nat) (sb : Ext2Super) : Nat := pred32 inum % sb.sInodesPerGroup

/-- `bg_block_bitmap` of descriptor `gno` in the data of block 2. -/
def bgBlockBitmap (d : Block) (gno : Nat) : Nat := getLE d 4 (gno * 32)

/-- The inner loop of `ext2fs_free_block` from bit `j` on, with `fuel` bits left. -/
def freeBit (bitmap : Block) (i : Nat) : Nat → Nat → Option (Nat × Block)
  | 0, _ => none
  | fuel + 1, j =>
    if bitmap i &&& bitMask (7 - j) = 0 then
      some (i * 8 + j, Function.update bitmap i (bitmap i ||| bitMask (7 - j)))
    else freeBit bitmap i fuel (j + 1)

/-- The outer loop from byte `i` on, with `fuel` bytes left. -/
def freeBlockFrom (bitmap : Block) : Nat → Nat → Option (Nat × Block)
  | 0, _ => none
  | fuel + 1, i =>
    match freeBit bitmap i 8 0 with
    | some r => some r
    | none => freeBlockFrom bitmap fuel (i + 1)

/-- `ext2fs_free_block`: the number of a free bit and the bitmap with it set; `none`
    is the return value `-1`. -/
def ext2fsFreeBlock (sb : Ext2Super) (bitmap : Block) : Option (Nat × Block) :=
  freeBlockFrom bitmap (sb.sBlocksPerGroup * 8 % 2 ^ 32) 0

def ext2fsBzero (held : List Nat) (bno : Nat) (s : Bcache) : Except Err Bcache := do
  let (_, s) ← bread held bno s
  .ok (bwrite bno (fun _ => 0) s)

def ext2fsBalloc (sb : Ext2Super) (held : List Nat) (inum : Nat) (s : Bcache) :
    Except Err (Nat × Bcache) := do
  checkDiv sb.sInodesPerGroup
  let gno := getGroupNo inum sb
  let (d1, s) ← bread held 2 s
  let bb := bgBlockBitmap d1 gno
  let (d2, s) ← bread held bb s
  match ext2fsFreeBlock sb d2 with
  | some (fbit, d2) => do
      let zbno := (bb + fbit) % 2 ^ 32
      -- the bitmap's buffer is still locked while the new block is zeroed
      let s ← ext2fsBzero (bb :: held) zbno (bwrite bb d2 s)
      .ok (zbno, s)
  | none => .error (.panic "ext2_balloc: out of blocks\n")

/-- `iindex -= bg_block_bitmap`, an `int`: the bit that `ext2fs_bfree` clears. -/
def freeIdx (iindex bb : Nat) : Nat := (iindex + (2 ^ 32 - bb % 2 ^ 32)) % 2 ^ 32

def ext2fsBfree (sb : Ext2Super) (held : List Nat) (b : Nat) (s : Bcache) :
    Except Err Bcache := do
  checkDiv sb.sInodesPerGroup
  let gno := getGroupNo b sb
  let (d1, s) ← bread held 2 s
  let bb := bgBlockBitmap d1 gno
  let (d2, s) ← bread (2 :: held) bb s
  let iindex := freeIdx (getInodeIndex b sb) bb
  -- a negative index, or one past the block
  if 8 * BSIZE ≤ iindex then .error .wild
  else if d2 (iindex / 8) &&& bitMask (iindex % 8) = 0 then
    .error (.panic "ext2fs_bfree: block already free\n")
  else
    .ok (bwrite bb (Function.update d2 (iindex / 8)
      (d2 (iindex / 8) &&& ~~~bitMask (iindex % 8))) s)

/-! ## The scan of `ext2fs_free_block` -/

/-- The number, least significant bit first, of the bit looked at in step `f`. -/
def scanIdx (f : Nat) : Nat := f / 8 * 8 + (7 - f % 8)

/-- The bit looked at in step `f`. -/
def scanBit (b : Block) (f : Nat) : Bool := blockBit b (scanIdx f)

lemma scanIdx_div (f : Nat) : scanIdx f / 8 = f / 8 := by unfold scanIdx; omega

lemma scanIdx_mod (f : Nat) : scanIdx f % 8 = 7 - f % 8 := by unfold scanIdx; omega

lemma scanIdx_scanIdx (f : Nat) : scanIdx (scanIdx f) = f := by
  unfold scanIdx; omega

variable {f : Nat}

lemma scanIdx_lt {n : Nat} (h : f < 8 * n) : scanIdx f < 8 * n := by
  unfold scanIdx; omega

/-- `f` is the first clear bit of the scan. -/
structure FirstClear (b : Block) (f : Nat) : Prop where
  clear  : scanBit b f = false
  before : ∀ g < f, scanBit b g = true

variable {b : Block}

lemma FirstClear.unique {g : Nat} (hf : FirstClear b f) (hg : FirstClear b g) : f = g := by
  rcases Nat.lt_trichotomy f g with h | h | h
  · have := hg.before f h; rw [hf.clear] at this; exact nomatch this
  · exact h
  · have := hf.before g h; rw [hg.clear] at this; exact nomatch this

lemma and_mask_scan {i j : Nat} (hj : j < 8) :
    b i &&& bitMask (7 - j) = 0 ↔ scanBit b (i * 8 + j) = false := by
  rw [and_mask_eq_zero (by omega)]
  unfold scanBit blockBit
  rw [scanIdx_div, scanIdx_mod, show (i * 8 + j) / 8 = i by omega,
    show (i * 8 + j) % 8 = j by omega]

/-- What a scan of the bits `lo .. hi` of `b` returns. -/
def Scanned (b : Block) (lo hi : Nat) : Option (Nat × Block) → Prop
  | some (f, b') => lo ≤ f ∧ f < hi ∧ scanBit b f = false ∧
      (∀ g, lo ≤ g → g < f → scanBit b g = true) ∧ b' = setBit b (scanIdx f)
  | none => ∀ g, lo ≤ g → g < hi → scanBit b g = true

/-- A scan that starts after a run of set bits. -/
lemma Scanned.extend {lo mid hi : Nat} {r : Option (Nat × Block)}
    (hset : ∀ g, lo ≤ g → g < mid → scanBit b g = true) (hle : lo ≤ mid)
    (h : Scanned b mid hi r) : Scanned b lo hi r := by
  cases r with
  | none =>
    intro g h1 h2
    by_cases hg : g < mid
    · exact hset g h1 hg
    · exact h g (Nat.le_of_not_lt hg) h2
  | some r =>
    obtain ⟨h1, h2, h3, h4, h5⟩ := h
    refine ⟨Nat.le_trans hle h1, h2, h3, fun g hg1 hg2 => ?_, h5⟩
    by_cases hg : g < mid
    · exact hset g hg1 hg
    · exact h4 g (Nat.le_of_not_lt hg) hg2

lemma Scanned.widen {lo mid hi : Nat} {r : Nat × Block}
    (hle : mid ≤ hi) (h : Scanned b lo mid (some r)) : Scanned b lo hi (some r) :=
  ⟨h.1, Nat.lt_of_lt_of_le h.2.1 hle, h.2.2⟩

lemma freeBit_spec (b : Block) (i fuel j : Nat) (hj : j + fuel = 8) :
    Scanned b (i * 8 + j) (i * 8 + 8) (freeBit b i fuel j) := by
  induction fuel generalizing j with
  | zero =>
    intro g h1 h2
    omega
  | succ fuel ih =>
    rw [freeBit]
    split
    · next hb =>
      refine ⟨le_rfl, by omega, (and_mask_scan (by omega)).mp hb, fun g h1 h2 => by omega, ?_⟩
      rw [setBit, scanIdx_div, scanIdx_mod, show (i * 8 + j) / 8 = i by omega,
        show (i * 8 + j) % 8 = j by omega]
    · next hb =>
      refine (ih (j + 1) (by omega)).extend (fun g h1 h2 => ?_) (by omega)
      rw [and_mask_scan (by omega), Bool.not_eq_false] at hb
      rwa [show g = i * 8 + j by omega]

lemma freeBlockFrom_spec (b : Block) (fuel i : Nat) :
    Scanned b (i * 8) ((i + fuel) * 8) (freeBlockFrom b fuel i) := by
  induction fuel generalizing i with
  | zero =>
    intro g h1 h2
    omega
  | succ fuel ih =>
    rw [freeBlockFrom]
    have hbyte := freeBit_spec b i 8 0 rfl
    cases hf : freeBit b i 8 0 with
    | some r =>
      rw [hf] at hbyte
      exact hbyte.widen (by omega)
    | none =>
      rw [hf] at hbyte
      have hrec := ih (i + 1)
      rw [show (i + 1 + fuel) * 8 = (i + (fuel + 1)) * 8 by omega] at hrec
      exact hrec.extend (fun g h1 h2 => hbyte g h1 (by omega)) (by omega)

lemma ext2fsFreeBlock_spec (sb : Ext2Super) (b : Block) :
    Scanned b 0 (sb.sBlocksPerGroup * 8 % 2 ^ 32 * 8) (ext2fsFreeBlock sb b) := by
  have h := freeBlockFrom_spec b (sb.sBlocksPerGroup * 8 % 2 ^ 32) 0
  rwa [Nat.zero_mul, Nat.zero_add] at h

variable {sb : Ext2Super}

/-- What `ext2fs_free_block` finds is the first clear bit of its scan, and it sets that bit. -/
lemma ext2fsFreeBlock_some {b' : Block} (h : ext2fsFreeBlock sb b = some (f, b')) :
    FirstClear b f ∧ b' = setBit b (scanIdx f) := by
  have hspec := ext2fsFreeBlock_spec sb b
  rw [h] at hspec
  obtain ⟨-, -, h3, h4, h5⟩ := hspec
  exact ⟨⟨h3, fun g hg => h4 g (Nat.zero_le g) hg⟩, h5⟩

lemma ext2fsFreeBlock_of_clear
    (hf : FirstClear b f) (hlt : f < sb.sBlocksPerGroup * 8 % 2 ^ 32 * 8) :
    ext2fsFreeBlock sb b = some (f, setBit b (scanIdx f)) := by
  cases hr : ext2fsFreeBlock sb b with
  | some r =>
    obtain ⟨g, b'⟩ := r
    obtain ⟨hg, rfl⟩ := ext2fsFreeBlock_some hr
    rw [hg.unique hf]
  | none =>
    have hspec := ext2fsFreeBlock_spec sb b
    rw [hr] at hspec
    have hset := hspec f (Nat.zero_le f) hlt
    rw [hf.clear] at hset
    exact nomatch hset

/-! ## What the two functions do to the device -/

/-- The number of bits that `ext2fs_free_block` looks at. -/
def scanLimit (sb : Ext2Super) : Nat := sb.sBlocksPerGroup * 8 % 2 ^ 32 * 8

/-- The bitmap block that `ext2fs_balloc` uses for inode `inum`. -/
def bitmapOf (sb : Ext2Super) (v : Disk) (inum : Nat) : Nat :=
  bgBlockBitmap (v 2) (getGroupNo inum sb)

/-- The cache after `ext2fs_balloc` stored the bitmap `d` in block `bb` and zeroed block `b`. -/
def allocated (s : Bcache) (bb : Nat) (d : Block) (b : Nat) : Bcache :=
  bwrite b (fun _ => 0) ((bwrite bb d ((s.touch 2).touch bb)).touch b)

lemma allocated_view (s : Bcache) {bb b : Nat} (d : Block) (hne : b ≠ bb) :
    (allocated s bb d b).view =
      Function.update (Function.update s.view bb (fillBlock (s.view bb) d)) b
        (fillBlock (s.view b) (fun _ => 0)) := by
  simp only [allocated, bwrite_view, touch_view, Function.update_of_ne hne]

variable {held : List Nat} {s : Bcache}

/-- What a call of `ext2fs_balloc` that returns has done. -/
lemma ext2fsBalloc_ok {inum b : Nat} {s' : Bcache} (h : ext2fsBalloc sb held inum s = .ok (b, s')) :
    0 < sb.sInodesPerGroup ∧ 2 ∉ held ∧ bitmapOf sb s.view inum ∉ held ∧
    ∃ f, FirstClear (s.view (bitmapOf sb s.view inum)) f ∧ f < scanLimit sb ∧
      b = (bitmapOf sb s.view inum + f) % 2 ^ 32 ∧ b ≠ bitmapOf sb s.view inum ∧ b ∉ held ∧
      s' = allocated s (bitmapOf sb s.view inum)
        (setBit (s.view (bitmapOf sb s.view inum)) (scanIdx f)) b := by
  obtain ⟨_, hdiv, h⟩ := bind_eq_ok.mp h
  obtain ⟨⟨d1, s1⟩, h1, h⟩ := bind_eq_ok.mp h
  obtain ⟨h2, rfl, rfl⟩ := bread_ok h1
  obtain ⟨⟨d2, s2⟩, h3, h⟩ := bind_eq_ok.mp h
  obtain ⟨h4, rfl, rfl⟩ := bread_ok h3
  refine ⟨checkDiv_ok hdiv, h2, h4, ?_⟩
  rw [touch_view] at h
  change (match ext2fsFreeBlock sb (s.view (bitmapOf sb s.view inum)) with
    | some (fbit, d2) => _
    | none => _) = _ at h
  have hspec := ext2fsFreeBlock_spec sb (s.view (bitmapOf sb s.view inum))
  cases hf : ext2fsFreeBlock sb (s.view (bitmapOf sb s.view inum)) with
  | none => rw [hf] at h; exact nomatch h
  | some r =>
    obtain ⟨f, d⟩ := r
    rw [hf] at h hspec
    obtain ⟨hfc, rfl⟩ := ext2fsFreeBlock_some hf
    obtain ⟨s3, h5, h6⟩ := bind_eq_ok.mp h
    obtain ⟨rfl, rfl⟩ := ok_pair_inj h6
    obtain ⟨⟨d3, s4⟩, h7, h8⟩ := bind_eq_ok.mp h5
    obtain ⟨h9, rfl, rfl⟩ := bread_ok h7
    obtain rfl := Except.ok.inj h8
    exact ⟨f, hfc, hspec.2.1, rfl, fun e => h9 (e ▸ List.mem_cons_self),
      fun e => h9 (List.mem_cons_of_mem _ e), rfl⟩

lemma ext2fsBalloc_returns {inum : Nat} (hipg : 0 < sb.sInodesPerGroup) (h2 : 2 ∉ held)
    (hB : bitmapOf sb s.view inum ∉ held)
    (hf : FirstClear (s.view (bitmapOf sb s.view inum)) f) (hlt : f < scanLimit sb)
    (hb : (bitmapOf sb s.view inum + f) % 2 ^ 32 ∉ bitmapOf sb s.view inum :: held) :
    ext2fsBalloc sb held inum s = .ok ((bitmapOf sb s.view inum + f) % 2 ^ 32,
      allocated s (bitmapOf sb s.view inum) (setBit (s.view (bitmapOf sb s.view inum)) (scanIdx f))
        ((bitmapOf sb s.view inum + f) % 2 ^ 32)) := by
  rw [ext2fsBalloc, checkDiv_of_pos hipg, ok_bind, bread_of_notMem h2, ok_bind]
  dsimp only
  rw [show bgBlockBitmap (s.view 2) (getGroupNo inum sb) = bitmapOf sb s.view inum from rfl,
    bread_of_notMem hB, ok_bind]
  dsimp only
  rw [touch_view, ext2fsFreeBlock_of_clear hf hlt]
  dsimp only
  rw [ext2fsBzero, bread_of_notMem hb, ok_bind, ok_bind]
  rfl

lemma ext2fsBfree_ok {b : Nat} {s' : Bcache} (h : ext2fsBfree sb held b s = .ok s') :
    2 ∉ held ∧ bitmapOf sb s.view b ≠ 2 ∧ bitmapOf sb s.view b ∉ held ∧
    freeIdx (getInodeIndex b sb) (bitmapOf sb s.view b) < 8 * BSIZE ∧
    blockBit (s.view (bitmapOf sb s.view b))
      (freeIdx (getInodeIndex b sb) (bitmapOf sb s.view b)) = true ∧
    s' = bwrite (bitmapOf sb s.view b) (clearBit (s.view (bitmapOf sb s.view b))
      (freeIdx (getInodeIndex b sb) (bitmapOf sb s.view b)))
      ((s.touch 2).touch (bitmapOf sb s.view b)) := by
  obtain ⟨_, hdiv, h⟩ := bind_eq_ok.mp h
  obtain ⟨⟨d1, s1⟩, h1, h⟩ := bind_eq_ok.mp h
  obtain ⟨h2, rfl, rfl⟩ := bread_ok h1
  obtain ⟨⟨d2, s2⟩, h3, h⟩ := bind_eq_ok.mp h
  obtain ⟨h4, rfl, rfl⟩ := bread_ok h3
  dsimp only at h
  rw [show bgBlockBitmap (s.view 2) (getGroupNo b sb) = bitmapOf sb s.view b from rfl] at h h4
  rw [touch_view] at h
  refine ⟨h2, fun e => h4 (e ▸ List.mem_cons_self), fun e => h4 (List.mem_cons_of_mem _ e), ?_⟩
  obtain ⟨k, hk⟩ : ∃ k, k = freeIdx (getInodeIndex b sb) (bitmapOf sb s.view b) := ⟨_, rfl⟩
  rw [← hk] at h ⊢
  by_cases hw : 8 * BSIZE ≤ k
  · rw [if_pos hw] at h; exact nomatch h
  rw [if_neg hw] at h
  by_cases hz : s.view (bitmapOf sb s.view b) (k / 8) &&& bitMask (k % 8) = 0
  · rw [if_pos hz] at h; exact nomatch h
  rw [if_neg hz] at h
  rw [and_mask_eq_zero (Nat.mod_lt _ (by decide)), Bool.not_eq_false] at hz
  exact ⟨by omega, hz, (Except.ok.inj h).symm⟩

lemma ext2fsBfree_returns {b : Nat} (hipg : 0 < sb.sInodesPerGroup) (h2 : 2 ∉ held)
    (hB : bitmapOf sb s.view b ∉ 2 :: held)
    (hlt : freeIdx (getInodeIndex b sb) (bitmapOf sb s.view b) < 8 * BSIZE)
    (hset : blockBit (s.view (bitmapOf sb s.view b))
      (freeIdx (getInodeIndex b sb) (bitmapOf sb s.view b)) = true) :
    ∃ s', ext2fsBfree sb held b s = .ok s' := by
  rw [ext2fsBfree, checkDiv_of_pos hipg, ok_bind, bread_of_notMem h2, ok_bind]
  dsimp only
  rw [show bgBlockBitmap (s.view 2) (getGroupNo b sb) = bitmapOf sb s.view b from rfl,
    bread_of_notMem hB, ok_bind]
  dsimp only
  rw [touch_view]
  obtain ⟨k, hk⟩ : ∃ k, k = freeIdx (getInodeIndex b sb) (bitmapOf sb s.view b) := ⟨_, rfl⟩
  rw [← hk] at hlt hset ⊢
  rw [if_neg (by omega), if_neg]
  · exact ⟨_, rfl⟩
  · rwa [and_mask_eq_zero (Nat.mod_lt _ (by decide)), Bool.not_eq_false]

end Ext2Alloc
