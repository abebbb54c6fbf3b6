import Xv6Ext2.Ext2InodeProofs

/-! # Where ext2fs_iupdate writes an inode (ext2fs.c)

    `ext2fs_iupdate` and `ext2fs_ilock` take the address of an inode table from block 2 alone.
    An image with more than 32 groups has descriptors in the blocks behind it, too.

    - `groupTable` : the address that the image has for a group;
    - `Image` : what is assumed of the tables of an image, in its own terms;
    - `inodeTables_of_image` : if the kernel finds the right addresses, the places of the
      inodes do not overlap;
    - `iupdate_right_iff` : every update can be read back and leaves the rest of the disk alone
      exactly if the kernel finds the address of every table. -/

namespace Ext2InodeSlot

open ByteBlock BufCache Outcome FileIo Ext2Alloc Ext2Bmap Ext2Inode

/-! ## The tables of an image -/

/-- `bg_inode_table` of group `g` as the image has it: 32 descriptors in a block. -/
def groupTable (v : Disk) (g : Nat) : Nat := bgInodeTable (v (2 + g / 32)) (g % 32)

/-- The inodes in a block, and the blocks of a table. -/
def inodesPerBlock (sb : Ext2Super) : Nat := BSIZE / sb.sInodeSize

def tableBlocks (sb : Ext2Super) : Nat :=
  (sb.sInodesPerGroup + inodesPerBlock sb - 1) / inodesPerBlock sb

/-- The place of inode `inum` in the image: block and offset. -/
def inodeSlot (sb : Ext2Super) (v : Disk) (inum : Nat) : Nat × Nat :=
  (groupTable v (getGroupNo inum sb) + getInodeIndex inum sb / inodesPerBlock sb,
    getInodeIndex inum sb % inodesPerBlock sb * sb.sInodeSize)

/-- An image with the inodes `1 .. n`: inodes fill blocks, and the tables of the groups do not
    overlap each other or the descriptors.  The buffers hold what is on the disk. -/
structure Image (sb : Ext2Super) (n : Nat) (s : Bcache) : Prop where
  ipg    : 0 < sb.sInodesPerGroup
  isize  : SIZEOF_INODE ≤ sb.sInodeSize
  divide : sb.sInodeSize ∣ BSIZE
  count  : n < 2 ^ 32
  fits   : ∀ i, 1 ≤ i → i ≤ n → groupTable s.view (getGroupNo i sb) + tableBlocks sb ≤ 2 ^ 32
  apart  : ∀ i, 1 ≤ i → i ≤ n → ∀ j, 1 ≤ j → j ≤ n → getGroupNo i sb ≠ getGroupNo j sb →
    groupTable s.view (getGroupNo i sb) + tableBlocks sb ≤ groupTable s.view (getGroupNo j sb) ∨
    groupTable s.view (getGroupNo j sb) + tableBlocks sb ≤ groupTable s.view (getGroupNo i sb)
  desc   : ∀ i, 1 ≤ i → i ≤ n → ∀ j, 1 ≤ j → j ≤ n →
    2 + getGroupNo j sb / 32 < groupTable s.view (getGroupNo i sb) ∨
    groupTable s.view (getGroupNo i sb) + tableBlocks sb ≤ 2 + getGroupNo j sb / 32
  sync   : s.disk = s.view

/-- The kernel finds the table of every group. -/
def FindsTables (sb : Ext2Super) (n : Nat) (v : Disk) : Prop :=
  ∀ i, 1 ≤ i → i ≤ n → bgInodeTable (v 2) (getGroupNo i sb) = groupTable v (getGroupNo i sb)

/-- Block 2 has the descriptors of the first 32 groups. -/
lemma findsTables_of_le {sb : Ext2Super} {n : Nat} (hn : n ≤ 32 * sb.sInodesPerGroup)
    (h32 : n < 2 ^ 32) (v : Disk) : FindsTables sb n v := by
  intro i h1 hi
  have hpred : pred32 i = i - 1 := by unfold pred32; omega
  have hlt : getGroupNo i sb < 32 := by
    rw [getGroupNo, hpred]
    exact Nat.div_lt_of_lt_mul (by rw [Nat.mul_comm]; omega)
  rw [groupTable, Nat.div_eq_of_lt hlt, Nat.mod_eq_of_lt hlt]

/-! ## Reading back -/

/-- The fields that a C `struct inode` can hold. -/
structure Fields (ip : Dinode) : Prop where
  nlink : ip.nlink < 2 ^ 16
  size  : ip.size < 2 ^ 32
  addrs : ∀ i < EXT2_N_BLOCKS, ip.addrs i < 2 ^ 32

/-- `ext2fs_iupdate` of inode `inum` does what it is for: `ext2fs_ilock` reads the links, the
    size and the addresses back, reads every other inode as before, and no byte outside the
    place of the inode has changed. -/
def UpdateRight (sb : Ext2Super) (n inum : Nat) (ip : Dinode) (s : Bcache) : Prop :=
  ∃ s', ext2fsIupdate sb inum ip s = .ok s' ∧
    (∃ d s'', ext2fsIread sb inum s' = .ok (d, s'') ∧ d.nlink = ip.nlink ∧ d.size = ip.size ∧
      ∀ i < EXT2_N_BLOCKS, d.addrs i = ip.addrs i) ∧
    (∀ j, 1 ≤ j → j ≤ n → j ≠ inum →
      (ext2fsIread sb j s').map Prod.fst = (ext2fsIread sb j s).map Prod.fst) ∧
    ∀ b k, ¬(b = (inodeSlot sb s.view inum).1 ∧ (inodeSlot sb s.view inum).2 ≤ k ∧
      k < (inodeSlot sb s.view inum).2 + sb.sInodeSize) → s'.disk b k = s.disk b k

section Image

variable {sb : Ext2Super} {n : Nat} {s : Bcache} (hi : Image sb n s)
include hi

lemma Image.inodesPerBlock_mul : inodesPerBlock sb * sb.sInodeSize = BSIZE :=
  Nat.div_mul_cancel hi.divide

lemma Image.inodesPerBlock_pos : 0 < inodesPerBlock sb := by
  have := hi.inodesPerBlock_mul
  rcases Nat.eq_zero_or_pos (inodesPerBlock sb) with h0 | hpos
  · rw [h0, Nat.zero_mul] at this
    cases this
  · exact hpos

lemma Image.checkGeometry_eq : checkGeometry sb = .ok () := by
  have hsize : 0 < sb.sInodeSize := Nat.lt_of_lt_of_le (by decide) hi.isize
  have hper : 0 < BSIZE / sb.sInodeSize := hi.inodesPerBlock_pos
  unfold checkGeometry
  rw [checkDiv_of_pos hi.ipg, ok_bind, checkDiv_of_pos hsize, ok_bind, checkDiv_of_pos hper]

/-- The block of an inode is one of the blocks of its table. -/
lemma Image.slot_in_table (inum : Nat) :
    getInodeIndex inum sb / inodesPerBlock sb < tableBlocks sb := by
  have hlt : getInodeIndex inum sb < sb.sInodesPerGroup := Nat.mod_lt _ hi.ipg
  have hpos := hi.inodesPerBlock_pos
  rw [tableBlocks, Nat.div_lt_iff_lt_mul hpos]
  have := Nat.lt_div_mul_add hpos (a := sb.sInodesPerGroup + inodesPerBlock sb - 1)
  omega

lemma Image.home_eq (hf : FindsTables sb n s.view) {inum : Nat} (h1 : 1 ≤ inum)
    (hn : inum ≤ n) : inodeHome sb (s.view 2) inum = inodeSlot sb s.view inum := by
  have hfits := hi.fits inum h1 hn
  have hin := hi.slot_in_table inum
  rw [inodeHome, inodeSlot, hf inum h1 hn, Nat.mod_eq_of_lt]
  · rfl
  · show groupTable s.view (getGroupNo inum sb) + getInodeIndex inum sb / inodesPerBlock sb < _
    omega

lemma Image.slot_fits (inum : Nat) : (inodeSlot sb s.view inum).2 + sb.sInodeSize ≤ BSIZE := by
  have hlt : getInodeIndex inum sb % inodesPerBlock sb < inodesPerBlock sb :=
    Nat.mod_lt _ hi.inodesPerBlock_pos
  calc (inodeSlot sb s.view inum).2 + sb.sInodeSize
      = (getInodeIndex inum sb % inodesPerBlock sb + 1) * sb.sInodeSize := (Nat.succ_mul _ _).symm
    _ ≤ inodesPerBlock sb * sb.sInodeSize := Nat.mul_le_mul_right _ hlt
    _ = BSIZE := hi.inodesPerBlock_mul

lemma Image.slots_apart {i j : Nat} (hi1 : 1 ≤ i) (hin : i ≤ n) (hj1 : 1 ≤ j) (hjn : j ≤ n)
    (hne : i ≠ j) (hb : (inodeSlot sb s.view i).1 = (inodeSlot sb s.view j).1) :
    (inodeSlot sb s.view i).2 + sb.sInodeSize ≤ (inodeSlot sb s.view j).2 ∨
    (inodeSlot sb s.view j).2 + sb.sInodeSize ≤ (inodeSlot sb s.view i).2 := by
  have hti := hi.slot_in_table i
  have htj := hi.slot_in_table j
  have hb' : groupTable s.view (getGroupNo i sb) + getInodeIndex i sb / inodesPerBlock sb =
    groupTable s.view (getGroupNo j sb) + getInodeIndex j sb / inodesPerBlock sb := hb
  by_cases hg : getGroupNo i sb = getGroupNo j sb
  · -- the same block of one table: another index in it
    rw [hg] at hb'
    have hcount := hi.count
    have hpi : pred32 i = i - 1 := by unfold pred32; omega
    have hpj : pred32 j = j - 1 := by unfold pred32; omega
    have hdi := Nat.div_add_mod (i - 1) sb.sInodesPerGroup
    have hdj := Nat.div_add_mod (j - 1) sb.sInodesPerGroup
    have hgi : (i - 1) / sb.sInodesPerGroup = (j - 1) / sb.sInodesPerGroup := by
      rw [getGroupNo, getGroupNo, hpi, hpj] at hg
      exact hg
    have hindex : getInodeIndex i sb ≠ getInodeIndex j sb := by
      rw [getInodeIndex, getInodeIndex, hpi, hpj]
      intro he
      rw [hgi, he] at hdi
      omega
    have hmod : getInodeIndex i sb % inodesPerBlock sb ≠ getInodeIndex j sb % inodesPerBlock sb := by
      intro he
      have h1 := Nat.div_add_mod (getInodeIndex i sb) (inodesPerBlock sb)
      have h2 := Nat.div_add_mod (getInodeIndex j sb) (inodesPerBlock sb)
      rw [Nat.add_left_cancel hb', he] at h1
      omega
    show getInodeIndex i sb % _ * _ + _ ≤ getInodeIndex j sb % _ * _ ∨ _
    rcases Nat.lt_or_gt_of_ne hmod with hlt | hlt
    · left
      rw [← Nat.succ_mul]
      exact Nat.mul_le_mul_right _ hlt
    right
    show getInodeIndex j sb % _ * _ + _ ≤ getInodeIndex i sb % _ * _
    rw [← Nat.succ_mul]
    exact Nat.mul_le_mul_right _ hlt
  · -- tables of different groups have no block in common
    have hapart := hi.apart i hi1 hin j hj1 hjn hg
    generalize getInodeIndex i sb / inodesPerBlock sb = q at hti hb'
    generalize getInodeIndex j sb / inodesPerBlock sb = q' at htj hb'
    omega

/-- **The tables as the kernel uses them.** -/
lemma inodeTables_of_image (hf : FindsTables sb n s.view) : InodeTables sb n (s.view 2) := by
  have hsize : 0 < sb.sInodeSize := Nat.lt_of_lt_of_le (by decide) hi.isize
  have hbytes : INODE_BYTES ≤ sb.sInodeSize := Nat.le_trans (by decide) hi.isize
  refine ⟨hi.ipg, hsize, hi.inodesPerBlock_pos, fun i h1 hn => ?_, fun i hi1 hin j hj1 hjn hne => ?_⟩
  · rw [hi.home_eq hf h1 hn]
    have hfit := hi.slot_fits i
    refine ⟨?_, by omega⟩
    have hin := hi.slot_in_table i
    have hdesc := hi.desc i h1 hn 1 (Nat.le_refl 1) (Nat.le_trans h1 hn)
    have h0 : getGroupNo 1 sb = 0 := by
      rw [getGroupNo, show pred32 1 = 0 by decide, Nat.zero_div]
    rw [h0] at hdesc
    show groupTable s.view (getGroupNo i sb) + getInodeIndex i sb / inodesPerBlock sb ≠ 2
    generalize getInodeIndex i sb / inodesPerBlock sb = q at hin ⊢
    omega
  · rw [hi.home_eq hf hi1 hin, hi.home_eq hf hj1 hjn]
    intro hb
    rcases hi.slots_apart hi1 hin hj1 hjn hne hb with h | h
    · exact .inl (by omega)
    · exact .inr (by omega)

lemma Image.iupdate_disk {inum : Nat} {ip : Dinode} {s' : Bcache}
    (hr : ext2fsIupdate sb inum ip s = .ok s') :
    s'.disk = Function.update s.disk (inodeHome sb (s.view 2) inum).1
      (fillBlock (s.disk (inodeHome sb (s.view 2) inum).1)
        (putExt2Inode (s.view (inodeHome sb (s.view 2) inum).1)
          (inodeHome sb (s.view 2) inum).2 ip)) := by
  rw [ext2fsIupdate_eq hi.checkGeometry_eq] at hr
  obtain rfl := Except.ok.inj hr
  simp only [bwrite_disk, touch_disk]

lemma Image.update_right (hf : FindsTables sb n s.view) {inum : Nat} {ip : Dinode}
    (h1 : 1 ≤ inum) (hn : inum ≤ n) (hip : Fields ip) : UpdateRight sb n inum ip s := by
  have ht := inodeTables_of_image hi hf
  obtain ⟨s', hr⟩ : ∃ s', ext2fsIupdate sb inum ip s = .ok s' :=
    ⟨_, ext2fsIupdate_eq hi.checkGeometry_eq inum ip⟩
  have hdesc := ext2fsIupdate_desc ht h1 hn hr
  have ht' : InodeTables sb n (s'.view 2) := by rw [hdesc]; exact ht
  have hself : inodeAt sb s'.view inum = getExt2Inode
      (putExt2Inode (s.view (inodeHome sb (s.view 2) inum).1) (inodeHome sb (s.view 2) inum).2 ip)
      (inodeHome sb (s.view 2) inum).2 := by
    have hbytes := (ht.inside inum h1 hn).2
    unfold inodeAt
    rw [hdesc, ext2fsIupdate_view ht hr, Function.update_self]
    exact getExt2Inode_congr (fun k _ hk => fillBlock_in (by omega))
  refine ⟨s', hr, ⟨_, _, ext2fsIread_eq ht' inum, ?_, ?_, fun i hlt => ?_⟩, fun j hj1 hjn hne => ?_,
    fun b k hout => ?_⟩
  · rw [hself, getExt2Inode_nlink hip.nlink]
  · rw [hself, getExt2Inode_size hip.size]
  · rw [hself, getExt2Inode_addrs hlt (hip.addrs i hlt)]
  · rw [ext2fsIread_eq ht' j, ext2fsIread_eq ht j]
    exact congrArg Except.ok (inodeAt_iupdate_of_ne ht h1 hn hr hj1 hjn hne)
  · rw [hi.iupdate_disk hr, hi.home_eq hf h1 hn, ← hi.sync]
    rw [← hi.sync] at hout
    by_cases hb : b = (inodeSlot sb s.disk inum).1
    · have hbytes : INODE_BYTES ≤ sb.sInodeSize := Nat.le_trans (by decide) hi.isize
      rw [hb, Function.update_self]
      by_cases hk : k < BSIZE
      · rw [fillBlock_in hk, putExt2Inode_out]
        by_contra hin
        exact hout ⟨hb, by omega, by omega⟩
      · exact blit_out (.inr (by omega))
    · rw [Function.update_of_ne hb]

/-- **Main result.**  Every update does what it is for exactly if the kernel finds the address
    of every inode table. -/
theorem iupdate_right_iff :
    (∀ inum ip, 1 ≤ inum → inum ≤ n → Fields ip → UpdateRight sb n inum ip s) ↔
      FindsTables sb n s.view := by
  refine ⟨fun h i h1 hn => ?_, fun hf inum ip h1 hn hip => hi.update_right hf h1 hn hip⟩
  -- an update that changes the number of links
  obtain ⟨nlink, hnlink⟩ : ∃ m, m = (getLE (s.disk (inodeHome sb (s.view 2) i).1) 2
    ((inodeHome sb (s.view 2) i).2 + 26) + 1) % 2 ^ 16 := ⟨_, rfl⟩
  have hip : Fields ⟨T_FILE, 0, 0, nlink, 0, fun _ => 0⟩ :=
    ⟨by rw [hnlink]; exact Nat.mod_lt _ (by decide), Nat.two_pow_pos 32, fun _ _ => Nat.two_pow_pos 32⟩
  obtain ⟨s', hr, -, -, hout⟩ := h i _ h1 hn hip
  have hfit : (inodeHome sb (s.view 2) i).2 + sb.sInodeSize ≤ BSIZE := hi.slot_fits i
  have hsize := hi.isize
  have hhome : (inodeHome sb (s.view 2) i).1 = (inodeSlot sb s.view i).1 := by
    by_contra hne
    have hsame : s'.disk (inodeHome sb (s.view 2) i).1 = s.disk (inodeHome sb (s.view 2) i).1 :=
      funext (fun k => hout _ k (fun hin => hne hin.1))
    have hword : getLE (s'.disk (inodeHome sb (s.view 2) i).1) 2
        ((inodeHome sb (s.view 2) i).2 + 26) = nlink := by
      rw [hi.iupdate_disk hr, Function.update_self,
        getLE_congr (fun k _ hk => fillBlock_in (by unfold SIZEOF_INODE at hsize; omega))]
      exact getExt2Inode_nlink hip.nlink _ _
    have hlt := getLE_lt (s.disk (inodeHome sb (s.view 2) i).1) 2 ((inodeHome sb (s.view 2) i).2 + 26)
    rw [hsame] at hword
    omega
  have hin := hi.slot_in_table i
  have hfits := hi.fits i h1 hn
  have hcode : bgInodeTable (s.view 2) (getGroupNo i sb) < 256 ^ 4 := getLE_lt _ 4 _
  have hblock : (bgInodeTable (s.view 2) (getGroupNo i sb) +
      getInodeIndex i sb / inodesPerBlock sb) % 2 ^ 32 =
    groupTable s.view (getGroupNo i sb) + getInodeIndex i sb / inodesPerBlock sb := hhome
  generalize getInodeIndex i sb / inodesPerBlock sb = q at hin hblock
  omega

end Image

/-! ## An image with 33 groups -/

/-- 33 groups of four inodes of 256 bytes.  The inode table of group `g` is block `10 + g`; its
    descriptor is in block 2 for the first 32 groups, and the last one in block 3. -/
def manySuper : Ext2Super := ⟨33 * 8192 + 1, 1, 8192, 4, 256⟩

def manyDisk : Disk := fun b k =>
  if b = 2 ∧ k < BSIZE ∧ k % 32 = 8 then UInt8.ofNat (10 + k / 32)
  else if b = 3 ∧ k = 8 then 42 else 0

def manyCache : Bcache := ⟨manyDisk, fun _ => none⟩

lemma manyDisk_table : ∀ g < 33, groupTable manyDisk g = 10 + g := by decide +kernel

lemma manyDisk_image {n : Nat} (hn : n ≤ 132) : Image manySuper n manyCache := by
  have hgroup : ∀ i, 1 ≤ i → i ≤ n → getGroupNo i manySuper < 33 := by
    intro i h1 hi
    have hpred : pred32 i = i - 1 := by unfold pred32; omega
    rw [getGroupNo, hpred]
    show (i - 1) / 4 < 33
    omega
  have htable : ∀ i, 1 ≤ i → i ≤ n →
      groupTable manyCache.view (getGroupNo i manySuper) = 10 + getGroupNo i manySuper :=
    fun i h1 hi => manyDisk_table _ (hgroup i h1 hi)
  have hblocks : tableBlocks manySuper = 1 := by decide
  refine ⟨by decide, by decide, by decide, by omega, fun i h1 hi => ?_,
    fun i hi1 hin j hj1 hjn hne => ?_, fun i hi1 hin j hj1 hjn => ?_, rfl⟩
  · have := hgroup i h1 hi
    rw [htable i h1 hi, hblocks]
    omega
  · rw [htable i hi1 hin, htable j hj1 hjn, hblocks]
    omega
  · have := hgroup j hj1 hjn
    rw [htable i hi1 hin, hblocks]
    omega

/-- The inodes of the first 32 groups. -/
theorem iupdate_right_iff_groups : Image manySuper 128 manyCache ∧
    ∀ inum ip, 1 ≤ inum → inum ≤ 128 → Fields ip → UpdateRight manySuper 128 inum ip manyCache :=
  ⟨manyDisk_image (by decide), (iupdate_right_iff (manyDisk_image (by decide))).mpr
    (findsTables_of_le (by decide) (by decide) manyCache.view)⟩

/-- An inode of the last group is written into block 0, not into its table in block 42. -/
theorem iupdate_writes_elsewhere :
    Image manySuper 132 manyCache ∧ inodeSlot manySuper manyCache.view 129 = (42, 0) ∧
    (ext2fsIupdate manySuper 129 ⟨T_FILE, 0, 0, 1, 0, fun _ => 0⟩ manyCache).map
      (fun s' => (s'.disk 0 26, s'.disk 42 26)) = .ok (1, 0) ∧
    ¬UpdateRight manySuper 132 129 ⟨T_FILE, 0, 0, 1, 0, fun _ => 0⟩ manyCache := by
  have hslot : inodeSlot manySuper manyCache.view 129 = (42, 0) := by decide +kernel
  have hrun : (ext2fsIupdate manySuper 129 ⟨T_FILE, 0, 0, 1, 0, fun _ => 0⟩ manyCache).map
      (fun s' => (s'.disk 0 26, s'.disk 42 26)) = .ok (1, 0) := by
    decide +kernel
  refine ⟨manyDisk_image (by decide), hslot, hrun, ?_⟩
  rintro ⟨s', hr, -, -, hout⟩
  rw [hr] at hrun
  have h1 : s'.disk 0 26 = 1 := (ok_pair_inj hrun).1
  have h0 := hout 0 26 (by rw [hslot]; decide)
  rw [h1] at h0
  revert h0
  decide +kernel

end Ext2InodeSlot
