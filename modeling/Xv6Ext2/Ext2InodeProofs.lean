import Xv6Ext2.Ext2BmapProofs
import Xv6Ext2.FileIoProofs

/-! # Inodes of the ext2 device (ext2fs.c)

    The on-disk inodes in the inode tables of the groups, and the functions that work on the copy of
    an inode in memory: the part of `ext2fs_ilock` that reads it, `ext2fs_iupdate`, `ext2fs_ifree`,
    `ext2fs_itrunc`, `ext2fs_readi` and `ext2fs_writei`. -/

namespace Ext2Inode

open ByteBlock BufCache Outcome FileIo Ext2Alloc Ext2Bmap

def S_IFMT : Nat := 0o170000
def S_IFREG : Nat := 0o100000
def S_IFDIR : Nat := 0o040000

def bgInodeBitmap (d : Block) (gno : Nat) : Nat := getLE d 4 (gno * 32 + 4)

def bgInodeTable (d : Block) (gno : Nat) : Nat := getLE d 4 (gno * 32 + 8)

/-- The block of the inode table that holds inode `inum`, and the inode's offset in it;
    `desc` is the data of block 2. -/
def inodeHome (sb : Ext2Super) (desc : Block) (inum : Nat) : Nat × Nat :=
  let gno := getGroupNo inum sb
  let ioff := getInodeIndex inum sb
  ((bgInodeTable desc gno + ioff / (BSIZE / sb.sInodeSize)) % 2 ^ 32,
    ioff % (BSIZE / sb.sInodeSize) * sb.sInodeSize)

/-- The divisions by `s_inodes_per_group`, by `s_inode_size` and by the number of
    inodes in a block. -/
def checkGeometry (sb : Ext2Super) : Except Err Unit := do
  checkDiv sb.sInodesPerGroup
  checkDiv sb.sInodeSize
  checkDiv (BSIZE / sb.sInodeSize)

/-- What `ext2fs_ilock` takes from the `struct ext2_inode` at offset `o`. -/
def getExt2Inode (d : Block) (o : Nat) : Dinode where
  type  :=
    if getLE d 2 o &&& S_IFMT = S_IFDIR ∨ getLE d 2 o = T_DIR then T_DIR else T_FILE
  major := 0
  minor := 0
  nlink := getLE d 2 (o + 26)
  size  := getLE d 4 (o + 4)
  addrs := fun i => if i < EXT2_N_BLOCKS then getLE d 4 (o + 40 + 4 * i) else 0

/-- What `ext2fs_iupdate` stores into the `struct ext2_inode` at offset `o`. -/
def putExt2Inode (d : Block) (o : Nat) (ip : Dinode) : Block :=
  let d := if ip.type = T_DIR then putLE d 2 o S_IFDIR else d
  let d := if ip.type = T_FILE then putLE d 2 o S_IFREG else d
  let d := putLE d 2 (o + 26) ip.nlink
  let d := putLE d 4 (o + 4) ip.size
  let d := putLE d 4 (o + 20) 0
  let d := putLE d 4 (o + 112) 0
  let d := putLE d 4 (o + 104) 0
  let d := putLE d 4 (o + 32) 0
  let d := putLE d 4 (o + 100) 0
  let d := putLE d 2 (o + 24) 0
  let d := putLE d 4 (o + 16) 0
  let d := putLE d 2 (o + 2) 0
  let d := putLE d 4 (o + 8) 0
  putWords d (o + 40) ip.addrs EXT2_N_BLOCKS 0

/-- `ext2fs_ilock` of an inode that is not valid yet: read it from disk. -/
def ext2fsIread (sb : Ext2Super) (inum : Nat) (s : Bcache) : Except Err (Dinode × Bcache) := do
  checkGeometry sb
  let (desc, s) ← bread [] 2 s
  let (d, s) ← bread [] (inodeHome sb desc inum).1 s
  .ok (getExt2Inode d (inodeHome sb desc inum).2, s)

/-- Copy a modified in-memory inode to disk. -/
def ext2fsIupdate (sb : Ext2Super) (inum : Nat) (ip : Dinode) (s : Bcache) :
    Except Err Bcache := do
  checkGeometry sb
  let (desc, s) ← bread [] 2 s
  let (d, s) ← bread [] (inodeHome sb desc inum).1 s
  .ok (bwrite (inodeHome sb desc inum).1
    (putExt2Inode d (inodeHome sb desc inum).2 ip) s)

def ext2fsIfree (sb : Ext2Super) (inum : Nat) (s : Bcache) : Except Err Bcache := do
  checkDiv sb.sInodesPerGroup
  let (desc, s) ← bread [] 2 s
  let bb := bgInodeBitmap desc (getGroupNo inum sb)
  let (d, s) ← bread [] bb s
  let index := getInodeIndex inum sb
  if 8 * BSIZE ≤ index then .error .wild
  else if d (index / 8) &&& bitMask (index % 8) = 0 then
    .error (.panic "ext2fs_ifree: inode already free\n")
  else .ok (bwrite bb (clearBit d index) s)

/-- Free what the words of block `blk` point to: `level` is the number of levels of
    index blocks from `blk` down.  The buffer of `blk` stays locked, and the cleared
    words are changed in memory only. -/
def freeLevel (sb : Ext2Super) : Nat → List Nat → Nat → Bcache → Except Err Bcache
  | 0, _, _, s => .ok s
  | level + 1, held, blk, s => do
      let (_, s) ← bread held blk s
      (List.range EXT2_INDIRECT).foldlM (fun s i =>
        let w := getLE (s.view blk) 4 (4 * i)
        if w = 0 then .ok s
        else do
          let s ← freeLevel sb level (blk :: held) w s
          let s ← ext2fsBfree sb (blk :: held) w s
          .ok (bput blk (putLE (s.view blk) 4 (4 * i) 0) s)) s

/-- `ext2fs_itrunc` for one of the three indirect slots of the inode. -/
def truncLevel (sb : Ext2Super) (level i : Nat) (ip : Dinode) (s : Bcache) :
    Except Err (Dinode × Bcache) :=
  if ip.addrs i = 0 then .ok (ip, s)
  else do
    let s ← freeLevel sb level [] (ip.addrs i) s
    let s ← ext2fsBfree sb [] (ip.addrs i) s
    .ok ({ ip with addrs := Function.update ip.addrs i 0 }, s)

def ext2fsItrunc (sb : Ext2Super) (inum : Nat) (ip : Dinode) (s : Bcache) :
    Except Err (Dinode × Bcache) := do
  let (ip, s) ← (List.range EXT2_NDIR_BLOCKS).foldlM (fun (ip, s) i =>
    if ip.addrs i = 0 then .ok (ip, s)
    else do
      let s ← ext2fsBfree sb [] (ip.addrs i) s
      .ok ({ ip with addrs := Function.update ip.addrs i 0 }, s)) (ip, s)
  let (ip, s) ← truncLevel sb 1 EXT2_IND_BLOCK ip s
  let (ip, s) ← truncLevel sb 2 EXT2_DIND_BLOCK ip s
  let (ip, s) ← truncLevel sb 3 EXT2_TIND_BLOCK ip s
  let ip := { ip with size := 0 }
  let s ← ext2fsIupdate sb inum ip s
  .ok (ip, s)

/-- `ext2fs_bmap` on the copy of the inode. -/
def inodeBmap (sb : Ext2Super) (inum : Nat) (ip : Dinode) (bn : Nat) (s : Bcache) :
    Except Err (Nat × Dinode × Bcache) := do
  let (addr, addrs, s) ← ext2fsBmap sb inum bn ip.addrs s
  .ok (addr, { ip with addrs := addrs }, s)

variable {sb : Ext2Super} {inum : Nat} {ip : Dinode} {s : Bcache}

/-- The block map changes the addresses only. -/
lemma inodeBmap_field {α : Type} {p : Dinode → α}
    (hp : ∀ (ip : Dinode) (addrs : Nat → Nat), p { ip with addrs := addrs } = p ip) {bn b : Nat}
    {ip' : Dinode} {s' : Bcache}
    (h : inodeBmap sb inum ip bn s = .ok (b, ip', s')) : p ip' = p ip := by
  obtain ⟨⟨addr, addrs, s₁⟩, -, h⟩ := bind_eq_ok.mp h
  rw [← (ok_triple_inj h).2.1, hp]

def ext2fsReadi (sb : Ext2Super) (inum : Nat) : (Nat → Devsw) → Dinode → Nat → Nat →
    Bcache → Except Err ((Int × List UInt8) × Dinode × Bcache) :=
  readi (inodeBmap sb inum)

/-- Write data to inode; `EXT2_MAXFILE * EXT2_BSIZE` is computed in 32 bits. -/
def ext2fsWritei (sb : Ext2Super) (inum : Nat) : (Nat → Devsw) → Dinode → (Nat → UInt8) →
    Nat → Nat → Bcache → Except Err (Int × Dinode × Bcache) :=
  writei (inodeBmap sb inum) bwrite (ext2fsIupdate sb inum)
    (EXT2_MAXFILE * BSIZE % 2 ^ 32)

/-- Bytes of an inode of the format; the fields that the kernel uses are in them. -/
def INODE_BYTES : Nat := 128

/-- `sizeof(struct ext2_inode)`: `l_i_frag` and `l_i_fsize` are `ushort` in ext2fs.h, so that
    the last union takes 16 bytes and not 12. -/
def SIZEOF_INODE : Nat := 132

/-- The turn of `ext2fs_ialloc` for group `i`: a free inode is cleared and gets its mode.
    The buffer of the bitmap is locked until both are written. -/
def iallocGroup (sb : Ext2Super) (type i : Nat) (s : Bcache) :
    Except Err (Option Nat × Bcache) := do
  let (desc, s) ← bread [] 2 s
  let bb := bgInodeBitmap desc i
  let (d2, s) ← bread [] bb s
  match ext2fsFreeBlock sb d2 with
  | none => .ok (none, s)
  | some (fbit, d2) => do
      let bno := (bgInodeTable desc i + fbit / (BSIZE / SIZEOF_INODE)) % 2 ^ 32
      let o := fbit % (BSIZE / SIZEOF_INODE) * SIZEOF_INODE
      let (d3, s) ← bread [bb] bno (bput bb d2 s)
      let d3 := blit d3 o SIZEOF_INODE (fun _ => 0)
      let d3 := if type = T_DIR then putLE d3 2 o S_IFDIR
        else if type = T_FILE then putLE d3 2 o S_IFREG else d3
      .ok (some ((i * sb.sInodesPerGroup + fbit + 1) % 2 ^ 32), bwrite bb d2 (bwrite bno d3 s))

def ext2IallocFrom (sb : Ext2Super) (type : Nat) : Nat → Nat → Bcache → Except Err (Nat × Bcache)
  | 0, _, _ => .error (.panic "ext2_ialloc: no inodes")
  | fuel + 1, i, s => do
      let (inum, s) ← iallocGroup sb type i s
      match inum with
      | some inum => .ok (inum, s)
      | none => ext2IallocFrom sb type fuel (i + 1) s

/-- The inode that `ext2fs_ialloc` allocates. -/
def ext2fsIallocInum (sb : Ext2Super) (type : Nat) (s : Bcache) : Except Err (Nat × Bcache) := do
  checkDiv sb.sBlocksPerGroup
  ext2IallocFrom sb type (sb.sBlocksCount / sb.sBlocksPerGroup + 1) 0 s

/-! ## The inode on disk -/

/-- The copies of an inode that the disk can hold. -/
structure Canonical (ip : Dinode) : Prop where
  type  : ip.type = T_DIR ∨ ip.type = T_FILE
  major : ip.major = 0
  minor : ip.minor = 0
  nlink : ip.nlink < 2 ^ 16
  size  : ip.size < 2 ^ 32
  addrs : ∀ i, ip.addrs i < 2 ^ 32
  end_  : ∀ i, EXT2_N_BLOCKS ≤ i → ip.addrs i = 0

lemma getExt2Inode_canonical (d : Block) (o : Nat) : Canonical (getExt2Inode d o) := by
  refine ⟨?_, rfl, rfl, getLE_lt d 2 _, getLE_lt d 4 _, fun i => ?_, fun i hi => ?_⟩
  · unfold getExt2Inode
    dsimp only
    split
    · exact .inl rfl
    · exact .inr rfl
  · unfold getExt2Inode
    dsimp only
    split
    · exact getLE_lt d 4 _
    · decide
  · exact if_neg (by omega)

/-- The copy depends on the bytes of the structure only. -/
lemma getExt2Inode_congr {d e : Block} {o : Nat}
    (h : ∀ k, o ≤ k → k < o + INODE_BYTES → d k = e k) : getExt2Inode d o = getExt2Inode e o := by
  unfold INODE_BYTES at h
  have hword : ∀ n x, x + n ≤ 128 → getLE d n (o + x) = getLE e n (o + x) :=
    fun n x hx => getLE_congr (fun k h1 h2 => h k (by omega) (by omega))
  have haddr : (fun i => if i < EXT2_N_BLOCKS then getLE d 4 (o + 40 + 4 * i) else 0) =
      fun i => if i < EXT2_N_BLOCKS then getLE e 4 (o + 40 + 4 * i) else 0 := by
    funext i
    by_cases hi : i < EXT2_N_BLOCKS
    · have hi15 : i < 15 := hi
      rw [if_pos hi, if_pos hi, Nat.add_assoc, hword 4 (40 + 4 * i) (by omega)]
    · rw [if_neg hi, if_neg hi]
  have h0 := hword 2 0 (by decide)
  rw [Nat.add_zero] at h0
  unfold getExt2Inode
  rw [h0, hword 2 26 (by decide), hword 4 4 (by decide), haddr]

lemma putExt2Inode_out {d : Block} {o k : Nat}
    (h : k < o ∨ o + INODE_BYTES ≤ k) : putExt2Inode d o ip k = d k := by
  unfold INODE_BYTES at h
  unfold putExt2Inode EXT2_N_BLOCKS EXT2_TIND_BLOCK EXT2_DIND_BLOCK EXT2_IND_BLOCK EXT2_NDIR_BLOCKS
  rw [putWords_out (by omega)]
  iterate 11 rw [putLE_out (by omega)]
  split
  · rw [putLE_out (by omega)]
    split
    · rw [putLE_out (by omega)]
    · rfl
  · split
    · rw [putLE_out (by omega)]
    · rfl

/-- `ext2fs_ilock` reads back the links, the size and the addresses that `ext2fs_iupdate` stores. -/
lemma getExt2Inode_nlink (h : ip.nlink < 2 ^ 16) (d : Block) (o : Nat) :
    (getExt2Inode (putExt2Inode d o ip) o).nlink = ip.nlink := by
  have h15 : EXT2_N_BLOCKS = 15 := rfl
  show getLE (putExt2Inode d o ip) 2 (o + 26) = ip.nlink
  unfold putExt2Inode
  simp (disch := omega) only [h15, getLE_putWords_of_disjoint, getLE_putLE_of_disjoint, getLE_putLE]
  exact Nat.mod_eq_of_lt h

lemma getExt2Inode_size (h : ip.size < 2 ^ 32) (d : Block) (o : Nat) :
    (getExt2Inode (putExt2Inode d o ip) o).size = ip.size := by
  have h15 : EXT2_N_BLOCKS = 15 := rfl
  show getLE (putExt2Inode d o ip) 4 (o + 4) = ip.size
  unfold putExt2Inode
  simp (disch := omega) only [h15, getLE_putWords_of_disjoint, getLE_putLE_of_disjoint, getLE_putLE]
  exact Nat.mod_eq_of_lt h

lemma getExt2Inode_addrs {i : Nat} (hi : i < EXT2_N_BLOCKS) (h : ip.addrs i < 2 ^ 32) (d : Block)
    (o : Nat) : (getExt2Inode (putExt2Inode d o ip) o).addrs i = ip.addrs i := by
  show (if i < EXT2_N_BLOCKS then getLE (putExt2Inode d o ip) 4 (o + 40 + 4 * i) else 0) = _
  rw [if_pos hi, putExt2Inode, getLE_putWords (Nat.zero_le i) (by omega)]
  exact Nat.mod_eq_of_lt h

lemma getExt2Inode_type (h : ip.type = T_DIR ∨ ip.type = T_FILE) (d : Block)
    (o : Nat) : (getExt2Inode (putExt2Inode d o ip) o).type = ip.type := by
  have h15 : EXT2_N_BLOCKS = 15 := rfl
  have hmode : getLE (putExt2Inode d o ip) 2 o = if ip.type = T_DIR then S_IFDIR else S_IFREG := by
    unfold putExt2Inode
    simp (disch := omega) only [h15, getLE_putWords_of_disjoint, getLE_putLE_of_disjoint]
    rcases h with ht | ht
    · rw [ht, if_neg (by decide), if_pos rfl, if_pos rfl, getLE_putLE]
      rfl
    · rw [ht, if_pos rfl, if_neg (by decide), if_neg (by decide), getLE_putLE]
      rfl
  unfold getExt2Inode
  rw [hmode]
  rcases h with ht | ht
  · rw [ht]; rfl
  · rw [ht]; rfl

lemma getExt2Inode_putExt2Inode (h : Canonical ip) (d : Block) (o : Nat) :
    getExt2Inode (putExt2Inode d o ip) o = ip := by
  have haddrs : (getExt2Inode (putExt2Inode d o ip) o).addrs = ip.addrs := by
    funext i
    by_cases hi : i < EXT2_N_BLOCKS
    · exact getExt2Inode_addrs hi (h.addrs i) d o
    · rw [h.end_ i (by omega)]
      exact if_neg hi
  exact Dinode.ext (getExt2Inode_type h.type d o) h.major.symm h.minor.symm (getExt2Inode_nlink h.nlink d o)
    (getExt2Inode_size h.size d o) haddrs

/-! ## The inode tables -/

/-- The copy of inode `inum` that the blocks `v` hold. -/
def inodeAt (sb : Ext2Super) (v : Disk) (inum : Nat) : Dinode :=
  getExt2Inode (v (inodeHome sb (v 2) inum).1) (inodeHome sb (v 2) inum).2

/-- The inodes `1 .. n` have places in the inode tables that do not overlap, outside
    the block of the group descriptors. -/
structure InodeTables (sb : Ext2Super) (n : Nat) (desc : Block) : Prop where
  ipg      : 0 < sb.sInodesPerGroup
  isize    : 0 < sb.sInodeSize
  perBlock : 0 < BSIZE / sb.sInodeSize
  inside   : ∀ i, 1 ≤ i → i ≤ n → (inodeHome sb desc i).1 ≠ 2 ∧
    (inodeHome sb desc i).2 + INODE_BYTES ≤ BSIZE
  apart    : ∀ i, 1 ≤ i → i ≤ n → ∀ j, 1 ≤ j → j ≤ n → i ≠ j →
    (inodeHome sb desc i).1 = (inodeHome sb desc j).1 →
    (inodeHome sb desc i).2 + INODE_BYTES ≤ (inodeHome sb desc j).2 ∨
    (inodeHome sb desc j).2 + INODE_BYTES ≤ (inodeHome sb desc i).2

/-- The inode depends on the descriptors and on its block of the table. -/
lemma inodeAt_congr {v v' : Disk} (h2 : v' 2 = v 2)
    (hhome : v' (inodeHome sb (v 2) inum).1 = v (inodeHome sb (v 2) inum).1) :
    inodeAt sb v' inum = inodeAt sb v inum := by
  unfold inodeAt
  rw [h2, hhome]

lemma ext2fsIupdate_eq (hg : checkGeometry sb = .ok ()) (inum : Nat) (ip : Dinode) :
    ext2fsIupdate sb inum ip s = .ok (bwrite (inodeHome sb (s.view 2) inum).1
      (putExt2Inode (s.view (inodeHome sb (s.view 2) inum).1) (inodeHome sb (s.view 2) inum).2 ip)
      ((s.touch 2).touch (inodeHome sb (s.view 2) inum).1)) := by
  rw [ext2fsIupdate, hg, ok_bind, bread_nil]
  dsimp only
  rw [bread_nil]
  dsimp only
  rw [touch_view]

section Tables

variable {sb : Ext2Super} {n : Nat} {s : Bcache} (ht : InodeTables sb n (s.view 2))
include ht

lemma InodeTables.checkGeometry_eq : checkGeometry sb = .ok () := by
  unfold checkGeometry
  rw [checkDiv_of_pos ht.ipg, ok_bind, checkDiv_of_pos ht.isize, ok_bind,
    checkDiv_of_pos ht.perBlock]

lemma ext2fsIread_eq (inum : Nat) : ext2fsIread sb inum s = .ok (inodeAt sb s.view inum,
      (s.touch 2).touch (inodeHome sb (s.view 2) inum).1) := by
  rw [ext2fsIread, ht.checkGeometry_eq, ok_bind, bread_nil]
  dsimp only
  rw [bread_nil]
  dsimp only
  rw [touch_view]
  rfl

variable {s' : Bcache} {inum : Nat} {ip : Dinode} (h1 : 1 ≤ inum) (hn : inum ≤ n)
  (hr : ext2fsIupdate sb inum ip s = .ok s')
include hr

lemma ext2fsIupdate_view : s'.view = Function.update s.view (inodeHome sb (s.view 2) inum).1
      (fillBlock (s.view (inodeHome sb (s.view 2) inum).1)
        (putExt2Inode (s.view (inodeHome sb (s.view 2) inum).1)
          (inodeHome sb (s.view 2) inum).2 ip)) := by
  rw [ext2fsIupdate_eq ht.checkGeometry_eq] at hr
  obtain rfl := Except.ok.inj hr
  simp only [bwrite_view, touch_view]

include h1 hn

lemma ext2fsIupdate_desc : s'.view 2 = s.view 2 := by
  rw [ext2fsIupdate_view ht hr, Function.update_of_ne (Ne.symm (ht.inside inum h1 hn).1)]

lemma inodeAt_iupdate (hc : Canonical ip) : inodeAt sb s'.view inum = ip := by
  have hbytes := (ht.inside inum h1 hn).2
  unfold inodeAt
  rw [ext2fsIupdate_desc ht h1 hn hr, ext2fsIupdate_view ht hr, Function.update_self,
    getExt2Inode_congr (fun k _ hk => fillBlock_in (by omega)), getExt2Inode_putExt2Inode hc]

lemma inodeAt_iupdate_of_ne {j : Nat} (hj1 : 1 ≤ j) (hjn : j ≤ n) (hne : j ≠ inum) :
    inodeAt sb s'.view j = inodeAt sb s.view j := by
  by_cases hb : (inodeHome sb (s.view 2) j).1 = (inodeHome sb (s.view 2) inum).1
  · have hapart := ht.apart j hj1 hjn inum h1 hn hne hb
    have hbytes := (ht.inside j hj1 hjn).2
    unfold inodeAt
    rw [ext2fsIupdate_desc ht h1 hn hr, ext2fsIupdate_view ht hr, hb, Function.update_self]
    refine getExt2Inode_congr (fun k hk1 hk2 => ?_)
    rw [fillBlock_in (by omega), putExt2Inode_out (by omega)]
  · refine inodeAt_congr (ext2fsIupdate_desc ht h1 hn hr) ?_
    rw [ext2fsIupdate_view ht hr, Function.update_of_ne hb]

end Tables

end Ext2Inode
