import Xv6Ext2.FileIoProofs
import Xv6Ext2.Xv6AllocProofs

/-! # Inodes of the root device (fs.c)

    The on-disk inodes, and the functions that work on the copy of an inode in
    memory: `xv6fs_iupdate`, `xv6fs_bmap` and `xv6fs_itrunc`.  The copy is passed by
    value; the inode cache loads and stores it. -/

namespace Xv6Inode

open ByteBlock BufCache Outcome FileIo Xv6Alloc

def NDIRECT : Nat := 12
def NINDIRECT : Nat := BSIZE / 4
def MAXFILE : Nat := NDIRECT + NINDIRECT

/-- Inodes per block; a `struct dinode` has 64 bytes. -/
def IPB : Nat := BSIZE / 64

def IBLOCK (i : Nat) (sb : Superblock) : Nat := i / IPB + sb.inodestart

/-- The `struct dinode` at offset `o` of a block; `addrs` has `NDIRECT + 1` words. -/
def getDinode (d : Block) (o : Nat) : Dinode where
  type  := getLE d 2 o
  major := getLE d 2 (o + 2)
  minor := getLE d 2 (o + 4)
  nlink := getLE d 2 (o + 6)
  size  := getLE d 4 (o + 8)
  addrs := fun i => if i < NDIRECT + 1 then getLE d 4 (o + 12 + 4 * i) else 0

/-- Store a `struct dinode` at offset `o` of a block. -/
def putDinode (d : Block) (o : Nat) (ip : Dinode) : Block :=
  let d := putLE d 2 o ip.type
  let d := putLE d 2 (o + 2) ip.major
  let d := putLE d 2 (o + 4) ip.minor
  let d := putLE d 2 (o + 6) ip.nlink
  let d := putLE d 4 (o + 8) ip.size
  putWords d (o + 12) ip.addrs (NDIRECT + 1) 0

/-- Copy a modified in-memory inode to disk. -/
def xv6fsIupdate (sb : Superblock) (inum : Nat) (ip : Dinode) (s : Bcache) :
    Except Err Bcache := do
  let (d, s) ← bread [] (IBLOCK inum sb) s
  .ok (logWrite (IBLOCK inum sb) (putDinode d (inum % IPB * 64) ip) s)

/-- `if((addr = ad->addrs[i]) == 0) ad->addrs[i] = addr = xv6fs_balloc(ip->dev)`. -/
def addrSlot (sb : Superblock) (ip : Dinode) (i : Nat) (s : Bcache) :
    Except Err (Nat × Dinode × Bcache) :=
  if ip.addrs i = 0 then do
    let (addr, s) ← xv6fsBalloc sb [] s
    .ok (addr, { ip with addrs := Function.update ip.addrs i addr }, s)
  else .ok (ip.addrs i, ip, s)

/-- `bp = bread(blk); a = bp->data; if((addr = a[i]) == 0){ a[i] = addr = xv6fs_balloc(...);
    log_write(bp); }`. -/
def entrySlot (sb : Superblock) (blk i : Nat) (s : Bcache) : Except Err (Nat × Bcache) := do
  let (a, s) ← bread [] blk s
  if getLE a 4 (4 * i) = 0 then do
    let (addr, s) ← xv6fsBalloc sb [blk] s
    .ok (addr, logWrite blk (putLE (s.view blk) 4 (4 * i) addr) s)
  else .ok (getLE a 4 (4 * i), s)

/-- Return the disk block address of the nth block of the inode. -/
def xv6fsBmap (sb : Superblock) (ip : Dinode) (bn : Nat) (s : Bcache) :
    Except Err (Nat × Dinode × Bcache) :=
  if bn < NDIRECT then addrSlot sb ip bn s
  else
    let bn := bn - NDIRECT
    if bn < NINDIRECT then do
      -- Load indirect block, allocating if necessary.
      let (addr, ip, s) ← addrSlot sb ip NDIRECT s
      let (addr, s) ← entrySlot sb addr bn s
      .ok (addr, ip, s)
    else .error (.panic "bmap: out of range")

/-- The first loop of `xv6fs_itrunc`, from address `i` on, with `n` addresses left. -/
def truncDirect (sb : Superblock) : Nat → Nat → Dinode → Bcache → Except Err (Dinode × Bcache)
  | 0, _, ip, s => .ok (ip, s)
  | n + 1, i, ip, s =>
    if ip.addrs i = 0 then truncDirect sb n (i + 1) ip s
    else do
      let s ← xv6fsBfree sb [] (ip.addrs i) s
      truncDirect sb n (i + 1) { ip with addrs := Function.update ip.addrs i 0 } s

/-- The second loop, over the entries of the indirect block `blk`, which stays locked. -/
def truncIndirect (sb : Superblock) (blk : Nat) : Nat → Nat → Bcache → Except Err Bcache
  | 0, _, s => .ok s
  | n + 1, j, s =>
    if getLE (s.view blk) 4 (4 * j) = 0 then truncIndirect sb blk n (j + 1) s
    else do
      let s ← xv6fsBfree sb [blk] (getLE (s.view blk) 4 (4 * j)) s
      truncIndirect sb blk n (j + 1) s

/-- The rest of `xv6fs_itrunc`: the indirect block, if there is one, with its entries. -/
def truncRest (sb : Superblock) (ip : Dinode) (s : Bcache) : Except Err (Dinode × Bcache) :=
  if ip.addrs NDIRECT = 0 then .ok (ip, s)
  else do
    let (_, s) ← bread [] (ip.addrs NDIRECT) s
    let s ← truncIndirect sb (ip.addrs NDIRECT) NINDIRECT 0 s
    let s ← xv6fsBfree sb [] (ip.addrs NDIRECT) s
    .ok ({ ip with addrs := Function.update ip.addrs NDIRECT 0 }, s)

def xv6fsItrunc (sb : Superblock) (inum : Nat) (ip : Dinode) (s : Bcache) :
    Except Err (Dinode × Bcache) := do
  let (ip, s) ← truncDirect sb NDIRECT 0 ip s
  let (ip, s) ← truncRest sb ip s
  let ip := { ip with size := 0 }
  let s ← xv6fsIupdate sb inum ip s
  .ok (ip, s)

def xv6fsReadi (sb : Superblock) : (Nat → Devsw) → Dinode → Nat → Nat → Bcache →
    Except Err ((Int × List UInt8) × Dinode × Bcache) :=
  readi (xv6fsBmap sb)

def xv6fsWritei (sb : Superblock) (inum : Nat) : (Nat → Devsw) → Dinode → (Nat → UInt8) →
    Nat → Nat → Bcache → Except Err (Int × Dinode × Bcache) :=
  writei (xv6fsBmap sb) logWrite (xv6fsIupdate sb inum) (MAXFILE * BSIZE)

/-! ## The inode on disk -/

/-- The copies of an inode that the disk can hold. -/
structure Canonical (ip : Dinode) : Prop where
  type  : ip.type < 2 ^ 16
  major : ip.major < 2 ^ 16
  minor : ip.minor < 2 ^ 16
  nlink : ip.nlink < 2 ^ 16
  size  : ip.size < 2 ^ 32
  addrs : ∀ i, ip.addrs i < 2 ^ 32
  end_  : ∀ i, NDIRECT < i → ip.addrs i = 0

lemma getDinode_canonical (d : Block) (o : Nat) : Canonical (getDinode d o) := by
  refine ⟨getLE_lt d 2 _, getLE_lt d 2 _, getLE_lt d 2 _, getLE_lt d 2 _, getLE_lt d 4 _,
    fun i => ?_, fun i hi => if_neg (by omega)⟩
  show (if i < NDIRECT + 1 then getLE d 4 (o + 12 + 4 * i) else 0) < 2 ^ 32
  split
  · exact getLE_lt d 4 _
  · decide

/-- The copy depends on the 64 bytes of the structure only. -/
lemma getDinode_congr {d e : Block} {o : Nat} (h : ∀ k, o ≤ k → k < o + 64 → d k = e k) :
    getDinode d o = getDinode e o := by
  have hword : ∀ n x, x + n ≤ 64 → getLE d n (o + x) = getLE e n (o + x) :=
    fun n x hx => getLE_congr (fun k h1 h2 => h k (by omega) (by omega))
  have haddr : (getDinode d o).addrs = (getDinode e o).addrs := by
    funext i
    show (if i < NDIRECT + 1 then getLE d 4 (o + 12 + 4 * i) else 0) =
      if i < NDIRECT + 1 then getLE e 4 (o + 12 + 4 * i) else 0
    by_cases hi : i < NDIRECT + 1
    · have hi13 : i < 13 := hi
      rw [if_pos hi, if_pos hi, Nat.add_assoc, hword 4 (12 + 4 * i) (by omega)]
    · rw [if_neg hi, if_neg hi]
  exact Dinode.ext (hword 2 0 (by decide)) (hword 2 2 (by decide)) (hword 2 4 (by decide))
    (hword 2 6 (by decide)) (hword 4 8 (by decide)) haddr

variable {ip : Dinode}

lemma putDinode_out {d : Block} {o k : Nat} (h : k < o ∨ o + 64 ≤ k) :
    putDinode d o ip k = d k := by
  unfold putDinode NDIRECT
  rw [putWords_out (by omega)]
  iterate 5 rw [putLE_out (by omega)]

lemma getDinode_putDinode (h : Canonical ip) (d : Block) (o : Nat) :
    getDinode (putDinode d o ip) o = ip := by
  have h13 : NDIRECT + 1 = 13 := rfl
  have hword : ∀ n x, (n = 2 ∧ x = 0) ∨ (n = 2 ∧ x = 2) ∨ (n = 2 ∧ x = 4) ∨ (n = 2 ∧ x = 6) ∨
      (n = 4 ∧ x = 8) → getLE (putDinode d o ip) n (o + x) =
        getLE (putLE (putLE (putLE (putLE (putLE d 2 o ip.type) 2 (o + 2) ip.major) 2 (o + 4)
          ip.minor) 2 (o + 6) ip.nlink) 4 (o + 8) ip.size) n (o + x) := by
    intro n x hx
    unfold putDinode
    rw [getLE_putWords_of_disjoint (by omega)]
  have htype : getLE (putDinode d o ip) 2 (o + 0) = ip.type := by
    rw [hword 2 0 (by omega)]
    simp (disch := omega) only [getLE_putLE_of_disjoint]
    rw [Nat.add_zero, getLE_putLE]
    exact Nat.mod_eq_of_lt h.type
  have hmajor : getLE (putDinode d o ip) 2 (o + 2) = ip.major := by
    rw [hword 2 2 (by omega)]
    simp (disch := omega) only [getLE_putLE_of_disjoint, getLE_putLE]
    exact Nat.mod_eq_of_lt h.major
  have hminor : getLE (putDinode d o ip) 2 (o + 4) = ip.minor := by
    rw [hword 2 4 (by omega)]
    simp (disch := omega) only [getLE_putLE_of_disjoint, getLE_putLE]
    exact Nat.mod_eq_of_lt h.minor
  have hnlink : getLE (putDinode d o ip) 2 (o + 6) = ip.nlink := by
    rw [hword 2 6 (by omega)]
    simp (disch := omega) only [getLE_putLE_of_disjoint, getLE_putLE]
    exact Nat.mod_eq_of_lt h.nlink
  have hsize : getLE (putDinode d o ip) 4 (o + 8) = ip.size := by
    rw [hword 4 8 (by omega), getLE_putLE]
    exact Nat.mod_eq_of_lt h.size
  have haddrs : (getDinode (putDinode d o ip) o).addrs = ip.addrs := by
    funext i
    show (if i < NDIRECT + 1 then getLE (putDinode d o ip) 4 (o + 12 + 4 * i) else 0) = _
    by_cases hi : i < NDIRECT + 1
    · rw [if_pos hi, putDinode, getLE_putWords (Nat.zero_le i) (by omega)]
      exact Nat.mod_eq_of_lt (h.addrs i)
    · rw [if_neg hi, h.end_ i (by omega)]
  exact Dinode.ext htype hmajor hminor hnlink hsize haddrs

/-- The copy of inode `inum` that the blocks `v` hold. -/
def dinodeAt (sb : Superblock) (v : Disk) (inum : Nat) : Dinode :=
  getDinode (v (IBLOCK inum sb)) (inum % IPB * 64)

lemma dinodeAt_canonical (sb : Superblock) (v : Disk) (inum : Nat) :
    Canonical (dinodeAt sb v inum) := getDinode_canonical _ _

variable {inum : Nat}

lemma dinodeAt_congr {sb : Superblock} {v v' : Disk}
    (h : v' (IBLOCK inum sb) = v (IBLOCK inum sb)) : dinodeAt sb v' inum = dinodeAt sb v inum := by
  unfold dinodeAt
  rw [h]

/-- The contents once inode `inum` is stored. -/
def updated (sb : Superblock) (v : Disk) (inum : Nat) (ip : Dinode) : Disk :=
  Function.update v (IBLOCK inum sb) (fillBlock (v (IBLOCK inum sb))
    (putDinode (v (IBLOCK inum sb)) (inum % IPB * 64) ip))

lemma xv6fsIupdate_eq (sb : Superblock) (inum : Nat) (ip : Dinode) (s : Bcache) :
    ∃ s', xv6fsIupdate sb inum ip s = .ok s' ∧ s'.view = updated sb s.view inum ip := by
  refine ⟨_, rfl, ?_⟩
  rw [logWrite, bput_view, touch_view]
  rfl

lemma slot_in_block (inum : Nat) : inum % IPB * 64 + 64 ≤ BSIZE := by
  have : inum % IPB < 16 := Nat.mod_lt _ (by decide)
  unfold BSIZE
  omega

/-- A store into the block of inode `inum`. -/
lemma dinodeAt_store (sb : Superblock) (v : Disk) (inum : Nat) (d : Block) :
    dinodeAt sb (Function.update v (IBLOCK inum sb) (fillBlock (v (IBLOCK inum sb)) d)) inum =
      getDinode d (inum % IPB * 64) := by
  have hin := slot_in_block inum
  unfold dinodeAt
  rw [Function.update_self, getDinode_congr (fun k _ hk => fillBlock_in (by omega))]

lemma dinodeAt_store_of_ne (sb : Superblock) (v : Disk) {j : Nat} {d : Block}
    (hd : ∀ k, k < inum % IPB * 64 ∨ inum % IPB * 64 + 64 ≤ k → d k = v (IBLOCK inum sb) k)
    (h : j ≠ inum) :
    dinodeAt sb (Function.update v (IBLOCK inum sb) (fillBlock (v (IBLOCK inum sb)) d)) j =
      dinodeAt sb v j := by
  by_cases hb : IBLOCK j sb = IBLOCK inum sb
  · -- the same block, another place in it
    have hne : j % IPB ≠ inum % IPB := by
      intro hm
      have hq : j / IPB = inum / IPB := by unfold IBLOCK at hb; omega
      exact h (by rw [← Nat.div_add_mod j IPB, ← Nat.div_add_mod inum IPB, hq, hm])
    have hin := slot_in_block j
    unfold dinodeAt
    rw [hb, Function.update_self]
    refine getDinode_congr (fun k h1 h2 => ?_)
    rw [fillBlock_in (by omega), hd k (by omega)]
  · exact dinodeAt_congr (Function.update_of_ne hb _ _)

lemma dinodeAt_updated (sb : Superblock) (v : Disk)
    (h : Canonical ip) : dinodeAt sb (updated sb v inum ip) inum = ip := by
  rw [updated, dinodeAt_store, getDinode_putDinode h]

lemma dinodeAt_updated_of_ne (sb : Superblock) (v : Disk) {j : Nat} (ip : Dinode)
    (h : j ≠ inum) : dinodeAt sb (updated sb v inum ip) j = dinodeAt sb v j :=
  dinodeAt_store_of_ne sb v (fun _ hk => putDinode_out hk) h

end Xv6Inode
