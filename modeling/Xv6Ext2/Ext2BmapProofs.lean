import Xv6Ext2.Ext2LayoutProofs

/-! # `ext2fs_bmap` — the pointers it follows

    `ext2fs_bmap` finds the block of a file by its logical number, over the inode's
    15 pointers and up to three levels of indirect blocks, and allocates what is
    missing on the way.  The buffers of the indirect blocks stay locked until the
    end, and a pointer stored in one of them changes the buffer in memory only.

    `bmapPath` lists the pointer indices that the code uses, `ext2Path` those of the
    ext2 format, which are the base-256 digits of the number in its range. -/

namespace Ext2Bmap

open ByteBlock BufCache Outcome Ext2Alloc

/-- Slots of the block map, and the blocks that each level reaches (ext2fs.h). -/
def EXT2_NDIR_BLOCKS : Nat := 12
def EXT2_IND_BLOCK : Nat := EXT2_NDIR_BLOCKS
def EXT2_DIND_BLOCK : Nat := EXT2_IND_BLOCK + 1
def EXT2_TIND_BLOCK : Nat := EXT2_DIND_BLOCK + 1
def EXT2_N_BLOCKS : Nat := EXT2_TIND_BLOCK + 1
def EXT2_INDIRECT : Nat := BSIZE / 4
def EXT2_DINDIRECT : Nat := BSIZE / 4 * EXT2_INDIRECT
def EXT2_TINDIRECT : Nat := BSIZE / 4 * EXT2_DINDIRECT
def EXT2_MAXFILE : Nat :=
  EXT2_NDIR_BLOCKS + EXT2_INDIRECT + EXT2_DINDIRECT + EXT2_TINDIRECT

/-- `if ((addr = ad->addrs[i]) == 0) ad->addrs[i] = addr = ext2fs_balloc(...)`. -/
def inodeSlot (sb : Ext2Super) (inum i : Nat) (addrs : Nat → Nat) (s : Bcache) :
    Except Err (Nat × (Nat → Nat) × Bcache) :=
  if addrs i = 0 then do
    let (addr, s) ← ext2fsBalloc sb [] inum s
    .ok (addr, Function.update addrs i addr, s)
  else .ok (addrs i, addrs, s)

/-- `bp = bread(blk); a = bp->data; if ((addr = a[i]) == 0) a[i] = addr = ext2fs_balloc(...)`. -/
def wordSlot (sb : Ext2Super) (held : List Nat) (inum blk i : Nat) (s : Bcache) :
    Except Err (Nat × Bcache) := do
  let (a, s) ← bread held blk s
  if getLE a 4 (4 * i) = 0 then do
    let (addr, s) ← ext2fsBalloc sb (blk :: held) inum s
    .ok (addr, bput blk (putLE (s.view blk) 4 (4 * i) addr) s)
  else .ok (getLE a 4 (4 * i), s)

/-- Return the disk block address of the nth block of the inode; the pointers of the
    inode are returned beside it. -/
def ext2fsBmap (sb : Ext2Super) (inum bn : Nat) (addrs : Nat → Nat) (s : Bcache) :
    Except Err (Nat × (Nat → Nat) × Bcache) :=
  if bn < EXT2_NDIR_BLOCKS then inodeSlot sb inum bn addrs s
  else
    let bn := bn - EXT2_NDIR_BLOCKS
    if bn < EXT2_INDIRECT then do
      let (addr, addrs, s) ← inodeSlot sb inum EXT2_IND_BLOCK addrs s
      let (addr, s) ← wordSlot sb [] inum addr bn s
      .ok (addr, addrs, s)
    else
      let bn := bn - EXT2_INDIRECT
      if bn < EXT2_DINDIRECT then do
        let (bp, addrs, s) ← inodeSlot sb inum EXT2_DIND_BLOCK addrs s
        let (bp1, s) ← wordSlot sb [] inum bp (bn / EXT2_INDIRECT) s
        let (addr, s) ← wordSlot sb [bp] inum bp1 (bn / EXT2_INDIRECT) s
        .ok (addr, addrs, s)
      else
        let bn := bn - EXT2_DINDIRECT
        if bn < EXT2_TINDIRECT then do
          let (bp, addrs, s) ← inodeSlot sb inum EXT2_TIND_BLOCK addrs s
          let (bp1, s) ← wordSlot sb [] inum bp (bn / EXT2_INDIRECT) s
          let (bp2, s) ← wordSlot sb [bp] inum bp1 (bn / EXT2_INDIRECT) s
          let (addr, s) ← wordSlot sb [bp1, bp] inum bp2 (bn / EXT2_INDIRECT) s
          .ok (addr, addrs, s)
        else .error (.panic "ext2_bmap: block number out of range\n")

/-! ## The indices -/

/-- The slot of the inode and the indices in the indirect blocks that the code uses,
    from the inode down. -/
def bmapPath (bn : Nat) : Option (Nat × List Nat) :=
  if bn < 12 then some (bn, [])
  else if bn - 12 < 256 then some (12, [bn - 12])
  else if bn - 268 < 65536 then some (13, [(bn - 268) / 256, (bn - 268) / 256])
  else if bn - 65804 < 16777216 then
    some (14, [(bn - 65804) / 256, (bn - 65804) / 256, (bn - 65804) / 256])
  else none

/-- The same of the ext2 format: the digits of the number within its range. -/
def ext2Path (bn : Nat) : Option (Nat × List Nat) :=
  if bn < 12 then some (bn, [])
  else if bn - 12 < 256 then some (12, [bn - 12])
  else if bn - 268 < 256 ^ 2 then some (13, [(bn - 268) / 256, (bn - 268) % 256])
  else if bn - 65804 < 256 ^ 3 then
    some (14, [(bn - 65804) / 256 ^ 2, (bn - 65804) / 256 % 256, (bn - 65804) % 256])
  else none

/-- Follow the pointers of indirect blocks from block `blk` on. -/
def followWords (sb : Ext2Super) (inum : Nat) :
    List Nat → List Nat → Nat → Bcache → Except Err (Nat × Bcache)
  | [], _, blk, s => .ok (blk, s)
  | i :: is, held, blk, s => do
      let (b, s) ← wordSlot sb held inum blk i s
      followWords sb inum is (blk :: held) b s

/-- Follow the pointers of a path from the inode on. -/
def followPath (sb : Ext2Super) (inum : Nat) (path : Option (Nat × List Nat))
    (addrs : Nat → Nat) (s : Bcache) : Except Err (Nat × (Nat → Nat) × Bcache) :=
  match path with
  | none => .error (.panic "ext2_bmap: block number out of range\n")
  | some (root, is) => do
      let (blk, addrs, s) ← inodeSlot sb inum root addrs s
      let (addr, s) ← followWords sb inum is [] blk s
      .ok (addr, addrs, s)

/-- `ext2fs_bmap` follows the pointers at the indices of `bmapPath`. -/
lemma ext2fsBmap_eq_followPath (sb : Ext2Super) (inum bn : Nat) (addrs : Nat → Nat) (s : Bcache) :
    ext2fsBmap sb inum bn addrs s = followPath sb inum (bmapPath bn) addrs s := by
  have h256 : EXT2_INDIRECT = 256 := rfl
  have h65536 : EXT2_DINDIRECT = 65536 := rfl
  have h16777216 : EXT2_TINDIRECT = 16777216 := rfl
  have h12 : EXT2_NDIR_BLOCKS = 12 := rfl
  rw [ext2fsBmap, bmapPath]
  simp only [h256, h65536, h16777216, h12, show bn - 12 - 256 = bn - 268 by omega,
    show bn - 268 - 65536 = bn - 65804 by omega]
  by_cases h1 : bn < 12
  · rw [if_pos h1, if_pos h1, followPath]
    cases inodeSlot sb inum bn addrs s with
    | ok r => rfl
    | error e => rfl
  rw [if_neg h1, if_neg h1]
  by_cases h2 : bn - 12 < 256
  · rw [if_pos h2, if_pos h2, followPath]
    simp only [followWords, bind_assoc]
    rfl
  rw [if_neg h2, if_neg h2]
  by_cases h3 : bn - 268 < 65536
  · rw [if_pos h3, if_pos h3, followPath]
    simp only [followWords, bind_assoc]
    rfl
  rw [if_neg h3, if_neg h3]
  by_cases h4 : bn - 65804 < 16777216
  · rw [if_pos h4, if_pos h4, followPath]
    simp only [followWords, bind_assoc]
    rfl
  · rw [if_neg h4, if_neg h4]
    rfl

/-- The numbers for which the code's indices are the digits: those of the direct and
    of the first indirect range, in the double indirect range those whose two digits
    are equal, and the first number of the triple indirect range. -/
def DigitsAgree (bn : Nat) : Prop :=
  bn < 268 ∨ (268 ≤ bn ∧ bn < 65804 ∧ (bn - 268) / 256 = (bn - 268) % 256) ∨ bn = 65804

lemma bmapPath_eq_ext2Path_iff {bn : Nat} (hbn : bn < EXT2_MAXFILE) :
    bmapPath bn = ext2Path bn ↔ DigitsAgree bn := by
  have hmax : bn < 16843020 := hbn
  rw [bmapPath, ext2Path, DigitsAgree]
  by_cases h1 : bn < 12
  · rw [if_pos h1, if_pos h1]
    exact ⟨fun _ => .inl (by omega), fun _ => rfl⟩
  rw [if_neg h1, if_neg h1]
  by_cases h2 : bn - 12 < 256
  · rw [if_pos h2, if_pos h2]
    exact ⟨fun _ => .inl (by omega), fun _ => rfl⟩
  rw [if_neg h2, if_neg h2]
  by_cases h3 : bn - 268 < 65536
  · rw [if_pos h3, if_pos (show bn - 268 < 256 ^ 2 from h3)]
    simp only [Option.some.injEq, Prod.mk.injEq, List.cons.injEq, true_and, and_true]
    omega
  rw [if_neg h3, if_neg (show ¬bn - 268 < 256 ^ 2 from h3), if_pos (by omega),
    if_pos (show bn - 65804 < 256 ^ 3 by omega)]
  simp only [Option.some.injEq, Prod.mk.injEq, List.cons.injEq, true_and, and_true]
  omega

end Ext2Bmap
