import Xv6Ext2.DirNameProofs
import Xv6Ext2.Ext2InodeProofs

/-! # Directories of the ext2 device (ext2fs.c)

    `ext2fs_dirlookup` and `ext2fs_dirlink` over the operations of the directory's inode.  The
    record `de` is a local variable: the memory from its address on is passed in, because
    `ext2fs_dirlink` writes `EXT2_BSIZE` bytes from there although the record is shorter. -/

namespace Ext2Dir

open ByteBlock BufCache Outcome FileIo DirName

/-- Longest name of an entry. -/
def EXT2_NAME_LEN : Nat := 255

/-- `sizeof(struct ext2_dir_entry_2)`. -/
def DIRENT : Nat := 264

/-- Fields of `struct ext2_dir_entry_2`. -/
def deInode (de : Block) : Nat := getLE de 4 0
def deRecLen (de : Block) : Nat := getLE de 2 4
def deNameLen (de : Block) : Nat := (de 6).toNat

/-- `readi` of a file system. -/
abbrev Reader := Dinode → Nat → Nat → Bcache → Except Err ((Int × List UInt8) × Dinode × Bcache)

/-- `writei` of a file system. -/
abbrev Writer := Dinode → (Nat → UInt8) → Nat → Nat → Bcache → Except Err (Int × Dinode × Bcache)

/-- Read the record at `off` into the memory at `de`. -/
def readDirent (rd : Reader) (msg : String) (ip : Dinode) (off : Nat) (de : Block)
    (s : Bcache) : Except Err (Block × Dinode × Bcache) := do
  let ((r, bytes), ip, s) ← rd ip off DIRENT s
  if r ≠ (DIRENT : Int) then .error (.panic msg)
  else .ok (blit de 0 DIRENT (fun k => bytes.getD k 0), ip, s)

/-- The name of the entry as a C string. -/
def fileName (de : Block) : Nat → UInt8 :=
  fun k => if k < deNameLen de then strncpyByte (fun j => de (8 + j)) k else 0

/-- The loop of `ext2fs_dirlookup` from `off` on: the offset and the inode number of
    the record with this name.  The offset is an `unsigned int`; a loop of more than
    `2 ^ 32` turns counts as one that never ends. -/
def dirlookupFrom (rd : Reader) (name : List UInt8) :
    Nat → Nat → Dinode → Bcache → Except Err (Option (Nat × Nat) × Dinode × Bcache)
  | 0, _, _, _ => .error .hang
  | fuel + 1, off, ip, s =>
    if off < ip.size then do
      let (de, ip, s) ←
        readDirent rd "ext2fs_dirlookup: read error" ip off (fun _ => 0) s
      if deInode de ≠ 0 ∧ strncmpEq (cstr name) (fileName de) EXT2_NAME_LEN 0 = true then
        .ok (some (off, deInode de), ip, s)
      else dirlookupFrom rd name fuel ((off + deRecLen de) % 2 ^ 32) ip s
    else .ok (none, ip, s)

/-- Look for an entry and return its inode number and offset. -/
def ext2fsDirlookup (rd : Reader) (name : List UInt8) (ip : Dinode) (s : Bcache) :
    Except Err (Option (Nat × Nat) × Dinode × Bcache) :=
  dirlookupFrom rd name (2 ^ 32 + 1) 0 ip s

/-- The loop of `ext2fs_dirlink`: the offset of a record without an inode, or the end,
    and the memory at `de`. -/
def freeDirent (rd : Reader) :
    Nat → Nat → Block → Dinode → Bcache → Except Err (Nat × Block × Dinode × Bcache)
  | 0, off, de, ip, s => .ok (off, de, ip, s)
  | fuel + 1, off, de, ip, s =>
    if off < ip.size then do
      let (de, ip, s) ← readDirent rd "ext2fs_dirlink read" ip off de s
      if deInode de = 0 then .ok (off, de, ip, s)
      else freeDirent rd fuel (off + DIRENT) de ip s
    else .ok (off, de, ip, s)

/-- The record that `ext2fs_dirlink` stores: `strncpy` copies as many bytes of the name
    as the record last read has. -/
def newDirent (de : Block) (name : List UInt8) (inum : Nat) : Block :=
  let de := blit de 8 (deNameLen de) (strncpyByte (cstr name))
  let de := putLE de 4 0 inum
  let de := putLE de 2 4 BSIZE
  putLE de 1 6 (strlen name)

/-- Write a new directory entry of the directory `dnum`.  The inode of a name that is
    present is put back; the directory itself is locked, so `iput` of it waits forever.
    The inode is updated before the record is written. -/
def ext2fsDirlink (dnum : Nat) (rd : Reader) (wr : Writer) (iupdate : Dinode → Bcache → Except Err Bcache)
    (name : List UInt8) (inum : Nat) (de : Block) (ip : Dinode) (s : Bcache) :
    Except Err (Int × Dinode × Bcache) := do
  let (found, ip, s) ← ext2fsDirlookup rd name ip s
  match found with
  | some (_, ino) => if ino = dnum then .error .deadlock else .ok (-1, ip, s)
  | none => do
      let (off, de, ip, s) ← freeDirent rd ip.size 0 de ip s
      let de := newDirent de name inum
      let ip := { ip with size := (off + BSIZE) % 2 ^ 32 }
      let s ← iupdate ip s
      let (_, ip, s) ← wr ip de off BSIZE s
      .ok (0, ip, s)

end Ext2Dir
