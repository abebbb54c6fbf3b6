import Xv6Ext2.Xv6DirProofs

/-! # The image that mkfs builds (mkfs.c)

    `mkfs` writes the image of the root device sector by sector: the superblock, the root directory
    with the entries `.`, `..` and `mnt`, one inode and one entry for each host file, and the
    bitmap.  All three entries of the root directory name the root directory itself. -/

namespace Mkfs

open ByteBlock BufCache Param Outcome FileIo DirName Xv6Alloc Xv6Inode

/-- Number of inodes, and the layout that `main` computes. -/
def NINODES : Nat := 200

def nbitmap : Nat := FSSIZE / (BSIZE * 8) + 1
def ninodeblocks : Nat := NINODES / IPB + 1
def nlog : Nat := LOGSIZE
def nmeta : Nat := 2 + nlog + ninodeblocks + nbitmap
def nblocks : Nat := FSSIZE - nmeta

/-- The superblock that is written to sector 1. -/
def sb : Superblock where
  size       := FSSIZE
  nblocks    := nblocks
  ninodes    := NINODES
  nlog       := nlog
  logstart   := 2
  inodestart := 2 + nlog
  bmapstart  := 2 + nlog + ninodeblocks

/-- The image file, and the counters of inodes and blocks handed out. -/
structure Img where
  sect      : Nat → Block
  size      : Nat
  freeinode : Nat
  freeblock : Nat

/-- A read past the end of the image file fails, and `mkfs` exits. -/
def rsect (sec : Nat) (g : Img) : Except Err Block :=
  if sec < g.size then .ok (g.sect sec) else .error (.panic "read")

/-- Write a sector. -/
def wsect (sec : Nat) (buf : Block) (g : Img) : Img :=
  { g with sect := Function.update g.sect sec buf, size := max g.size (sec + 1) }

/-- Read a dinode from its sector. -/
def rinode (inum : Nat) (g : Img) : Except Err Dinode := do
  let buf ← rsect (IBLOCK inum sb) g
  .ok (getDinode buf (inum % IPB * 64))

/-- Write a dinode into its sector. -/
def winode (inum : Nat) (ip : Dinode) (g : Img) : Except Err Img := do
  let buf ← rsect (IBLOCK inum sb) g
  .ok (wsect (IBLOCK inum sb) (putDinode buf (inum % IPB * 64) ip) g)

/-- The next free inode, with one link and size 0. -/
def ialloc (type : Nat) (g : Img) : Except Err (Nat × Img) := do
  let g' ← winode g.freeinode ⟨type, 0, 0, 1, 0, fun _ => 0⟩
    { g with freeinode := g.freeinode + 1 }
  .ok (g.freeinode, g')

/-- `if(xint(din.addrs[i]) == 0) din.addrs[i] = xint(freeblock++)`. -/
def addrOf (i : Nat) (din : Dinode) (g : Img) : Dinode × Img :=
  if din.addrs i = 0 then
    ({ din with addrs := Function.update din.addrs i g.freeblock },
      { g with freeblock := g.freeblock + 1 })
  else (din, g)

/-- The same for word `i` of the indirect block, which is then written. -/
def wordOf (blk i : Nat) (g : Img) : Except Err (Nat × Img) := do
  let indirect ← rsect blk g
  if getLE indirect 4 (4 * i) = 0 then
    .ok (g.freeblock, wsect blk (putLE indirect 4 (4 * i) g.freeblock)
      { g with freeblock := g.freeblock + 1 })
  else .ok (getLE indirect 4 (4 * i), g)

/-- The sector of block `fbn` of an inode. -/
def sectOf (fbn : Nat) (din : Dinode) (g : Img) : Except Err (Nat × Dinode × Img) :=
  if fbn < NDIRECT then
    let (din, g) := addrOf fbn din g
    .ok (din.addrs fbn, din, g)
  else
    let (din, g) := addrOf NDIRECT din g
    do
      let (x, g) ← wordOf (din.addrs NDIRECT) (fbn - NDIRECT) g
      .ok (x, din, g)

/-- The loop of `iappend`: the bytes of `p` go to offset `off`. -/
def appendFrom : Nat → Nat → List UInt8 → Dinode → Img → Except Err (Nat × Dinode × Img)
  | 0, off, _, din, g => .ok (off, din, g)
  | fuel + 1, off, p, din, g =>
    if p.length = 0 then .ok (off, din, g)
    else if MAXFILE ≤ off / BSIZE then .error (.panic "assert")
    else do
      let fbn := off / BSIZE
      let (x, din, g) ← sectOf fbn din g
      let n1 := min p.length ((fbn + 1) * BSIZE - off)
      let buf ← rsect x g
      let g := wsect x (blit buf (off - fbn * BSIZE) n1 (cstr p)) g
      appendFrom fuel (off + n1) (p.drop n1) din g

/-- Append bytes to a file. -/
def iappend (inum : Nat) (p : List UInt8) (g : Img) : Except Err Img := do
  let din ← rinode inum g
  let (off, din, g) ← appendFrom p.length din.size p din g
  winode inum { din with size := off } g

/-- A directory entry, with its name cut to 14 bytes. -/
def dirent (name : List UInt8) (inum : Nat) : List UInt8 :=
  (List.range Xv6Dir.DIRENT).map (Xv6Dir.newDirent name inum)

/-- `while((cc = read(fd, buf, sizeof(buf))) > 0) iappend(inum, buf, cc)`. -/
def copyFrom (inum : Nat) : Nat → List UInt8 → Img → Except Err Img
  | 0, _, g => .ok g
  | fuel + 1, data, g =>
    if data.length = 0 then .ok g
    else do
      let g ← iappend inum (data.take BSIZE) g
      copyFrom inum fuel (data.drop BSIZE) g

/-- The name without a leading `_`. -/
def hostName (name : List UInt8) : List UInt8 :=
  match name with
  | 95 :: rest => rest
  | _ => name

/-- A host file with its name and its bytes. -/
structure HostFile where
  name : List UInt8
  data : List UInt8

/-- One turn of the loop over the host files; a name with a `/` fails an assertion. -/
def addFile (f : HostFile) (g : Img) : Except Err Img :=
  if 47 ∈ f.name then .error (.panic "assert")
  else do
    let (inum, g) ← ialloc T_FILE g
    let g ← iappend ROOTINO (dirent (hostName f.name) inum) g
    copyFrom inum f.data.length f.data g

/-- The loop over the arguments. -/
def addFiles : List HostFile → Img → Except Err Img
  | [], g => .ok g
  | f :: fs, g => do
      let g ← addFile f g
      addFiles fs g

/-- The bitmap block with the first `used` bits set. -/
def usedBits (used : Nat) : Block := fun k =>
  if 8 * (k + 1) ≤ used then 255 else if used ≤ 8 * k then 0
  else UInt8.ofNat (2 ^ (used - 8 * k) - 1)

/-- Mark the first blocks in use in the one bitmap block. -/
def balloc (used : Nat) (g : Img) : Except Err Img :=
  if BSIZE * 8 ≤ used then .error (.panic "assert")
  else .ok (wsect sb.bmapstart (usedBits used) g)

/-- Fix size of root inode dir. -/
def fixRoot (g : Img) : Except Err Img := do
  let din ← rinode ROOTINO g
  winode ROOTINO { din with size := (din.size / BSIZE + 1) * BSIZE } g

/-- The superblock as the bytes of a sector. -/
def sbSector : Block :=
  putWords (fun _ => 0) 0
    ([sb.size, sb.nblocks, sb.ninodes, sb.nlog, sb.logstart, sb.inodestart, sb.bmapstart].getD · 0)
    7 0

/-- All sectors are cleared before the superblock is written. -/
def blank : Img := wsect 1 sbSector ⟨fun _ _ => 0, FSSIZE, 1, nmeta⟩

/-- The name `"mnt"`. -/
def MNT : List UInt8 := [109, 110, 116]

/-- The root directory with `.`, `..` and `mnt`. -/
def makeRoot (g : Img) : Except Err Img := do
  let (rootino, g) ← ialloc T_DIR g
  if rootino ≠ ROOTINO then .error (.panic "assert")
  else do
    let g ← iappend rootino (dirent DOT rootino) g
    let g ← iappend rootino (dirent DOTDOT rootino) g
    iappend rootino (dirent MNT rootino) g

/-- The image with the given files. -/
def main (files : List HostFile) : Except Err Img := do
  let g ← makeRoot blank
  let g ← addFiles files g
  let g ← fixRoot g
  balloc g.freeblock g

/-- The root device with an image. -/
def Img.device (g : Img) : Bcache := ⟨g.sect, fun _ => none⟩

/-- The blocks that matter of the image without host files, as a table. -/
def rootImage : Disk := fun b =>
  if b = 32 then putDinode (fun _ => 0) 64 ⟨T_DIR, 0, 0, 1, BSIZE, fun i => if i = 0 then 46 else 0⟩
  else if b = 45 then usedBits 47
  else if b = 46 then cstr (dirent DOT 1 ++ dirent DOTDOT 1 ++ dirent MNT 1)
  else fun _ => 0

end Mkfs
