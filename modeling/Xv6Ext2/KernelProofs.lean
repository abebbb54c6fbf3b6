import Xv6Ext2.PathProofs
import Xv6Ext2.Xv6CallsProofs

/-! # Inodes, locks and paths as the system calls use them (fs.c, ext2fs.c, file.c)

    The state of the kernel that the system calls on files work on: the inode cache with
    both devices, the sleep-locks of the entries, the file table and the processes.  One
    process runs a system call at a time.  A call through `ip->iops` goes to the functions
    of the entry's file system.

    The code is written with state passing; a call that stops the kernel, or that waits
    for a sleep-lock that the process itself holds, ends in an error. -/

namespace Kernel

open ByteBlock BufCache Param Outcome FileIo DirName Xv6Alloc Xv6Inode Ext2Alloc Ext2Inode SlotTable
  Icache Path

/-- What does not change: the superblocks, the device table, and the memory at the local
    variable `de` of `ext2fs_dirlink`. -/
structure Config where
  sb    : Superblock
  esb   : Ext2Super
  devsw : Nat → Devsw
  de    : Block

/-- The type of an open file. -/
inductive FdType where
  | none
  | pipe
  | inode
  deriving DecidableEq, Repr

/-- `struct file`; `ip` is the entry of an inode file. -/
structure File where
  ref      : Nat
  type     : FdType
  ip       : Nat
  off      : Nat
  readable : Bool
  writable : Bool
  deriving DecidableEq

/-- The open files and the current directory of a process. -/
structure Proc where
  ofile : Nat → Option Nat
  cwd   : Nat

/-- The state.  `locked` says which sleep-locks the running process `cur` holds; `begun`
    and `ended` count the calls of `begin_op` and `end_op`. -/
structure State where
  cache  : Cache
  locked : Nat → Bool
  file   : Nat → File
  proc   : Nat → Proc
  cur    : Nat
  begun  : Nat
  ended  : Nat

/-- System calls: they change the state, or do not return. -/
abbrev Sys := StateT State (Except Err)

/-- The call does not return. -/
def stop {α : Type} (e : Err) : Sys α := fun _ => .error e

/-- `*ip` for the entry `a` of the inode cache. -/
def inode (a : Nat) : Sys Inode := fun k => .ok (k.cache.inode a, k)

/-- A function of the inode cache. -/
def onCache {α : Type} (f : Cache → Except Err (α × Cache)) : Sys α := fun k => do
  let (r, st) ← f k.cache
  .ok (r, { k with cache := st })

/-- An assignment to fields of `*ip`. -/
def modifyInode (a : Nat) (f : Inode → Inode) : Sys Unit := fun k =>
  .ok ((), { k with cache := k.cache.setInode a (f (k.cache.inode a)) })

/-- Counted, to compare with `endOp`. -/
def beginOp : Sys Unit := fun k => .ok ((), { k with begun := k.begun + 1 })

def endOp : Sys Unit := fun k => .ok ((), { k with ended := k.ended + 1 })

lemma inode_bind {α : Type} (a : Nat) (f : Icache.Inode → Sys α) (k : State) :
    (inode a >>= f) k = f (k.cache.inode a) k := rfl

variable {k : State}

/-- Two calls that do the same in state `k`, followed by the same code. -/
lemma bind_congr_state {α β : Type} {x y : Sys α} (h : x k = y k) (f : α → Sys β) :
    (x >>= f) k = (y >>= f) k := by
  show (x k >>= _) = (y k >>= _)
  rw [h]

lemma bind_eq_of_ok {α β : Type} {x : Sys α} {f : α → Sys β} {a : α} {k' : State}
    (h : x k = .ok (a, k')) : (x >>= f) k = f a k' := by
  show (x k >>= fun r => f r.1 r.2) = _
  rw [h]
  rfl

/-! ## Locks and references -/

/-- The sleep-lock of an entry; the process that holds it would wait forever. -/
def acquiresleep (a : Nat) : Sys Unit := fun k =>
  if k.locked a then .error .deadlock
  else .ok ((), { k with locked := Function.update k.locked a true })

/-- The holder gives up the sleep-lock. -/
def releasesleep (a : Nat) : Sys Unit := fun k =>
  .ok ((), { k with locked := Function.update k.locked a false })

/-- Whether the sleep-lock is held. -/
def holdingsleep (a : Nat) : Sys Bool := fun k => .ok (k.locked a, k)

/-- `ip->iops`; following a null pointer is an error. -/
def iops (a : Nat) : Sys Iops := do
  match (← inode a).iops with
  | none => stop .wild
  | some f => return f

variable {a : Nat} {f : Iops}

lemma iops_eq (h : (k.cache.inode a).iops = some f) : iops a k = .ok (f, k) := by
  show (match (k.cache.inode a).iops with
    | none => stop .wild
    | some f => pure f : Sys Iops) k = _
  rw [h]
  rfl

/-- Find the inode and return its entry, without locking it. -/
def iget (dev inum : Nat) : Sys Nat := onCache (Icache.iget dev inum)

/-- Increment the reference count. -/
def idup (a : Nat) : Sys Nat := onCache (fun st => .ok (a, Icache.idup a st))

variable (cfg : Config)

/-- Lock the inode, and read it from disk if necessary. -/
def ilock (a : Nat) : Sys Unit := do
  let f ← iops a
  if (← inode a).ref < 1 then stop (.panic (noRef f))
  else do
    acquiresleep a
    onCache (fun st => do .ok ((), ← Icache.ilock cfg.sb cfg.esb a st))

/-- Unlock the inode. -/
def iunlock (a : Nat) : Sys Unit := do
  let f ← iops a
  if (← holdingsleep a) = false ∨ (← inode a).ref < 1 then stop (.panic (notHeld f))
  else releasesleep a

/-- Drop a reference. -/
def iput (a : Nat) : Sys Unit := do
  let _ ← iops a
  acquiresleep a
  onCache (fun st => do .ok ((), ← Icache.iput cfg.sb cfg.esb a st))
  releasesleep a

/-- Unlock, then drop the reference. -/
def iunlockput (a : Nat) : Sys Unit := do
  iunlock a
  iput cfg a

/-! ## Contents -/

/-- A function of file system `f` on the inode of entry `a`, which works on the copy in memory. -/
def callOn {α : Type} (f : Iops) (g : Nat → Dinode → Bcache → Except Err (α × Dinode × Bcache))
    (a : Nat) (st : Cache) : Except Err (α × Cache) :=
  match (st.inode a).addrs with
  | none => .error .wild
  | some p => do
      let (r, d, bc) ← g (st.inode a).inum ((st.inode a).copy (st.slot p).addrs) (st.device f)
      .ok (r, ((st.setDevice f bc).setSlot p { st.slot p with addrs := d.addrs }).setInode a
        ((st.inode a).load d))

/-- A call through `ip->iops`. -/
def dispatch {α : Type} (a : Nat)
    (g : Iops → Nat → Dinode → Bcache → Except Err (α × Dinode × Bcache)) : Sys α := do
  let f ← iops a
  onCache (callOn f (g f) a)

/-- A call through `ip->iops` of a function that returns. -/
lemma dispatch_eq {α : Type} {p : AddrPtr}
    {g : Iops → Nat → Dinode → Bcache → Except Err (α × Dinode × Bcache)} {r : α} {d : Dinode}
    {bc : Bcache} (hops : (k.cache.inode a).iops = some f) (hp : (k.cache.inode a).addrs = some p)
    (h : g f (k.cache.inode a).inum ((k.cache.inode a).copy (k.cache.slot p).addrs)
      (k.cache.device f) = .ok (r, d, bc)) :
    dispatch a g k = .ok (r, { k with cache := ((k.cache.setDevice f bc).setSlot p
      { k.cache.slot p with addrs := d.addrs }).setInode a ((k.cache.inode a).load d) }) := by
  have hcall : callOn f (g f) a k.cache = .ok (r, ((k.cache.setDevice f bc).setSlot p
      { k.cache.slot p with addrs := d.addrs }).setInode a ((k.cache.inode a).load d)) := by
    rw [callOn, hp]
    dsimp only
    rw [h]
    rfl
  rw [dispatch, bind_eq_of_ok (iops_eq hops), onCache, hcall]
  rfl

lemma dispatch_ok {α : Type} {k' : State}
    {g : Iops → Nat → Dinode → Bcache → Except Err (α × Dinode × Bcache)} {r : α}
    (h : dispatch a g k = .ok (r, k')) :
    ∃ f p d bc, (k.cache.inode a).iops = some f ∧ (k.cache.inode a).addrs = some p ∧
      g f (k.cache.inode a).inum ((k.cache.inode a).copy (k.cache.slot p).addrs)
        (k.cache.device f) = .ok (r, d, bc) := by
  cases hops : (k.cache.inode a).iops with
  | none =>
    have hstop : iops a k = .error .wild := by
      show (match (k.cache.inode a).iops with
        | none => stop .wild
        | some f => pure f : Sys Iops) k = _
      rw [hops]
      rfl
    have hfail : dispatch a g k = .error .wild := by
      show (iops a k >>= fun x => onCache (callOn x.1 (g x.1) a) x.2) = _
      rw [hstop]
      rfl
    rw [hfail] at h
    cases h
  | some f =>
    rw [dispatch, bind_eq_of_ok (iops_eq hops), onCache] at h
    obtain ⟨⟨r', st⟩, hcall, h⟩ := bind_eq_ok.mp h
    obtain ⟨rfl, -⟩ := ok_pair_inj h
    rw [callOn] at hcall
    cases hp : (k.cache.inode a).addrs with
    | none => rw [hp] at hcall; cases hcall
    | some p =>
      rw [hp] at hcall
      obtain ⟨⟨r₁, d, bc⟩, hg, hcall⟩ := bind_eq_ok.mp hcall
      obtain ⟨rfl, -⟩ := ok_pair_inj hcall
      exact ⟨f, p, d, bc, rfl, rfl, hg⟩

/-- `iops->readi` of the two file systems. -/
def readiOf : Iops → Nat → Ext2Dir.Reader
  | .xv6fs, _ => xv6fsReadi cfg.sb cfg.devsw
  | .ext2fs, inum => ext2fsReadi cfg.esb inum cfg.devsw

/-- `iops->writei`. -/
def writeiOf : Iops → Nat → Ext2Dir.Writer
  | .xv6fs, inum => xv6fsWritei cfg.sb inum cfg.devsw
  | .ext2fs, inum => ext2fsWritei cfg.esb inum cfg.devsw

/-- `iops->iupdate`. -/
def iupdateOf : Iops → Nat → Dinode → Bcache → Except Err Bcache
  | .xv6fs => xv6fsIupdate cfg.sb
  | .ext2fs => ext2fsIupdate cfg.esb

/-- Read `n` bytes at `off`. -/
def readi (a off n : Nat) : Sys (Int × List UInt8) :=
  dispatch a (fun f inum ip s => readiOf cfg f inum ip off n s)

/-- Write `n` bytes at `off`. -/
def writei (a : Nat) (src : Nat → UInt8) (off n : Nat) : Sys Int :=
  dispatch a (fun f inum ip s => writeiOf cfg f inum ip src off n s)

/-- Copy the inode to disk. -/
def iupdate (a : Nat) : Sys Unit :=
  dispatch a (fun f inum ip s => do
    let s ← iupdateOf cfg f inum ip s
    .ok ((), ip, s))

/-! ## Directories -/

/-- The search of `dirlookup`: the offset of the record, and the inode number in it. -/
def searchOf (name : List UInt8) :
    Iops → Nat → Dinode → Bcache → Except Err (Option (Nat × Nat) × Dinode × Bcache)
  | .xv6fs, _, ip, s => do
      let ((off, de), ip, s) ← Xv6Dir.dirSearch cfg.sb cfg.devsw name ip s
      .ok (de.map (fun de => (off, Xv6Dir.deInum de)), ip, s)
  | .ext2fs, inum, ip, s => Ext2Dir.ext2fsDirlookup (readiOf cfg .ext2fs inum) name ip s

/-- Look for a directory entry; returns its offset and an entry of its inode. -/
def dirlookup (a : Nat) (name : List UInt8) : Sys (Option (Nat × Nat)) := do
  match ← dispatch a (searchOf cfg name) with
  | none => return none
  | some (off, inum) => do
      let b ← iget (← inode a).dev inum
      return some (off, b)

/-- The part of `ext2fs_dirlink` that adds the record. -/
def ext2AddDirent (name : List UInt8) (inum dnum : Nat) (ip : Dinode) (s : Bcache) :
    Except Err (Int × Dinode × Bcache) := do
  let (off, de, ip, s) ← Ext2Dir.freeDirent (readiOf cfg .ext2fs dnum) ip.size 0 cfg.de ip s
  let de := Ext2Dir.newDirent de name inum
  let ip := { ip with size := (off + BSIZE) % 2 ^ 32 }
  let s ← ext2fsIupdate cfg.esb dnum ip s
  let (_, ip, s) ← writeiOf cfg .ext2fs dnum ip de off BSIZE s
  .ok (0, ip, s)

/-- The part of `dirlink` that adds the record. -/
def addOf (name : List UInt8) (inum : Nat) :
    Iops → Nat → Dinode → Bcache → Except Err (Int × Dinode × Bcache)
  | .xv6fs => Xv6Dir.addDirent cfg.sb cfg.devsw name inum
  | .ext2fs => ext2AddDirent cfg name inum

/-- Write a new directory entry. -/
def dirlink (a : Nat) (name : List UInt8) (inum : Nat) : Sys Int := do
  match ← dirlookup cfg a name with
  | some (_, b) => do
      iput cfg b
      return -1
  | none => dispatch a (addOf cfg name inum)

/-- The inode that `ialloc` of a file system allocates. -/
def iallocOf (type : Nat) : Iops → Bcache → Except Err (Nat × Bcache)
  | .xv6fs => Xv6Calls.iallocFrom cfg.sb type cfg.sb.ninodes 1
  | .ext2fs => ext2fsIallocInum cfg.esb type

/-- Allocate an inode on the device of entry `a`; returns an entry with a reference to it. -/
def ialloc (a type : Nat) : Sys Nat := do
  let f ← iops a
  let inum ← onCache (fun st => do
    let (inum, bc) ← iallocOf cfg type f (st.device f)
    .ok (inum, st.setDevice f bc))
  iget (← inode a).dev inum

/-! ## Paths -/

/-- Root i-number of an ext2 device. -/
def EXT2INO : Nat := 2

/-- The string `"/mnt"`. -/
def MNT : List UInt8 := [47, 109, 110, 116]

/-- `strncmp(path, "/mnt", 4) == 0`. -/
def onMnt (path : List UInt8) : Bool := strncmpEq (cstr path) (cstr MNT) 4 0

/-- The loop of `namex`, at most one turn for each byte of the path.  Returns the entry of
    the inode, or of the parent's with the last element of the path.  The elements go to
    a buffer of `size` bytes. -/
def namexFrom (parent : Bool) (size : Nat) :
    Nat → List UInt8 → Nat → Sys (Option (Nat × List UInt8))
  | 0, _, _ => stop .hang
  | fuel + 1, path, a => do
      let dev := (← inode a).dev
      match skipelem path with
      | none =>
        if parent then do
          iput cfg a
          return none
        else return some (a, [])
      | some (elem, path) =>
        if size < stores dev elem.length then stop .wild
        else do
          let name := stored dev elem
          ilock cfg a
          if (← inode a).type ≠ T_DIR then do
            iunlockput cfg a
            return none
          else if parent = true ∧ firstByte path = 0 then do
            -- stop one level early
            iunlock a
            return some (a, name)
          else do
            match ← dirlookup cfg a name with
            | none => do
                iunlockput cfg a
                return none
            | some (_, next) => do
                iunlockput cfg a
                namexFrom parent size fuel path next

/-- `myproc()->cwd`. -/
def cwd : Sys Nat := fun k => .ok ((k.proc k.cur).cwd, k)

/-- Where the walk starts, and the path that is left. -/
def namexStart (path : List UInt8) : Sys (Nat × List UInt8) := do
  if onMnt path = true then do
    let a ← iget EXT2DEV EXT2INO
    return (a, path.drop 4)
  else if firstByte path = SLASH then do
    let a ← iget ROOTDEV ROOTINO
    return (a, path)
  else do
    let a ← idup (← cwd)
    return (a, path)

/-- Look up and return the inode for a path name. -/
def namex (parent : Bool) (size : Nat) (path : List UInt8) : Sys (Option (Nat × List UInt8)) := do
  let (a, path) ← namexStart path
  namexFrom cfg parent size (path.length + 1) path a

/-- The buffer of `namei` has `EXT2_NAME_LEN` bytes. -/
def namei (path : List UInt8) : Sys (Option Nat) := do
  let r ← namex cfg false Ext2Dir.EXT2_NAME_LEN path
  return r.map Prod.fst

/-- The buffers of the callers of `nameiparent` have `DIRSIZ` bytes. -/
def nameiparent (path : List UInt8) : Sys (Option (Nat × List UInt8)) :=
  namex cfg true Xv6Dir.DIRSIZ path

end Kernel
