import Xv6Ext2.KernelProofs

/-! # System calls on files (sysfile.c, file.c, exec.c)

    `sys_link`, `sys_unlink`, `sys_open`, `sys_mkdir`, `sys_mknod`, `sys_chdir`, `sys_close` and
    `exec`.  An argument that `argstr` or `argint` does not accept is `none`. -/

namespace Kernel

open ByteBlock BufCache Param Outcome FileIo DirName Xv6Alloc Ext2Alloc SlotTable Icache Path

/-! ## The file table -/

/-- Open files per system. -/
def NFILE : Nat := 100

/-- `f` is an entry of `ftable`. -/
def setFile (f : Nat) (v : File) (k : State) : State :=
  { k with file := Function.update k.file f v }

/-- A change of `*myproc()`. -/
def setProc (v : Proc) (k : State) : State :=
  { k with proc := Function.update k.proc k.cur v }

/-- Allocate a file structure. -/
def filealloc : Sys (Option Nat) := fun k =>
  match firstFrom (fun f => decide ((k.file f).ref = 0)) NFILE 0 with
  | none => .ok (none, k)
  | some f => .ok (some f, setFile f { k.file f with ref := 1 } k)

/-- Allocate a file descriptor for the given file. -/
def fdalloc (f : Nat) : Sys (Option Nat) := fun k =>
  match firstFrom (fun fd => decide ((k.proc k.cur).ofile fd = none)) NOFILE 0 with
  | none => .ok (none, k)
  | some fd => .ok (some fd, setProc { k.proc k.cur with
      ofile := Function.update (k.proc k.cur).ofile fd (some f) } k)

variable (cfg : Config)

/-- Close file `f`; a pipe has no inode. -/
def fileclose (f : Nat) : Sys Unit := fun k =>
  let ff := k.file f
  if ff.ref < 1 then .error (.panic "fileclose")
  else if 0 < ff.ref - 1 then .ok ((), setFile f { ff with ref := ff.ref - 1 } k)
  else
    let k := setFile f { ff with ref := 0, type := .none } k
    match ff.type with
    | .none | .pipe => .ok ((), k)
    | .inode => (do
        beginOp
        iput cfg ff.ip
        endOp : Sys Unit) k

/-! ## Links -/

/-- `ip->nlink++`. -/
def incNlink (a : Nat) : Sys Unit :=
  modifyInode a (fun ip => { ip with nlink := (ip.nlink + 1) % 2 ^ 16 })

/-- `ip->nlink--`. -/
def decNlink (a : Nat) : Sys Unit :=
  modifyInode a (fun ip => { ip with nlink := (ip.nlink + (2 ^ 16 - 1)) % 2 ^ 16 })

/-- The label `bad` of `sys_link`. -/
def linkBad (ip : Nat) : Sys Int := do
  ilock cfg ip
  decNlink ip
  iupdate cfg ip
  iunlockput cfg ip
  endOp
  return -1

/-- Create the path `new` as a link to the same inode as `old`. -/
def sysLink (old new : Option (List UInt8)) : Sys Int := do
  match old, new with
  | some old, some new => do
      beginOp
      match ← namei cfg old with
      | none => do
          endOp
          return -1
      | some ip => do
          ilock cfg ip
          if (← inode ip).type = T_DIR then do
            iunlockput cfg ip
            endOp
            return -1
          else do
            incNlink ip
            iupdate cfg ip
            iunlock ip
            match ← nameiparent cfg new with
            | none => linkBad cfg ip
            | some (dp, name) => do
                ilock cfg dp
                if (← inode dp).dev ≠ (← inode ip).dev then do
                  iunlockput cfg dp
                  linkBad cfg ip
                else if (← dirlink cfg dp name (← inode ip).inum) < 0 then do
                  iunlockput cfg dp
                  linkBad cfg ip
                else do
                  iunlockput cfg dp
                  iput cfg ip
                  endOp
                  return 0
  | _, _ => return -1

/-- The loop of `isdirempty` from `off` on; `true` when it ends. -/
def isdiremptyFrom (rd : Ext2Dir.Reader) :
    Nat → Nat → Dinode → Bcache → Except Err (Bool × Dinode × Bcache)
  | 0, _, ip, s => .ok (true, ip, s)
  | fuel + 1, off, ip, s =>
    if off < ip.size then do
      let ((r, bytes), ip, s) ← rd ip off Xv6Dir.DIRENT s
      if r ≠ (Xv6Dir.DIRENT : Int) then .error (.panic "isdirempty: readi")
      else if Xv6Dir.deInum (fun k => bytes.getD k 0) ≠ 0 then .ok (false, ip, s)
      else isdiremptyFrom rd fuel (off + Xv6Dir.DIRENT) ip s
    else .ok (true, ip, s)

/-- Is the directory empty except for "." and ".."? -/
def isdirempty (a : Nat) : Sys Bool :=
  dispatch a (fun f inum ip s =>
    isdiremptyFrom (readiOf cfg f inum) ip.size (2 * Xv6Dir.DIRENT) ip s)

/-- The label `bad` of `sys_unlink`. -/
def unlinkBad (dp : Nat) : Sys Int := do
  iunlockput cfg dp
  endOp
  return -1

/-- `ip->type == T_DIR && !isdirempty(ip)`. -/
def notEmptyDir (ip : Nat) : Sys Bool := do
  if (← inode ip).type = T_DIR then do
    return !(← isdirempty cfg ip)
  else return false

/-- The parent of a directory has one link less. -/
def dropDotDot (dp ip : Nat) : Sys Unit := do
  if (← inode ip).type = T_DIR then do
    decNlink dp
    iupdate cfg dp
  else return ()

/-- `namecmp(name, ".") == 0 || namecmp(name, "..") == 0`. -/
def isDots (name : List UInt8) : Bool :=
  Xv6Dir.namecmpEq (cstr name) (cstr DOT) || Xv6Dir.namecmpEq (cstr name) (cstr DOTDOT)

/-- `ip->nlink < 1`, for a `short`. -/
def noLinks (nlink : Nat) : Bool := nlink = 0 || decide (2 ^ 15 ≤ nlink)

/-- `sys_unlink` after `nameiparent`: both inodes are locked when the record is cleared. -/
def unlinkEntry (dp : Nat) (name : List UInt8) : Sys Int := do
  ilock cfg dp
  if isDots name = true then unlinkBad cfg dp
  else do
    match ← dirlookup cfg dp name with
    | none => unlinkBad cfg dp
    | some (off, ip) => do
        ilock cfg ip
        if noLinks (← inode ip).nlink = true then stop (.panic "unlink: nlink < 1")
        else if (← notEmptyDir cfg ip) = true then do
          iunlockput cfg ip
          unlinkBad cfg dp
        else if (← writei cfg dp (fun _ => 0) off Xv6Dir.DIRENT) ≠ (Xv6Dir.DIRENT : Int) then
          stop (.panic "unlink: writei")
        else do
          dropDotDot cfg dp ip
          iunlockput cfg dp
          decNlink ip
          iupdate cfg ip
          iunlockput cfg ip
          endOp
          return 0

/-- Remove a name; `none` is an argument that was refused. -/
def sysUnlink (path : Option (List UInt8)) : Sys Int := do
  match path with
  | none => return -1
  | some path => do
      beginOp
      match ← nameiparent cfg path with
      | none => do
          endOp
          return -1
      | some (dp, name) => unlinkEntry cfg dp name

/-! ## New inodes -/

/-- The entries `.` and `..` of a new directory. -/
def createDots (type dp ip : Nat) : Sys Unit := do
  if type = T_DIR then do
    incNlink dp
    iupdate cfg dp
    if (← dirlink cfg ip DOT (← inode ip).inum) < 0 then stop (.panic "create dots")
    else if (← dirlink cfg ip DOTDOT (← inode dp).inum) < 0 then stop (.panic "create dots")
    else return ()
  else return ()

/-- `create` when the name is new. -/
def createNew (dp : Nat) (name : List UInt8) (type major minor : Nat) : Sys Nat := do
  let ip ← ialloc cfg dp type
  ilock cfg ip
  modifyInode ip (fun i => { i with major := major, minor := minor, nlink := 1 })
  iupdate cfg ip
  createDots cfg type dp ip
  if (← dirlink cfg dp name (← inode ip).inum) < 0 then stop (.panic "create: dirlink")
  else do
    iunlockput cfg dp
    return ip

/-- Returns a locked inode. -/
def create (path : List UInt8) (type major minor : Nat) : Sys (Option Nat) := do
  match ← nameiparent cfg path with
  | none => return none
  | some (dp, name) => do
      ilock cfg dp
      match ← dirlookup cfg dp name with
      | some (_, ip) => do
          iunlockput cfg dp
          ilock cfg ip
          if type = T_FILE ∧ (← inode ip).type = T_FILE then return some ip
          else do
            iunlockput cfg ip
            return none
      | none => do
          let ip ← createNew cfg dp name type major minor
          return some ip

/-- Flags of `open` (fcntl.h). -/
def O_RDONLY : Nat := 0x000
def O_WRONLY : Nat := 0x001
def O_RDWR : Nat := 0x002
def O_CREATE : Nat := 0x200

/-- The inode that `sys_open` opens, locked. -/
def openInode (path : List UInt8) (omode : Nat) : Sys (Option Nat) := do
  if omode &&& O_CREATE ≠ 0 then create cfg path T_FILE 0 0
  else do
    match ← namei cfg path with
    | none => return none
    | some ip => do
        ilock cfg ip
        if (← inode ip).type = T_DIR ∧ omode ≠ O_RDONLY then do
          iunlockput cfg ip
          return none
        else return some ip

/-- `(f = filealloc()) == 0 || (fd = fdalloc(f)) < 0`; the file is closed again. -/
def openFile : Sys (Option (Nat × Nat)) := do
  match ← filealloc with
  | none => return none
  | some f => do
      match ← fdalloc f with
      | none => do
          fileclose cfg f
          return none
      | some fd => return some (f, fd)

/-- The fields of a file that `sys_open` has allocated. -/
def fillFile (f ip omode : Nat) : Sys Unit := fun k =>
  .ok ((), setFile f { k.file f with
    type := .inode, ip := ip, off := 0, readable := decide (omode &&& O_WRONLY = 0),
    writable := decide (omode &&& O_WRONLY ≠ 0) || decide (omode &&& O_RDWR ≠ 0) } k)

/-- Open a file, and create it with `O_CREATE`. -/
def sysOpen (path : Option (List UInt8)) (omode : Option Nat) : Sys Int := do
  match path, omode with
  | some path, some omode => do
      beginOp
      match ← openInode cfg path omode with
      | none => do
          endOp
          return -1
      | some ip => do
          match ← openFile cfg with
          | none => do
              iunlockput cfg ip
              endOp
              return -1
          | some (f, fd) => do
              iunlock ip
              endOp
              fillFile f ip omode
              return (fd : Int)
  | _, _ => return -1

/-- `sys_mkdir` and `sys_mknod`. -/
def makeNode (path : Option (List UInt8)) (type major minor : Nat) : Sys Int := do
  beginOp
  match path with
  | none => do
      endOp
      return -1
  | some path => do
      match ← create cfg path type major minor with
      | none => do
          endOp
          return -1
      | some ip => do
          iunlockput cfg ip
          endOp
          return 0

/-- Create a directory. -/
def sysMkdir (path : Option (List UInt8)) : Sys Int := makeNode cfg path T_DIR 0 0

/-- The arguments `major` and `minor` are passed as `short`. -/
def sysMknod (path : Option (List UInt8)) (major minor : Option Nat) : Sys Int :=
  match major, minor with
  | some major, some minor => makeNode cfg path T_DEV (major % 2 ^ 16) (minor % 2 ^ 16)
  | _, _ => makeNode cfg none T_DEV 0 0

/-- `curproc->cwd = ip`. -/
def setCwd (a : Nat) : Sys Unit := fun k => .ok ((), setProc { k.proc k.cur with cwd := a } k)

/-- Change the current directory. -/
def sysChdir (path : Option (List UInt8)) : Sys Int := do
  beginOp
  match path with
  | none => do
      endOp
      return -1
  | some path => do
      match ← namei cfg path with
      | none => do
          endOp
          return -1
      | some ip => do
          ilock cfg ip
          if (← inode ip).type ≠ T_DIR then do
            iunlockput cfg ip
            endOp
            return -1
          else do
            iunlock ip
            iput cfg (← cwd)
            endOp
            setCwd ip
            return 0

/-! ## exec -/

/-- Format of an ELF executable file (elf.h); sizes of the two headers. -/
def ELF_MAGIC : Nat := 0x464C457F
def ELF_PROG_LOAD : Nat := 1
def ELFHDR : Nat := 52
def PROGHDR : Nat := 32

/-- What the functions on user memory return: `setupkvm` and `copyout` whether they
    succeed, `allocuvm` the new size or 0, `walkpgdir` whether the page exists. -/
structure Vm where
  setupkvm  : Bool
  allocuvm  : Nat → Nat → Nat
  walkpgdir : Nat → Bool
  copyout   : Nat → Nat → Bool

/-- The loop of `loaduvm` from page `i` on; `false` is the return value `-1`. -/
def loaduvmFrom (vm : Vm) (ip addr offset sz : Nat) : Nat → Nat → Sys Bool
  | 0, _ => return true
  | fuel + 1, i =>
    if i < sz then do
      if vm.walkpgdir ((addr + i) % 2 ^ 32) = false then
        stop (.panic "loaduvm: address should exist")
      else if (← readi cfg ip ((offset + i) % 2 ^ 32) (min (sz - i) PGSIZE)).1
          ≠ ((min (sz - i) PGSIZE : Nat) : Int) then
        return false
      else loaduvmFrom vm ip addr offset sz fuel (i + PGSIZE)
    else return true

/-- Load the segment of one program header, with `sz` bytes so far; `none` is `goto bad`. -/
def loadSegment (vm : Vm) (ip : Nat) (ph : Block) (sz : Nat) : Sys (Option Nat) := do
  let vaddr := getLE ph 4 8
  let filesz := getLE ph 4 16
  let memsz := getLE ph 4 20
  if getLE ph 4 0 ≠ ELF_PROG_LOAD then return some sz
  else if memsz < filesz then return none
  else if (vaddr + memsz) % 2 ^ 32 < vaddr then return none
  else
    let sz := vm.allocuvm sz ((vaddr + memsz) % 2 ^ 32)
    if sz = 0 then return none
    else if vaddr % PGSIZE ≠ 0 then return none
    else if (← loaduvmFrom cfg vm ip vaddr (getLE ph 4 4) filesz filesz 0) = false then
      return none
    else return some sz

/-- Load program into memory: the loop over the program headers. -/
def loadFrom (vm : Vm) (ip : Nat) : Nat → Nat → Nat → Sys (Option Nat)
  | 0, _, sz => return some sz
  | fuel + 1, off, sz => do
      let (r, bytes) ← readi cfg ip off PROGHDR
      if r ≠ (PROGHDR : Int) then return none
      else do
        match ← loadSegment cfg vm ip (fun k => bytes.getD k 0) sz with
        | none => return none
        | some sz => loadFrom vm ip fuel ((off + PROGHDR) % 2 ^ 32) sz

/-- Check the header and load the program; `none` is `goto bad`. -/
def loadProgram (vm : Vm) (ip : Nat) : Sys (Option Nat) := do
  let (r, bytes) ← readi cfg ip 0 ELFHDR
  let elf : Block := fun k => bytes.getD k 0
  if r ≠ (ELFHDR : Int) then return none
  else if getLE elf 4 0 ≠ ELF_MAGIC then return none
  else if vm.setupkvm = false then return none
  else loadFrom cfg vm ip (getLE elf 2 44) (getLE elf 4 28) 0

/-- Push argument strings: the stack pointer and the number of arguments. -/
def pushArgs (vm : Vm) : List (List UInt8) → Nat → Nat → Option (Nat × Nat)
  | [], argc, sp => some (sp, argc)
  | arg :: argv, argc, sp =>
    if MAXARG ≤ argc then none
    else
      let sp := (sp + 2 ^ 32 - (strlen arg + 1)) % 2 ^ 32 / 4 * 4
      if vm.copyout sp (strlen arg + 1) = false then none
      else pushArgs vm argv (argc + 1) sp

/-- The new user stack; `none` is `goto bad`. -/
def newStack (vm : Vm) (argv : List (List UInt8)) (sz : Nat) : Option Nat := do
  let sz := (sz + PGSIZE - 1) % 2 ^ 32 / PGSIZE * PGSIZE
  let sz := vm.allocuvm sz ((sz + 2 * PGSIZE) % 2 ^ 32)
  if sz = 0 then none
  else
    let (sp, argc) ← pushArgs vm argv 0 sz
    let sp := (sp + 2 ^ 32 - (3 + argc + 1) * 4) % 2 ^ 32
    if vm.copyout sp ((3 + argc + 1) * 4) = false then none else some sp

/-- The file is released before the stack is built. -/
def exec (vm : Vm) (path : List UInt8) (argv : List (List UInt8)) : Sys Int := do
  beginOp
  match ← namei cfg path with
  | none => do
      endOp
      return -1
  | some ip => do
      ilock cfg ip
      match ← loadProgram cfg vm ip with
      | none => do
          iunlockput cfg ip
          endOp
          return -1
      | some sz => do
          iunlockput cfg ip
          endOp
          match newStack vm argv sz with
          | none => return -1
          | some _ => return 0

/-! ## The first process (proc.c) -/

/-- All tables are empty and no lock is held. -/
def bootState (root ext2 : Bcache) : State where
  cache  := bootCache root ext2
  locked := fun _ => false
  file   := fun _ => ⟨0, .none, 0, 0, false, false⟩
  proc   := fun _ => ⟨fun _ => none, 0⟩
  cur    := 0
  begun  := 0
  ended  := 0

/-- `p->cwd = namei("/")` of `userinit`. -/
def userinit : Sys Unit := do
  match ← namei cfg [SLASH] with
  | none => stop .wild
  | some a => setCwd a

/-- The state in which the first process starts: its current directory is the root. -/
def firstState (root ext2 : Bcache) : State :=
  setProc ⟨fun _ => none, 0⟩ { bootState root ext2 with
    cache := (bootCache root ext2).recycle 0 ROOTDEV ROOTINO .xv6fs (.xv6fs 0) }

example (root ext2 : Bcache) :
    userinit cfg (bootState root ext2) = .ok ((), firstState root ext2) := rfl

end Kernel
