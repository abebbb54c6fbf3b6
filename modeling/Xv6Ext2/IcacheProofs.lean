import Xv6Ext2.Ext2InodeProofs
import Xv6Ext2.Xv6InodeProofs
import Xv6Ext2.SlotTableProofs
import Xv6Ext2.RunsProofs

/-! # The inode cache (fs.c, ext2fs.c)

    The entries of `icache` and the two tables `xv6fs_addrs` and `ext2fs_addrs`, in whose slots the
    entries keep their block addresses: `iget`, `idup`, and `ilock` and `iput` of both file systems.
    Each call is one step; the sleep-lock of the entry is taken and given back around it.

    `iget` looks for a free slot in both tables, but the loop for `ext2fs_addrs` tests
    the flag of slot `i`, the free slot of the other table, instead of slot `j`. -/

namespace Icache

open ByteBlock BufCache Param Outcome FileIo Xv6Alloc Xv6Inode Ext2Alloc Ext2Inode SlotTable

/-- `ip->iops`. -/
inductive Iops where
  | xv6fs
  | ext2fs
  deriving DecidableEq, Repr

/-- A pointer into one of the two tables. -/
inductive AddrPtr where
  | xv6fs (i : Nat)
  | ext2fs (i : Nat)
  deriving DecidableEq, Repr

/-- `struct inode`; `none` is the null pointer. -/
structure Inode where
  dev   : Nat
  inum  : Nat
  ref   : Nat
  valid : Bool
  iops  : Option Iops
  type  : Nat
  major : Nat
  minor : Nat
  nlink : Nat
  size  : Nat
  addrs : Option AddrPtr
  deriving DecidableEq

/-- `struct xv6fs_addrs` and `struct ext2fs_addrs`. -/
structure AddrSlot where
  busy  : Nat
  addrs : Nat → Nat

/-- The cache and the two devices. -/
structure Cache where
  inode       : Nat → Inode
  xv6fsAddrs  : Nat → AddrSlot
  ext2fsAddrs : Nat → AddrSlot
  root        : Bcache
  ext2        : Bcache

/-- `*ip->addrs`. -/
def Cache.slot (st : Cache) : AddrPtr → AddrSlot
  | .xv6fs i => st.xv6fsAddrs i
  | .ext2fs i => st.ext2fsAddrs i

/-- An assignment to `*ip->addrs`. -/
def Cache.setSlot (st : Cache) (p : AddrPtr) (v : AddrSlot) : Cache :=
  match p with
  | .xv6fs i => { st with xv6fsAddrs := Function.update st.xv6fsAddrs i v }
  | .ext2fs i => { st with ext2fsAddrs := Function.update st.ext2fsAddrs i v }

/-- An assignment to `*ip`. -/
def Cache.setInode (st : Cache) (a : Nat) (ip : Inode) : Cache :=
  { st with inode := Function.update st.inode a ip }

/-- The device of a file system, through its buffers. -/
def Cache.device (st : Cache) : Iops → Bcache
  | .xv6fs => st.root
  | .ext2fs => st.ext2

def Cache.setDevice (st : Cache) (f : Iops) (bc : Bcache) : Cache :=
  match f with
  | .xv6fs => { st with root := bc }
  | .ext2fs => { st with ext2 := bc }

/-- The fields of an entry that are copies of the disk's. -/
def Inode.copy (ip : Inode) (addrs : Nat → Nat) : Dinode :=
  ⟨ip.type, ip.major, ip.minor, ip.nlink, ip.size, addrs⟩

/-- Store these fields. -/
def Inode.load (ip : Inode) (d : Dinode) : Inode :=
  { ip with type := d.type, major := d.major, minor := d.minor, nlink := d.nlink,
            size := d.size }

/-- Is the inode already cached? -/
def Inode.is (ip : Inode) (dev inum : Nat) : Bool :=
  decide (0 < ip.ref ∧ ip.dev = dev ∧ ip.inum = inum)

/-- Recycle entry `a`, with slot `p` for its addresses. -/
def Cache.recycle (st : Cache) (a dev inum : Nat) (f : Iops) (p : AddrPtr) : Cache :=
  (st.setInode a { st.inode a with
    dev := dev, inum := inum, ref := 1, valid := false, iops := some f, addrs := some p }).setSlot
      p { st.slot p with busy := 1 }

/-- `i`, the free slot of `xv6fs_addrs` that `iget` finds; `NINODE` when there is none. -/
def Cache.freeXv6 (st : Cache) : Nat :=
  (firstFrom (fun i => decide ((st.xv6fsAddrs i).busy = 0)) NINODE 0).getD NINODE

/-- `j`: the loop over `ext2fs_addrs` tests slot `i` at every turn. -/
def Cache.freeExt2 (st : Cache) : Nat :=
  (firstFrom (fun _ => decide ((st.ext2fsAddrs st.freeXv6).busy = 0)) NINODE 0).getD NINODE

/-- Find the inode with number `inum` on device `dev` and return its entry. -/
def iget (dev inum : Nat) (st : Cache) : Except Err (Nat × Cache) :=
  match firstFrom (fun a => (st.inode a).is dev inum) NINODE 0 with
  | some a => .ok (a, st.setInode a { st.inode a with ref := (st.inode a).ref + 1 })
  | none =>
    match firstFrom (fun a => decide ((st.inode a).ref = 0)) NINODE 0 with
    | none => .error (.panic "iget: no inodes")
    | some a =>
      if dev = ROOTDEV then
        .ok (a, st.recycle a dev inum .xv6fs (.xv6fs st.freeXv6))
      else .ok (a, st.recycle a dev inum .ext2fs (.ext2fs st.freeExt2))

/-- Increment the reference count. -/
def idup (a : Nat) (st : Cache) : Cache :=
  st.setInode a { st.inode a with ref := (st.inode a).ref + 1 }

/-! ## the panics of the two file systems -/

def noRef : Iops → String
  | .xv6fs => "ilock"
  | .ext2fs => "ext2fs_ilock"

def noType : Iops → String
  | .xv6fs => "ilock: no type"
  | .ext2fs => "ext2fs_ilock: no type"

def notHeld : Iops → String
  | .xv6fs => "iunlock"
  | .ext2fs => "ext2fs_iunlock"

/-- `ilock`: reads the inode from disk if necessary. -/
def ilockWith (f : Iops) (read : Nat → Bcache → Except Err (Dinode × Bcache)) (a : Nat)
    (st : Cache) : Except Err Cache :=
  let ip := st.inode a
  if ip.ref < 1 then .error (.panic (noRef f))
  else if ip.valid then .ok st
  else
    match ip.addrs with
    | none => .error .wild
    | some p => do
        let (d, bc) ← read ip.inum (st.device f)
        if d.type = 0 then .error (.panic (noType f))
        else .ok (((st.setDevice f bc).setSlot p { st.slot p with addrs := d.addrs }).setInode a
          { ip.load d with iops := some f, valid := true })

/-- The inode that `xv6fs_ilock` reads. -/
def xv6fsIread (sb : Superblock) (inum : Nat) (s : Bcache) : Except Err (Dinode × Bcache) := do
  let (d, s) ← bread [] (IBLOCK inum sb) s
  .ok (getDinode d (inum % IPB * 64), s)

/-- `ilock` on the root file system. -/
def xv6fsIlock (sb : Superblock) : Nat → Cache → Except Err Cache :=
  ilockWith .xv6fs (xv6fsIread sb)

/-- `ilock` on an ext2 file system. -/
def ext2fsIlock (esb : Ext2Super) : Nat → Cache → Except Err Cache :=
  ilockWith .ext2fs (ext2fsIread esb)

/-- `ip->ref--`, where `ad` is the slot that the entry pointed to at the start. -/
def dropRef (ad : Option AddrPtr) (a : Nat) (st : Cache) : Except Err Cache :=
  let ip := st.inode a
  if ip.ref = 1 then
    match ad with
    | none => .error .wild
    | some p => .ok ((st.setSlot p { st.slot p with busy := 0 }).setInode a
        { ip with ref := 0, addrs := none })
  else .ok (st.setInode a { ip with ref := ip.ref - 1 })

/-- `iput`: drop a reference, and free the inode with `free` when it was the last one
    and the inode has no links. -/
def iputWith (f : Iops) (free : Nat → Dinode → Bcache → Except Err (Dinode × Bcache))
    (a : Nat) (st : Cache) : Except Err Cache :=
  let ip := st.inode a
  if ip.valid ∧ ip.nlink = 0 ∧ ip.ref = 1 then
    match ip.addrs with
    | none => .error .wild
    | some p => do
        let (d, bc) ← free ip.inum (ip.copy (st.slot p).addrs) (st.device f)
        dropRef (some p) a
          (((st.setDevice f bc).setSlot p { st.slot p with addrs := d.addrs }).setInode a
            { ip.load d with valid := false, iops := none, addrs := none })
  else dropRef ip.addrs a st

/-- Truncate and free. -/
def xv6fsFree (sb : Superblock) (inum : Nat) (ip : Dinode) (s : Bcache) :
    Except Err (Dinode × Bcache) := do
  let (ip, s) ← xv6fsItrunc sb inum ip s
  let ip := { ip with type := 0 }
  let s ← xv6fsIupdate sb inum ip s
  .ok (ip, s)

/-- Free, truncate, and mark free. -/
def ext2fsFree (esb : Ext2Super) (inum : Nat) (ip : Dinode) (s : Bcache) :
    Except Err (Dinode × Bcache) := do
  let s ← ext2fsIfree esb inum s
  let (ip, s) ← ext2fsItrunc esb inum ip s
  let ip := { ip with type := 0 }
  let s ← ext2fsIupdate esb inum ip s
  .ok (ip, s)

/-- `iput` on the root file system. -/
def xv6fsIput (sb : Superblock) : Nat → Cache → Except Err Cache :=
  iputWith .xv6fs (xv6fsFree sb)

/-- `iput` on an ext2 file system. -/
def ext2fsIput (esb : Ext2Super) : Nat → Cache → Except Err Cache :=
  iputWith .ext2fs (ext2fsFree esb)

/-- `ip->iops->ilock(ip)`. -/
def ilock (sb : Superblock) (esb : Ext2Super) (a : Nat) (st : Cache) : Except Err Cache :=
  match (st.inode a).iops with
  | none => .error .wild
  | some .xv6fs => xv6fsIlock sb a st
  | some .ext2fs => ext2fsIlock esb a st

/-- `ip->iops->iput(ip)`. -/
def iput (sb : Superblock) (esb : Ext2Super) (a : Nat) (st : Cache) : Except Err Cache :=
  match (st.inode a).iops with
  | none => .error .wild
  | some .xv6fs => xv6fsIput sb a st
  | some .ext2fs => ext2fsIput esb a st

/-! ## What each call does -/

section Fields

variable (st : Cache) (p : AddrPtr) (v : AddrSlot) (a : Nat) (ip : Inode) (f : Iops)
  (bc : Bcache)

@[simp] lemma setInode_inode : (st.setInode a ip).inode = Function.update st.inode a ip := rfl

lemma setInode_self : (st.setInode a ip).inode a = ip := Function.update_self ..
@[simp] lemma setInode_slot : (st.setInode a ip).slot p = st.slot p := by
  cases p <;> rfl

@[simp] lemma setSlot_inode : (st.setSlot p v).inode = st.inode := by
  cases p <;> rfl
@[simp] lemma setSlot_slot_self : (st.setSlot p v).slot p = v := by
  cases p <;> exact Function.update_self _ _ _

lemma setSlot_slot_of_ne {q : AddrPtr} (h : q ≠ p) : (st.setSlot p v).slot q = st.slot q := by
  cases p with
  | xv6fs i =>
    cases q with
    | xv6fs j => exact Function.update_of_ne (fun e : j = i => h (by rw [e])) _ _
    | ext2fs j => rfl
  | ext2fs i =>
    cases q with
    | xv6fs j => rfl
    | ext2fs j => exact Function.update_of_ne (fun e : j = i => h (by rw [e])) _ _

@[simp] lemma setDevice_inode : (st.setDevice f bc).inode = st.inode := by
  cases f <;> rfl
@[simp] lemma setDevice_slot : (st.setDevice f bc).slot p = st.slot p := by
  cases f <;> cases p <;> rfl

@[simp] lemma recycle_inode (dev inum : Nat) :
    (st.recycle a dev inum f p).inode = Function.update st.inode a { st.inode a with
      dev := dev, inum := inum, ref := 1, valid := false, iops := some f,
      addrs := some p } := by
  rw [Cache.recycle, setSlot_inode, setInode_inode]

lemma recycle_self (dev inum : Nat) : (st.recycle a dev inum f p).inode a = { st.inode a with
    dev := dev, inum := inum, ref := 1, valid := false, iops := some f, addrs := some p } := by
  rw [recycle_inode, Function.update_self]

end Fields

variable {a : Nat} {st st' : Cache}

/-- A call of `iget` that returns: the inode is cached, or an unused entry is recycled. -/
lemma iget_ok {dev inum : Nat} (h : iget dev inum st = .ok (a, st')) : a < NINODE ∧
    ((0 < (st.inode a).ref ∧ (st.inode a).dev = dev ∧ (st.inode a).inum = inum ∧
        st' = st.setInode a { st.inode a with ref := (st.inode a).ref + 1 }) ∨
      ((∀ b < NINODE, (st.inode b).is dev inum = false) ∧ (st.inode a).ref = 0 ∧
        ((dev = ROOTDEV ∧ st' = st.recycle a dev inum .xv6fs (.xv6fs st.freeXv6)) ∨
         (dev ≠ ROOTDEV ∧ st' = st.recycle a dev inum .ext2fs (.ext2fs st.freeExt2))))) := by
  rw [iget] at h
  cases hc : firstFrom (fun a => (st.inode a).is dev inum) NINODE 0 with
  | some b =>
    rw [hc] at h
    obtain ⟨rfl, rfl⟩ := ok_pair_inj h
    obtain ⟨-, h2, h3⟩ := firstFrom_some hc
    obtain ⟨h4, h5, h6⟩ := of_decide_eq_true h3
    exact ⟨by omega, .inl ⟨h4, h5, h6, rfl⟩⟩
  | none =>
    rw [hc] at h
    have hno := firstFrom_none hc
    cases he : firstFrom (fun a => decide ((st.inode a).ref = 0)) NINODE 0 with
    | none => rw [he] at h; exact nomatch h
    | some b =>
      rw [he] at h
      obtain ⟨-, h2, h3⟩ := firstFrom_some he
      have hempty := of_decide_eq_true h3
      by_cases hd : dev = ROOTDEV
      · simp only [if_pos hd] at h
        obtain ⟨rfl, rfl⟩ := ok_pair_inj h
        exact ⟨by omega, .inr ⟨fun c hc => hno c (Nat.zero_le c) (by omega), hempty,
          .inl ⟨hd, rfl⟩⟩⟩
      simp only [if_neg hd] at h
      obtain ⟨rfl, rfl⟩ := ok_pair_inj h
      exact ⟨by omega, .inr ⟨fun c hc => hno c (Nat.zero_le c) (by omega), hempty, .inr ⟨hd, rfl⟩⟩⟩

/-- A call of `ilock` that returns: nothing happens, or the entry and its slot are
    filled from the disk. -/
lemma ilockWith_ok {f : Iops} {read : Nat → Bcache → Except Err (Dinode × Bcache)}
    (h : ilockWith f read a st = .ok st') :
    ((st.inode a).valid = true ∧ st' = st) ∨
    ∃ p d bc, (st.inode a).addrs = some p ∧ (st.inode a).valid = false ∧
      read (st.inode a).inum (st.device f) = .ok (d, bc) ∧ d.type ≠ 0 ∧
      st' = ((st.setDevice f bc).setSlot p { st.slot p with addrs := d.addrs }).setInode a
        { (st.inode a).load d with iops := some f, valid := true } := by
  rw [ilockWith] at h
  by_cases hr : (st.inode a).ref < 1
  · simp only [if_pos hr] at h
    exact nomatch h
  simp only [if_neg hr] at h
  split at h
  · next hv =>
    exact .inl ⟨hv, (Except.ok.inj h).symm⟩
  · next hv =>
    cases hp : (st.inode a).addrs with
    | none => rw [hp] at h; exact nomatch h
    | some p =>
      rw [hp] at h
      obtain ⟨⟨d, bc⟩, h1, h2⟩ := bind_eq_ok.mp h
      by_cases ht : d.type = 0
      · simp only [if_pos ht] at h2
        exact nomatch h2
      · simp only [if_neg ht] at h2
        exact .inr ⟨p, d, bc, rfl, Bool.not_eq_true _ ▸ hv, h1, ht, (Except.ok.inj h2).symm⟩

lemma dropRef_ok {ad : Option AddrPtr} (h : dropRef ad a st = .ok st') : ((st.inode a).ref ≠ 1 ∧
      st' = st.setInode a { st.inode a with ref := (st.inode a).ref - 1 }) ∨
    ((st.inode a).ref = 1 ∧ ∃ p, ad = some p ∧
      st' = (st.setSlot p { st.slot p with busy := 0 }).setInode a
        { st.inode a with ref := 0, addrs := none }) := by
  rw [dropRef.eq_def] at h
  by_cases hr : (st.inode a).ref = 1
  · simp only [if_pos hr] at h
    cases ad with
    | none => exact nomatch h
    | some p => exact .inr ⟨hr, p, rfl, (Except.ok.inj h).symm⟩
  · simp only [if_neg hr] at h
    exact .inl ⟨hr, (Except.ok.inj h).symm⟩

/-- A call of `iput` that returns: one of several references is dropped; or the last one, and the
    slot is given back; or the last one of an unlinked inode, which is freed before. -/
lemma iputWith_ok {f : Iops} {free : Nat → Dinode → Bcache → Except Err (Dinode × Bcache)}
    (h : iputWith f free a st = .ok st') : ((st.inode a).ref ≠ 1 ∧
      st' = st.setInode a { st.inode a with ref := (st.inode a).ref - 1 }) ∨
    ((st.inode a).ref = 1 ∧ ∃ p, (st.inode a).addrs = some p ∧
      ((¬((st.inode a).valid = true ∧ (st.inode a).nlink = 0) ∧
          st' = (st.setSlot p { st.slot p with busy := 0 }).setInode a
            { st.inode a with ref := 0, addrs := none }) ∨
        ∃ d bc, (st.inode a).valid = true ∧ (st.inode a).nlink = 0 ∧
          free (st.inode a).inum ((st.inode a).copy (st.slot p).addrs) (st.device f) = .ok (d, bc) ∧
          st' = ((st.setDevice f bc).setSlot p { busy := 0, addrs := d.addrs }).setInode a
            { (st.inode a).load d with
              ref := 0, valid := false, iops := none, addrs := none })) := by
  rw [iputWith] at h
  by_cases hc : (st.inode a).valid = true ∧ (st.inode a).nlink = 0 ∧ (st.inode a).ref = 1
  · simp only [if_pos hc] at h
    cases hp : (st.inode a).addrs with
    | none => rw [hp] at h; exact nomatch h
    | some p =>
      rw [hp] at h
      obtain ⟨⟨d, bc⟩, h1, h2⟩ := bind_eq_ok.mp h
      refine .inr ⟨hc.2.2, p, rfl, .inr ⟨d, bc, hc.1, hc.2.1, h1, ?_⟩⟩
      rcases dropRef_ok h2 with ⟨hr, -⟩ | ⟨-, q, hq, hst⟩
      · rw [setInode_inode, Function.update_self] at hr
        exact absurd hc.2.2 hr
      obtain rfl := Option.some.inj hq
      rw [hst]
      cases p <;> simp only [Cache.setInode, Cache.setSlot, Cache.slot,
        Function.update_self, Function.update_idem]
  · simp only [if_neg hc] at h
    rcases dropRef_ok h with ⟨hr, hst⟩ | ⟨hr, p, hp, hst⟩
    · exact .inl ⟨hr, hst⟩
    · exact .inr ⟨hr, p, hp, .inl ⟨fun hvn => hc ⟨hvn.1, hvn.2, hr⟩, hst⟩⟩

end Icache
