import Xv6Ext2.IcacheSlotsProofs
import Xv6Ext2.Xv6DirProofs
import Xv6Ext2.Xv6TruncProofs

/-! # Calls on the root device

    The functions of fs.c that work on inode cache entries of the root device.  A caller
    has a reference to the entry, and has locked it before it reads, writes or links;
    each call is one step.

    `Sync` ties the cache to the image: no two entries stand for one inode, a valid
    entry is the inode on disk, and the image is consistent.  Every call keeps it. -/

namespace Xv6Calls

open ByteBlock BufCache Param Outcome Ownership FileIo SlotTable Xv6Alloc Xv6Inode Xv6Image Xv6Dir
  Icache Ext2Alloc

open Function (update update_of_ne update_self)

/-- A call on the inode of entry `a`, which works on the copy in memory. -/
def onEntry {α : Type} (f : Nat → Dinode → Bcache → Except Err (α × Dinode × Bcache)) (a : Nat)
    (st : Cache) : Except Err (α × Cache) :=
  match (st.inode a).addrs with
  | none => .error .wild
  | some p => do
      let (r, d, bc) ← f (st.inode a).inum ((st.inode a).copy (st.slot p).addrs) st.root
      .ok (r, ((st.setDevice .xv6fs bc).setSlot p { st.slot p with addrs := d.addrs }).setInode a
        ((st.inode a).load d))

/-- The loop of `xv6fs_ialloc`: a free inode is cleared and marked with its type. -/
def iallocFrom (sb : Superblock) (type : Nat) : Nat → Nat → Bcache → Except Err (Nat × Bcache)
  | 0, _, _ => .error (.panic "ialloc: no inodes")
  | fuel + 1, inum, s =>
    if inum < sb.ninodes then do
      let (d, s) ← bread [] (IBLOCK inum sb) s
      if (getDinode d (inum % IPB * 64)).type = 0 then
        let d := blit d (inum % IPB * 64) 64 (fun _ => 0)
        let d := putLE d 2 (inum % IPB * 64) type
        .ok (inum, logWrite (IBLOCK inum sb) d s)
      else iallocFrom sb type fuel (inum + 1) s
    else .error (.panic "ialloc: no inodes")

/-- Allocate an inode; returns an entry with a reference to it. -/
def xv6fsIalloc (sb : Superblock) (type : Nat) (st : Cache) : Except Err (Nat × Cache) := do
  let (inum, bc) ← iallocFrom sb type sb.ninodes 1 st.root
  iget ROOTDEV inum (st.setDevice .xv6fs bc)

/-- Look for a directory entry; returns its offset and an entry of its inode. -/
def xv6fsDirlookup (sb : Superblock) (devsw : Nat → Devsw) (name : List UInt8) (a : Nat)
    (st : Cache) : Except Err (Option (Nat × Nat) × Cache) := do
  let ((off, de), st) ← onEntry (fun _ => dirSearch sb devsw name) a st
  match de with
  | none => .ok (none, st)
  | some de => do
      let (b, st) ← iget (st.inode a).dev (deInum de) st
      .ok (some (off, b), st)

/-- Write a new directory entry.  The inode of a name that is present is put back; `iput`
    takes its sleep-lock, and the one of the directory is held already. -/
def xv6fsDirlink (sb : Superblock) (esb : Ext2Super) (devsw : Nat → Devsw) (name : List UInt8)
    (inum a : Nat) (st : Cache) : Except Err (Int × Cache) := do
  let (found, st) ← xv6fsDirlookup sb devsw name a st
  match found with
  | some (_, b) =>
    if b = a then .error .deadlock
    else do
      let st ← iput sb esb b st
      .ok (-1, st)
  | none => onEntry (fun dnum => addDirent sb devsw name inum dnum) a st

def readEntry (sb : Superblock) (devsw : Nat → Devsw) (a off n : Nat) :
    Cache → Except Err ((Int × List UInt8) × Cache) :=
  onEntry (fun _ ip s => xv6fsReadi sb devsw ip off n s) a

def writeEntry (sb : Superblock) (devsw : Nat → Devsw) (a : Nat) (src : Nat → UInt8)
    (off n : Nat) : Cache → Except Err (Int × Cache) :=
  onEntry (fun inum ip s => xv6fsWritei sb inum devsw ip src off n s) a

/-- `xv6fs_iupdate` of a copy with these fields, which are the caller's to change. -/
def updateFields (sb : Superblock) (major minor nlink inum : Nat) (ip : Dinode) (s : Bcache) :
    Except Err (Unit × Dinode × Bcache) := do
  let ip := { ip with major := major, minor := minor, nlink := nlink }
  let s ← xv6fsIupdate sb inum ip s
  .ok ((), ip, s)

/-- The caller changes fields of entry `a` and calls `xv6fs_iupdate`. -/
def setFields (sb : Superblock) (a major minor nlink : Nat) :
    Cache → Except Err (Unit × Cache) :=
  onEntry (updateFields sb major minor nlink) a

inductive Call where
  | iget (inum : Nat)
  | idup (a : Nat)
  | ilock (a : Nat)
  | ialloc (type : Nat)
  | readi (a off n : Nat)
  | writei (a : Nat) (src : Nat → UInt8) (off n : Nat)
  | dirlink (a : Nat) (name : List UInt8) (inum : Nat)
  | setFields (a major minor nlink : Nat)
  | iput (a : Nat)

/-- The state after a call; what the call returns is not kept. -/
def callStep (sb : Superblock) (esb : Ext2Super) (devsw : Nat → Devsw) (st : Cache) :
    Call → Except Err Cache
  | .iget inum => Prod.snd <$> iget ROOTDEV inum st
  | .idup a => .ok (idup a st)
  | .ilock a => ilock sb esb a st
  | .ialloc type => Prod.snd <$> xv6fsIalloc sb type st
  | .readi a off n => Prod.snd <$> readEntry sb devsw a off n st
  | .writei a src off n => Prod.snd <$> writeEntry sb devsw a src off n st
  | .dirlink a name inum => Prod.snd <$> xv6fsDirlink sb esb devsw name inum a st
  | .setFields a major minor nlink => Prod.snd <$> setFields sb a major minor nlink st
  | .iput a => iput sb esb a st

/-- An entry that its caller has a reference to. -/
def Referenced (st : Cache) (a : Nat) : Prop := a < NINODE ∧ 0 < (st.inode a).ref

def Locked (st : Cache) (a : Nat) : Prop := Referenced st a ∧ (st.inode a).valid = true

/-- The calls that occur: on inodes of the disk, by callers that have a reference or the
    lock, with the types of `stat.h` and values of the C types. -/
def Called (sb : Superblock) (st : Cache) : Call → Prop
  | .iget inum => 1 ≤ inum ∧ inum < sb.ninodes
  | .idup a => Referenced st a
  | .ilock a => Referenced st a
  | .ialloc type => type = T_DIR ∨ type = T_FILE ∨ type = T_DEV
  | .readi a _ n => Locked st a ∧ n < 2 ^ 32
  | .writei a _ _ n => Locked st a ∧ n < 2 ^ 32
  | .dirlink a _ _ => Locked st a
  | .setFields a major minor nlink =>
    Locked st a ∧ major < 2 ^ 16 ∧ minor < 2 ^ 16 ∧ nlink < 2 ^ 16
  | .iput a => Referenced st a

/-- The ways in which a call can fail: a panic for lack of space on the disk or in the
    cache, an inode that is not allocated, a directory that is none or whose last record is
    cut off, and `xv6fs_dirlink` of a name that stands for the directory itself. -/
def Expected (e : Err) : Prop :=
  e = .deadlock ∨ ∃ msg ∈ ["balloc: out of blocks", "ialloc: no inodes", "iget: no inodes",
    "ilock: no type", "dirlookup not DIR", "dirlookup read", "dirlink read", "dirlink"],
    e = .panic msg

/-! ## The cache and the image -/

/-- The cache of a consistent image. -/
structure Sync (sb : Superblock) (st : Cache) : Prop where
  cache  : CacheInv st
  root   : ∀ a < NINODE, 0 < (st.inode a).ref →
    (st.inode a).dev = ROOTDEV ∧ 1 ≤ (st.inode a).inum ∧ (st.inode a).inum < sb.ninodes
  unique : ∀ a < NINODE, ∀ b < NINODE, 0 < (st.inode a).ref → 0 < (st.inode b).ref →
    (st.inode a).inum = (st.inode b).inum → a = b
  synced : ∀ a < NINODE, 0 < (st.inode a).ref → (st.inode a).valid = true →
    ∀ p, (st.inode a).addrs = some p →
      (st.inode a).copy (st.slot p).addrs = dinodeAt sb st.root.view (st.inode a).inum ∧
      (st.inode a).type ≠ 0
  image  : Consistent sb st.root.view

section Sync

variable {sb : Superblock} {st : Cache} {a : Nat}

lemma Sync.entry (h : Sync sb st) (ha : a < NINODE) (hr : 0 < (st.inode a).ref) :
    (st.inode a).iops = some .xv6fs ∧ ∃ i, (st.inode a).addrs = some (.xv6fs i) := by
  rcases h.cache.kind a ha hr with ⟨-, hi, hp⟩ | ⟨hd, -, -⟩
  · exact ⟨hi, hp⟩
  · rw [(h.root a ha hr).1] at hd
    exact nomatch hd

variable {b : Nat} {p : AddrPtr}

lemma Sync.slot_ne (h : Sync sb st) (ha : a < NINODE) (hr : 0 < (st.inode a).ref)
    (hb : b < NINODE) (hbr : 0 < (st.inode b).ref) (hba : b ≠ a) {q : AddrPtr}
    (hp : (st.inode a).addrs = some p) (hq : (st.inode b).addrs = some q) : q ≠ p := by
  rintro rfl
  obtain ⟨-, i, hi⟩ := h.entry ha hr
  obtain rfl := Option.some.inj (hp.symm.trans hi)
  refine hba (h.cache.xv6.inj b hb a ha i ?_ ?_)
  · show (st.inode b).xv6Slot = some i
    rw [Inode.xv6Slot, if_pos hbr, hq]
  · show (st.inode a).xv6Slot = some i
    rw [Inode.xv6Slot, if_pos hr, hp]

lemma Sync.inUse (h : Sync sb st) (ha : a < NINODE) (hr : 0 < (st.inode a).ref)
    (hv : (st.inode a).valid = true) : InUse sb (dinodeAt sb st.root.view) (st.inode a).inum := by
  obtain ⟨-, i, hi⟩ := h.entry ha hr
  obtain ⟨hcopy, htype⟩ := h.synced a ha hr hv _ hi
  obtain ⟨-, h1, h2⟩ := h.root a ha hr
  exact ⟨h1, h2, by rw [← hcopy]; exact htype⟩

lemma Sync.type_eq (h : Sync sb st) (hlock : Locked st a) :
    (st.inode a).type = (dinodeAt sb st.root.view (st.inode a).inum).type := by
  obtain ⟨⟨ha, hr⟩, hv⟩ := hlock
  obtain ⟨-, i, hi⟩ := h.entry ha hr
  rw [← (h.synced a ha hr hv _ hi).1]
  rfl

lemma Sync.of_change (h : Sync sb st) (a : Nat) {st' : Cache} (hc : CacheInv st')
    (hinode : ∀ b, b ≠ a → st'.inode b = st.inode b)
    (hslot : ∀ b < NINODE, b ≠ a → 0 < (st.inode b).ref → ∀ p,
      (st.inode b).addrs = some p → st'.slot p = st.slot p)
    (hothers : ∀ b < NINODE, b ≠ a → 0 < (st.inode b).ref → (st.inode b).valid = true →
      dinodeAt sb st'.root.view (st.inode b).inum = dinodeAt sb st.root.view (st.inode b).inum)
    (himage : Consistent sb st'.root.view)
    (hroot : 0 < (st'.inode a).ref → (st'.inode a).dev = ROOTDEV ∧ 1 ≤ (st'.inode a).inum ∧
      (st'.inode a).inum < sb.ninodes)
    (hunique : 0 < (st'.inode a).ref → ∀ b < NINODE, b ≠ a → 0 < (st.inode b).ref →
      (st.inode b).inum ≠ (st'.inode a).inum)
    (hsync : 0 < (st'.inode a).ref → (st'.inode a).valid = true → ∀ p,
      (st'.inode a).addrs = some p →
      (st'.inode a).copy (st'.slot p).addrs = dinodeAt sb st'.root.view (st'.inode a).inum ∧
      (st'.inode a).type ≠ 0) : Sync sb st' := by
  refine ⟨hc, fun b hb hr => ?_, fun b hb c hcl hr hr' heq => ?_, fun b hb hr hv p hp => ?_, himage⟩
  · by_cases hba : b = a
    · rw [hba] at hr ⊢
      exact hroot hr
    · rw [hinode b hba] at hr ⊢
      exact h.root b hb hr
  · by_cases hba : b = a
    · by_cases hca : c = a
      · rw [hba, hca]
      rw [hba] at hr heq
      rw [hinode c hca] at hr' heq
      exact absurd heq.symm (hunique hr c hcl hca hr')
    by_cases hca : c = a
    · rw [hca] at hr' heq
      rw [hinode b hba] at hr heq
      exact absurd heq (hunique hr' b hb hba hr)
    rw [hinode b hba] at hr heq
    rw [hinode c hca] at hr' heq
    exact h.unique b hb c hcl hr hr' heq
  · by_cases hba : b = a
    · rw [hba] at hr hv hp ⊢
      exact hsync hr hv p hp
    rw [hinode b hba] at hr hv hp ⊢
    rw [hslot b hb hba hr p hp, hothers b hb hba hr hv]
    exact h.synced b hb hr hv p hp

@[simp] lemma setInode_root (st : Cache) (a : Nat) (ip : Inode) :
    (st.setInode a ip).root = st.root := rfl

@[simp] lemma setSlot_root (st : Cache) (p : AddrPtr) (v : AddrSlot) :
    (st.setSlot p v).root = st.root := by
  cases p <;> rfl

@[simp] lemma setDevice_root (st : Cache) (bc : Bcache) : (st.setDevice .xv6fs bc).root = bc := rfl

/-- What a call on entry `a` keeps of the entry. -/
def SameEntry (ip ip' : Inode) : Prop :=
  ip'.dev = ip.dev ∧ ip'.inum = ip.inum ∧ ip'.ref = ip.ref ∧ ip'.valid = ip.valid ∧
    ip'.type = ip.type

/-- **A call on a locked entry** keeps the cache in step with the image. -/
lemma Sync.onEntry {α : Type}
    {f : Nat → Dinode → Bcache → Except Err (α × Dinode × Bcache)} {Q : Prop}
    {E : Err → Prop} (h : Sync sb st) (hlock : Locked st a)
    (hf : Sat (f (st.inode a).inum (dinodeAt sb st.root.view (st.inode a).inum) st.root)
      (fun r => Q ∧ Kept sb (st.inode a).inum st.root.view r.2.1 r.2.2.view) E) :
    Sat (onEntry f a st) (fun r => Q ∧ Sync sb r.2 ∧ SameEntry (st.inode a) (r.2.inode a)) E := by
  obtain ⟨⟨ha, hr⟩, hv⟩ := hlock
  obtain ⟨hiops, i, hp⟩ := h.entry ha hr
  obtain ⟨hcopy, htype⟩ := h.synced a ha hr hv _ hp
  have hu := h.inUse ha hr hv
  rw [Xv6Calls.onEntry, hp]
  dsimp only
  rw [hcopy]
  refine hf.bind ?_
  rintro ⟨r, d, bc⟩ ⟨hQ, hkept⟩
  dsimp only at hQ hkept ⊢
  have hd : d.type = (st.inode a).type := by rw [hkept.type, ← hcopy]; rfl
  have hsame : ((st.setDevice .xv6fs bc).setSlot (.xv6fs i)
      { st.slot (.xv6fs i) with addrs := d.addrs }).inode = st.inode := by
    rw [setSlot_inode, setDevice_inode]
  refine Sat.ok ⟨hQ, ?_, ?_⟩
  · have hcache : CacheInv (((st.setDevice .xv6fs bc).setSlot (.xv6fs i)
        { st.slot (.xv6fs i) with addrs := d.addrs }).setInode a ((st.inode a).load d)) :=
      (h.cache.setAddrs .xv6fs bc (.xv6fs i) d.addrs).setInode ha (by rw [hsame]; exact hr) hr
        (by rw [hsame]; rfl) (by rw [hsame]; rfl) (by rw [hsame]; rfl)
    refine h.of_change a hcache (fun b hb => ?_) (fun b hb hba hbr q hq => ?_)
      (fun b hb hba hbr hbv => ?_) ?_ (fun _ => ?_) (fun _ b hb hba hbr => ?_) (fun _ _ q hq => ?_)
    · rw [setInode_inode, hsame, update_of_ne hb]
    · rw [setInode_slot, setSlot_slot_of_ne _ _ _ (h.slot_ne ha hr hb hbr hba hp hq),
        setDevice_slot]
    · rw [setInode_root, setSlot_root, setDevice_root]
      refine hkept.others _ (fun e => hba (h.unique b hb a ha hbr hr e)) (h.root b hb hbr).2.2
    · rw [setInode_root, setSlot_root, setDevice_root]
      exact hkept.consistent
    · rw [setInode_self]
      exact h.root a ha hr
    · rw [setInode_self]
      exact fun e => hba (h.unique b hb a ha hbr hr e)
    · rw [setInode_self] at hq ⊢
      obtain rfl : AddrPtr.xv6fs i = q := Option.some.inj (hp.symm.trans hq)
      rw [setInode_slot, setSlot_slot_self, setInode_root, setSlot_root, setDevice_root]
      refine ⟨?_, ?_⟩
      · show d = dinodeAt sb bc.view (st.inode a).inum
        exact hkept.stored.symm
      · show d.type ≠ 0
        rwa [hd]
  · rw [setInode_self]
    exact ⟨rfl, rfl, rfl, rfl, hd⟩

variable {bc : Bcache}

lemma Sync.onEntry_eq {α : Type}
    {f : Nat → Dinode → Bcache → Except Err (α × Dinode × Bcache)} {r : α} {d : Dinode}
    (h : Sync sb st) (hlock : Locked st a)
    (hf : f (st.inode a).inum (dinodeAt sb st.root.view (st.inode a).inum) st.root =
      .ok (r, d, bc)) (hkept : Kept sb (st.inode a).inum st.root.view d bc.view) :
    ∃ st', Xv6Calls.onEntry f a st = .ok (r, st') ∧ Sync sb st' ∧ st'.root = bc ∧
      SameEntry (st.inode a) (st'.inode a) ∧ ∀ b, b ≠ a → st'.inode b = st.inode b := by
  obtain ⟨-, i, hp⟩ := h.entry hlock.1.1 hlock.1.2
  have hcopy := (h.synced a hlock.1.1 hlock.1.2 hlock.2 _ hp).1
  have hok : Xv6Calls.onEntry f a st = .ok (r, ((st.setDevice .xv6fs bc).setSlot (.xv6fs i)
      { st.slot (.xv6fs i) with addrs := d.addrs }).setInode a ((st.inode a).load d)) := by
    rw [Xv6Calls.onEntry, hp]
    dsimp only
    rw [hcopy, hf, ok_bind]
  have hsat : Sat (Xv6Calls.onEntry f a st) (fun r => True ∧ Sync sb r.2 ∧
      SameEntry (st.inode a) (r.2.inode a)) (fun _ => False) :=
    h.onEntry hlock (by rw [hf]; exact Sat.ok ⟨trivial, hkept⟩)
  obtain ⟨-, hsync, hsame⟩ := hsat.of_ok hok
  refine ⟨_, hok, hsync, ?_, hsame, fun b hb => ?_⟩
  · rw [setInode_root, setSlot_root, setDevice_root]
  · rw [setInode_inode, setSlot_inode, setDevice_inode, update_of_ne hb]

/-! ## References -/

lemma Sync.setRef (h : Sync sb st) (ha : a < NINODE) (hr : 0 < (st.inode a).ref) {n : Nat}
    (hn : 0 < n) : Sync sb (st.setInode a { st.inode a with ref := n }) := by
  refine h.of_change a (h.cache.setInode ha hr hn rfl rfl rfl) (fun b hb => ?_)
    (fun b _ _ _ p _ => setInode_slot st p a _) (fun b _ _ _ _ => rfl) h.image (fun _ => ?_)
    (fun _ b hb hba hbr => ?_) (fun _ hv p hp => ?_)
  · rw [setInode_inode, update_of_ne hb]
  · rw [setInode_self]
    exact h.root a ha hr
  · rw [setInode_self]
    exact fun e => hba (h.unique b hb a ha hbr hr e)
  · rw [setInode_self] at hv hp ⊢
    rw [setInode_slot]
    exact h.synced a ha hr hv p hp

lemma Sync.idup (h : Sync sb st) (hr : Referenced st a) : Sync sb (idup a st) :=
  h.setRef hr.1 hr.2 (Nat.succ_pos _)

/-- `iget` of the root device: the entry that stands for the inode, or an unused one. -/
lemma iget_root_sat (inum : Nat) (st : Cache) : Sat (iget ROOTDEV inum st) (fun r => r.1 < NINODE ∧
        ((0 < (st.inode r.1).ref ∧ (st.inode r.1).dev = ROOTDEV ∧ (st.inode r.1).inum = inum ∧
            r.2 = st.setInode r.1 { st.inode r.1 with ref := (st.inode r.1).ref + 1 }) ∨
          ((∀ b < NINODE, (st.inode b).is ROOTDEV inum = false) ∧ (st.inode r.1).ref = 0 ∧
            r.2 = st.recycle r.1 ROOTDEV inum .xv6fs (.xv6fs st.freeXv6))))
      (fun e => e = .panic "iget: no inodes") := by
  cases hcall : iget ROOTDEV inum st with
  | ok r =>
    obtain ⟨b, st'⟩ := r
    obtain ⟨hb, hcached | ⟨hmiss, hunused, ⟨-, hst⟩ | ⟨hdev, -⟩⟩⟩ := iget_ok hcall
    · exact Sat.ok ⟨hb, .inl hcached⟩
    · exact Sat.ok ⟨hb, .inr ⟨hmiss, hunused, hst⟩⟩
    · exact absurd rfl hdev
  | error e =>
    refine Sat.error ?_
    rw [iget] at hcall
    split at hcall
    · cases hcall
    split at hcall
    · exact (Except.error.inj hcall).symm
    · split at hcall <;> cases hcall

lemma Sync.freeXv6_ne (h : Sync sb st) (ha : a < NINODE) (hunused : (st.inode a).ref = 0)
    (hb : b < NINODE) (hbr : 0 < (st.inode b).ref)
    (hp : (st.inode b).addrs = some p) : p ≠ .xv6fs st.freeXv6 := by
  rintro rfl
  have hbusy := (freeXv6_spec h.cache ha hunused).2
  have howned := h.cache.xv6.owned b hb st.freeXv6 (by
    show (st.inode b).xv6Slot = some st.freeXv6
    rw [Inode.xv6Slot, if_pos hbr, hp])
  rw [Function.comp_apply, hbusy] at howned
  cases howned

variable {inum : Nat}

lemma Sync.recycle (h : Sync sb st) (ha : a < NINODE)
    (hunused : (st.inode a).ref = 0) (hmiss : ∀ b < NINODE, (st.inode b).is ROOTDEV inum = false)
    (hinum : 1 ≤ inum ∧ inum < sb.ninodes)
    (hc : CacheInv (st.recycle a ROOTDEV inum .xv6fs (.xv6fs st.freeXv6))) :
    Sync sb (st.recycle a ROOTDEV inum .xv6fs (.xv6fs st.freeXv6)) := by
  have hroot : (st.recycle a ROOTDEV inum .xv6fs (.xv6fs st.freeXv6)).root = st.root := rfl
  refine h.of_change a hc (fun b hb => ?_) (fun b hb hba hbr p hp => ?_) (fun b _ _ _ _ => ?_)
    (by rw [hroot]; exact h.image) (fun _ => ?_) (fun _ b hb hba hbr => ?_) (fun _ hv => ?_)
  · rw [recycle_inode, update_of_ne hb]
  · rw [Cache.recycle, setSlot_slot_of_ne _ _ _ (h.freeXv6_ne ha hunused hb hbr hp), setInode_slot]
  · rw [hroot]
  · rw [recycle_self]
    exact ⟨rfl, hinum⟩
  · rw [recycle_self]
    intro e
    have hno := of_decide_eq_false (hmiss b hb)
    exact hno ⟨hbr, (h.root b hb hbr).1, e⟩
  · rw [recycle_self] at hv
    cases hv

lemma Sync.iget (h : Sync sb st) (hinum : 1 ≤ inum ∧ inum < sb.ninodes) :
    Sat (iget ROOTDEV inum st) (fun r => Sync sb r.2) (fun e => e = .panic "iget: no inodes") := by
  cases hcall : Icache.iget ROOTDEV inum st with
  | ok r =>
    obtain ⟨b, st'⟩ := r
    have hcache : CacheInv st' := cacheInv_iget h.cache (.inl rfl) nofun hcall
    have hsat := (iget_root_sat inum st).of_ok hcall
    dsimp only at hsat
    obtain ⟨hb, ⟨hr, -, -, rfl⟩ | ⟨hmiss, hunused, rfl⟩⟩ := hsat
    · exact Sat.ok (h.setRef hb hr (Nat.succ_pos _))
    · exact Sat.ok (h.recycle hb hunused hmiss hinum hcache)
  | error e =>
    exact Sat.error ((iget_root_sat inum st).of_error hcall)

lemma Sync.ilock (esb : Ext2Super) (h : Sync sb st) (href : Referenced st a) :
    Sat (ilock sb esb a st) (Sync sb) (fun e => e = .panic "ilock: no type") := by
  obtain ⟨ha, hr⟩ := href
  obtain ⟨hiops, i, hp⟩ := h.entry ha hr
  have hread : xv6fsIread sb (st.inode a).inum (st.device .xv6fs) = .ok
      (dinodeAt sb st.root.view (st.inode a).inum,
        st.root.touch (IBLOCK (st.inode a).inum sb)) := rfl
  rw [Icache.ilock, hiops]
  show Sat (ilockWith .xv6fs (xv6fsIread sb) a st) _ _
  cases hcall : ilockWith .xv6fs (xv6fsIread sb) a st with
  | ok st' =>
    have hcache := cacheInv_ilockWith h.cache ha hr hiops hcall
    refine Sat.ok ?_
    rcases ilockWith_ok hcall with ⟨-, rfl⟩ | ⟨p, d, bc, hp', -, hread', htype, rfl⟩
    · exact h
    rw [hread] at hread'
    obtain ⟨rfl, rfl⟩ := ok_pair_inj hread'
    obtain rfl : AddrPtr.xv6fs i = p := Option.some.inj (hp.symm.trans hp')
    refine h.of_change a hcache (fun b hb => ?_) (fun b hb hba hbr q hq => ?_)
      (fun b _ _ _ _ => ?_) ?_ (fun _ => ?_) (fun _ b hb hba hbr => ?_) (fun _ _ q hq => ?_)
    · rw [setInode_inode, setSlot_inode, setDevice_inode, update_of_ne hb]
    · rw [setInode_slot, setSlot_slot_of_ne _ _ _ (h.slot_ne ha hr hb hbr hba hp hq),
        setDevice_slot]
    · rw [setInode_root, setSlot_root, setDevice_root, touch_view]
    · rw [setInode_root, setSlot_root, setDevice_root, touch_view]
      exact h.image
    · rw [setInode_self]
      exact h.root a ha hr
    · rw [setInode_self]
      exact fun e => hba (h.unique b hb a ha hbr hr e)
    · rw [setInode_self] at hq ⊢
      obtain rfl : AddrPtr.xv6fs i = q := Option.some.inj (hp.symm.trans hq)
      rw [setInode_slot, setSlot_slot_self, setInode_root, setSlot_root, setDevice_root, touch_view]
      exact ⟨rfl, htype⟩
  | error e =>
    refine Sat.error ?_
    rw [ilockWith, hp] at hcall
    dsimp only at hcall
    rw [if_neg (by omega), hread, ok_bind] at hcall
    dsimp only at hcall
    split at hcall
    · cases hcall
    split at hcall
    · exact (Except.error.inj hcall).symm
    · cases hcall

lemma Sync.ilock_eq (esb : Ext2Super) (h : Sync sb st) (href : Referenced st a)
    (htype : (dinodeAt sb st.root.view (st.inode a).inum).type ≠ 0) :
    ∃ st', Icache.ilock sb esb a st = .ok st' ∧ Sync sb st' ∧ Locked st' a ∧
      st'.root.view = st.root.view ∧ (st'.inode a).inum = (st.inode a).inum := by
  obtain ⟨hiops, i, hp⟩ := h.entry href.1 href.2
  have hr := href.2
  have hread : xv6fsIread sb (st.inode a).inum (st.device .xv6fs) = .ok
      (dinodeAt sb st.root.view (st.inode a).inum,
        st.root.touch (IBLOCK (st.inode a).inum sb)) := rfl
  suffices hcall : ∃ st', Icache.ilock sb esb a st = .ok st' ∧ Locked st' a ∧
      st'.root.view = st.root.view ∧ (st'.inode a).inum = (st.inode a).inum by
    obtain ⟨st', hok, hrest⟩ := hcall
    exact ⟨st', hok, (h.ilock esb href).of_ok hok, hrest⟩
  rw [Icache.ilock, hiops]
  show ∃ st', ilockWith .xv6fs (xv6fsIread sb) a st = .ok st' ∧ _
  rw [ilockWith]
  dsimp only
  rw [if_neg (by omega)]
  by_cases hv : (st.inode a).valid = true
  · rw [if_pos hv]
    exact ⟨st, rfl, ⟨href, hv⟩, rfl, rfl⟩
  rw [if_neg hv, hp]
  dsimp only
  rw [hread, ok_bind]
  dsimp only
  rw [if_neg htype]
  refine ⟨_, rfl, ⟨⟨href.1, ?_⟩, ?_⟩, ?_, ?_⟩
  · rwa [setInode_self]
  · rw [setInode_self]
  · rw [setInode_root, setSlot_root, setDevice_root, touch_view]
  · rw [setInode_self]
    rfl

/-- Truncating and freeing an allocated inode returns, and the image stays consistent. -/
lemma xv6fsFree_eq (hl : Layout sb) {s : Bcache} (h : Consistent sb s.view)
    (hu : InUse sb (dinodeAt sb s.view) inum) :
    ∃ d s', xv6fsFree sb inum (dinodeAt sb s.view inum) s = .ok (d, s') ∧ Consistent sb s'.view ∧
      ∀ j, j ≠ inum → j < sb.ninodes → dinodeAt sb s'.view j = dinodeAt sb s.view j := by
  obtain ⟨s1, htrunc, hcore, hstored⟩ := itrunc_eq hl (h.core hu)
  have hself : update (dinodeAt sb s.view) inum (emptied (dinodeAt sb s.view inum)) inum =
      emptied (dinodeAt sb s.view inum) := update_self _ _ _
  have hcons : Consistent sb s1.view := by
    refine hcore.consistent (hstored.trans hself.symm) (fun _ => ?_)
    rw [hself]
    exact covers_emptied _ _
  have hothers : ∀ j, j ≠ inum → j < sb.ninodes → dinodeAt sb s1.view j = dinodeAt sb s.view j := by
    intro j hj hlt
    rw [hcore.disk j hj hlt, update_of_ne hj]
  obtain ⟨ip, hip⟩ : ∃ ip, ip = { emptied (dinodeAt sb s.view inum) with type := 0 } := ⟨_, rfl⟩
  have hcanon : Canonical ip := by
    have hc := emptied_canonical (dinodeAt_canonical sb s.view inum)
    rw [hip]
    exact ⟨Nat.two_pow_pos 16, hc.major, hc.minor, hc.nlink, hc.size, hc.addrs, hc.end_⟩
  obtain ⟨s2, hupd, hview⟩ := xv6fsIupdate_eq sb inum ip s1
  have hib := IBLOCK_lt hl hu.2.1
  refine ⟨ip, s2, ?_, ?_, fun j hj hlt => ?_⟩
  · rw [xv6fsFree, htrunc, ok_bind]
    dsimp only
    rw [← hip, hupd, ok_bind]
  · rw [hview]
    refine hcons.replace (dinodeAt_updated sb s1.view hcanon)
      (fun j hj => dinodeAt_updated_of_ne sb s1.view ip hj)
      (fun b hb => update_of_ne (by omega) _ _) (fun p => ?_) (fun p => by rw [hip]; rfl)
      (by rw [hip]; rfl) (fun ht => absurd (by rw [hip]) ht)
    rw [owns_of_inUse, hstored, ownBlock_emptied]
    exact ⟨hu.1, hu.2.1, by rw [hstored]; exact hu.2.2⟩
  · rw [hview, dinodeAt_updated_of_ne sb s1.view ip hj]
    exact hothers j hj hlt

lemma Sync.release (h : Sync sb st) (ha : a < NINODE) (hr : 0 < (st.inode a).ref)
    (hp : (st.inode a).addrs = some p) {v : AddrSlot} {ip : Inode}
    (hip : ip.ref = 0) (himage : Consistent sb bc.view)
    (hothers : ∀ j, j ≠ (st.inode a).inum → j < sb.ninodes →
      dinodeAt sb bc.view j = dinodeAt sb st.root.view j)
    (hc : CacheInv (((st.setDevice .xv6fs bc).setSlot p v).setInode a ip)) :
    Sync sb (((st.setDevice .xv6fs bc).setSlot p v).setInode a ip) := by
  have hdead : ¬0 < ((((st.setDevice .xv6fs bc).setSlot p v).setInode a ip).inode a).ref := by
    rw [setInode_self, hip]
    exact Nat.lt_irrefl 0
  refine h.of_change a hc (fun b hb => ?_) (fun b hb hba hbr q hq => ?_)
    (fun b hb hba hbr _ => ?_) ?_ (fun hbad => absurd hbad hdead) (fun hbad => absurd hbad hdead)
    (fun hbad => absurd hbad hdead)
  · rw [setInode_inode, setSlot_inode, setDevice_inode, update_of_ne hb]
  · rw [setInode_slot, setSlot_slot_of_ne _ _ _ (h.slot_ne ha hr hb hbr hba hp hq), setDevice_slot]
  · rw [setInode_root, setSlot_root, setDevice_root]
    exact hothers _ (fun e => hba (h.unique b hb a ha hbr hr e)) (h.root b hb hbr).2.2
  · rwa [setInode_root, setSlot_root, setDevice_root]

/-- **`iput` returns**, whether or not it frees the inode. -/
lemma Sync.iput (hl : Layout sb) (esb : Ext2Super) (h : Sync sb st) (href : Referenced st a) :
    Sat (iput sb esb a st) (Sync sb) (fun _ => False) := by
  obtain ⟨ha, hr⟩ := href
  obtain ⟨hiops, i, hp⟩ := h.entry ha hr
  rw [Icache.iput, hiops]
  show Sat (iputWith .xv6fs (xv6fsFree sb) a st) _ _
  have hfree : (st.inode a).valid = true → ∃ d bc, xv6fsFree sb (st.inode a).inum
      ((st.inode a).copy (st.slot (.xv6fs i)).addrs) (st.device .xv6fs) = .ok (d, bc) ∧
      Consistent sb bc.view ∧ ∀ j, j ≠ (st.inode a).inum → j < sb.ninodes →
        dinodeAt sb bc.view j = dinodeAt sb st.root.view j := by
    intro hv
    rw [(h.synced a ha hr hv _ hp).1]
    exact xv6fsFree_eq hl h.image (h.inUse ha hr hv)
  cases hcall : iputWith .xv6fs (xv6fsFree sb) a st with
  | ok st' =>
    have hcache := cacheInv_iputWith h.cache ha hr hcall
    refine Sat.ok ?_
    rcases iputWith_ok hcall with ⟨hr1, rfl⟩ | ⟨-, p, hp', ⟨-, rfl⟩ | ⟨d, bc, hv, -, hcall', rfl⟩⟩
    · exact h.setRef ha hr (by omega)
    · exact h.release ha hr hp' rfl h.image (fun _ _ _ => rfl) hcache
    · obtain rfl : AddrPtr.xv6fs i = p := Option.some.inj (hp.symm.trans hp')
      obtain ⟨d', bc', hcall'', himage, hothers⟩ := hfree hv
      rw [hcall''] at hcall'
      obtain ⟨rfl, rfl⟩ := ok_pair_inj hcall'
      exact h.release ha hr hp rfl himage hothers hcache
  | error e =>
    rw [iputWith, hp] at hcall
    dsimp only at hcall
    split at hcall
    · next hcond =>
      obtain ⟨d, bc, hok, -⟩ := hfree hcond.1
      rw [hok, ok_bind] at hcall
      dsimp only at hcall
      rw [dropRef.eq_def] at hcall
      dsimp only at hcall
      split at hcall <;> cases hcall
    · rw [dropRef.eq_def] at hcall
      dsimp only at hcall
      split at hcall <;> cases hcall

/-! ## Allocation of an inode -/

variable {type : Nat}

lemma getDinode_fresh (d : Block) (o : Nat) (ht : type < 2 ^ 16) :
    getDinode (putLE (blit d o 64 (fun _ => 0)) 2 o type) o = ⟨type, 0, 0, 0, 0, fun _ => 0⟩ := by
  have hzero : ∀ n x, 2 ≤ x → x + n ≤ 64 →
      getLE (putLE (blit d o 64 (fun _ => 0)) 2 o type) n (o + x) = 0 := by
    intro n x h1 h2
    rw [getLE_putLE_of_disjoint (by omega)]
    exact getLE_zero (fun k hk hk' => blit_in (by omega))
  refine Dinode.ext ?_ (hzero 2 2 (by decide) (by decide)) (hzero 2 4 (by decide) (by decide))
    (hzero 2 6 (by decide) (by decide)) (hzero 4 8 (by decide) (by decide)) ?_
  · show getLE _ 2 o = type
    rw [getLE_putLE]
    exact Nat.mod_eq_of_lt ht
  · funext i
    show (if i < NDIRECT + 1 then getLE _ 4 (o + 12 + 4 * i) else 0) = 0
    by_cases hi : i < NDIRECT + 1
    · have hi13 : i < 13 := hi
      rw [if_pos hi, Nat.add_assoc, hzero 4 (12 + 4 * i) (by omega) (by omega)]
    · rw [if_neg hi]

lemma iallocFrom_sat (hl : Layout sb)
    (htype : type = T_DIR ∨ type = T_FILE ∨ type = T_DEV) (fuel : Nat) :
    ∀ (inum : Nat) (s : Bcache), 1 ≤ inum → Consistent sb s.view →
    Sat (iallocFrom sb type fuel inum s)
      (fun r => (1 ≤ r.1 ∧ r.1 < sb.ninodes) ∧ (dinodeAt sb s.view r.1).type = 0 ∧
        Consistent sb r.2.view ∧ (dinodeAt sb r.2.view r.1).type = type ∧
        ∀ j, j ≠ r.1 → dinodeAt sb r.2.view j = dinodeAt sb s.view j)
      (fun e => e = .panic "ialloc: no inodes") := by
  have ht : type < 2 ^ 16 := by
    rcases htype with rfl | rfl | rfl <;> decide
  induction fuel with
  | zero => exact fun _ _ _ _ => Sat.error rfl
  | succ fuel ih =>
    intro inum s hpos h
    rw [iallocFrom]
    by_cases hlt : inum < sb.ninodes
    · rw [if_pos hlt, bread_nil]
      dsimp only
      split
      · next hfree =>
        have hib := IBLOCK_lt hl hlt
        have hout : ∀ k, k < inum % IPB * 64 ∨ inum % IPB * 64 + 64 ≤ k →
            putLE (blit (s.view (IBLOCK inum sb)) (inum % IPB * 64) 64 (fun _ => 0)) 2
              (inum % IPB * 64) type k = s.view (IBLOCK inum sb) k := by
          intro k hk
          rw [putLE_out (by omega), blit_out (by omega)]
        refine Sat.ok ⟨⟨hpos, hlt⟩, hfree, ?_, ?_, fun j hj => ?_⟩
        · dsimp only
          rw [logWrite, bput_view, touch_view]
          refine h.replace (dinodeAt_store sb s.view inum _)
            (fun j hj => dinodeAt_store_of_ne sb s.view hout hj)
            (fun b hb => update_of_ne (by omega) _ _) (fun p => ?_) (fun p => ?_) ?_ (fun _ => ?_)
          · rw [owns, if_neg (fun hu => hu.2.2 hfree)]
          · rw [getDinode_fresh _ _ ht]
          · rw [getDinode_fresh _ _ ht]
          · rw [getDinode_fresh _ _ ht]
            rcases htype with rfl | rfl | rfl
            · exact .inl (.inr rfl)
            · exact .inl (.inl rfl)
            · exact .inr rfl
        · dsimp only
          rw [logWrite, bput_view, touch_view, dinodeAt_store, getDinode_fresh _ _ ht]
        · dsimp only
          rw [logWrite, bput_view, touch_view]
          exact dinodeAt_store_of_ne sb s.view hout hj
      · have hrest := ih (inum + 1) (s.touch (IBLOCK inum sb)) (by omega)
          (by rw [touch_view]; exact h)
        rwa [touch_view] at hrest
    · rw [if_neg hlt]
      exact Sat.error rfl

lemma Sync.setImage (h : Sync sb st) (himage : Consistent sb bc.view)
    (hsame : ∀ a < NINODE, 0 < (st.inode a).ref → (st.inode a).valid = true →
      dinodeAt sb bc.view (st.inode a).inum = dinodeAt sb st.root.view (st.inode a).inum) :
    Sync sb (st.setDevice .xv6fs bc) := by
  obtain ⟨⟨hx, he, hk⟩, hroot, hunique, hsynced, -⟩ := h
  refine ⟨⟨hx, he, hk⟩, hroot, hunique, fun a ha hr hv p hp => ?_, himage⟩
  rw [setDevice_slot]
  obtain ⟨hcopy, htype⟩ := hsynced a ha hr hv p hp
  exact ⟨hcopy.trans (hsame a ha hr hv).symm, htype⟩

lemma Sync.ialloc (hl : Layout sb) (h : Sync sb st)
    (htype : type = T_DIR ∨ type = T_FILE ∨ type = T_DEV) :
    Sat (xv6fsIalloc sb type st) (fun r => Sync sb r.2)
      (fun e => e = .panic "ialloc: no inodes" ∨ e = .panic "iget: no inodes") := by
  rw [xv6fsIalloc]
  refine ((iallocFrom_sat hl htype sb.ninodes 1 st.root (Nat.le_refl 1) h.image).mono
    (fun r hr => hr) (fun e he => .inl he)).bind ?_
  rintro ⟨inum, bc⟩ ⟨hinum, hfree, himage, -, hothers⟩
  dsimp only at hinum hfree himage hothers ⊢
  refine ((h.setImage himage (fun a ha hr hv => hothers _ ?_)).iget hinum).mono (fun r hr => hr)
    (fun e he => .inr he)
  -- a valid entry is an allocated inode
  intro e
  exact (h.inUse ha hr hv).2.2 (by rw [e]; exact hfree)

/-! ## Directories -/

lemma iputWith_unread {f : Iops} {free : Nat → Dinode → Bcache → Except Err (Dinode × Bcache)}
    (hv : (st.inode a).valid = false) (hr : (st.inode a).ref = 1)
    (hp : (st.inode a).addrs = some p) :
    iputWith f free a st = .ok ((st.setSlot p { st.slot p with busy := 0 }).setInode a
      { st.inode a with ref := 0, addrs := none }) := by
  rw [iputWith]
  dsimp only
  rw [if_neg (fun hc => by rw [hv] at hc; cases hc.1), dropRef.eq_def]
  dsimp only
  rw [if_pos hr, hp]

/-- An entry is recycled, for whatever inode number, and given back unread. -/
lemma Sync.recycle_iput (h : Sync sb st) (esb : Ext2Super) (hb : b < NINODE)
    (hunused : (st.inode b).ref = 0)
    (hc : CacheInv (st.recycle b ROOTDEV inum .xv6fs (.xv6fs st.freeXv6))) :
    Sat (Icache.iput sb esb b (st.recycle b ROOTDEV inum .xv6fs (.xv6fs st.freeXv6))) (Sync sb)
      (fun _ => False) := by
  obtain ⟨st1, hst1⟩ : ∃ st1, st1 = st.recycle b ROOTDEV inum .xv6fs (.xv6fs st.freeXv6) := ⟨_, rfl⟩
  have hother : ∀ c, c ≠ b → st1.inode c = st.inode c := by
    intro c hcb
    rw [hst1, recycle_inode, update_of_ne hcb]
  have hroot : st1.root = st.root := by rw [hst1]; rfl
  have hv : (st1.inode b).valid = false := by rw [hst1, recycle_self]
  have hr : (st1.inode b).ref = 1 := by rw [hst1, recycle_self]
  have hi : (st1.inode b).iops = some .xv6fs := by rw [hst1, recycle_self]
  have hp : (st1.inode b).addrs = some (.xv6fs st.freeXv6) := by
    rw [hst1, recycle_self]
  have hdrop : iputWith .xv6fs (xv6fsFree sb) b st1 = _ := iputWith_unread hv hr hp
  rw [← hst1] at hc ⊢
  have hcache := cacheInv_iputWith hc hb (by rw [hr]; exact Nat.one_pos) hdrop
  rw [Icache.iput, hi]
  show Sat (iputWith .xv6fs (xv6fsFree sb) b st1) _ _
  rw [hdrop]
  refine Sat.ok ?_
  have hdead : ¬0 < (((st1.setSlot (.xv6fs st.freeXv6)
      { st1.slot (.xv6fs st.freeXv6) with busy := 0 }).setInode b
        { st1.inode b with ref := 0, addrs := none }).inode b).ref := by
    rw [setInode_self]
    exact Nat.lt_irrefl 0
  refine h.of_change b hcache (fun c hcb => ?_) (fun c hc hcb hcr q hq => ?_)
    (fun c _ _ _ _ => ?_) ?_ (fun hbad => absurd hbad hdead) (fun hbad => absurd hbad hdead)
    (fun hbad => absurd hbad hdead)
  · rw [setInode_inode, setSlot_inode, update_of_ne hcb, hother c hcb]
  · have hne := h.freeXv6_ne hb hunused hc hcr hq
    rw [setInode_slot, setSlot_slot_of_ne _ _ _ hne, hst1, Cache.recycle,
      setSlot_slot_of_ne _ _ _ hne, setInode_slot]
  · rw [setInode_root, setSlot_root, hroot]
  · rw [setInode_root, setSlot_root, hroot]
    exact h.image

/-- `iget` of an inode number from a directory, then `iput` of the entry. -/
lemma Sync.iget_iput (hl : Layout sb) (h : Sync sb st) (esb : Ext2Super) (inum : Nat) :
    Sat (Icache.iget ROOTDEV inum st)
      (fun r => Sat (Icache.iput sb esb r.1 r.2) (Sync sb) (fun _ => False))
      (fun e => e = .panic "iget: no inodes") := by
  cases hcall : Icache.iget ROOTDEV inum st with
  | ok r =>
    obtain ⟨b, st'⟩ := r
    have hcache : CacheInv st' := cacheInv_iget h.cache (.inl rfl) nofun hcall
    have hsat := (iget_root_sat inum st).of_ok hcall
    dsimp only at hsat
    refine Sat.ok ?_
    obtain ⟨hb, ⟨hr, -, -, rfl⟩ | ⟨-, hunused, rfl⟩⟩ := hsat
    · refine (h.setRef hb hr (Nat.succ_pos _)).iput hl esb ⟨hb, ?_⟩
      rw [setInode_self]
      exact Nat.succ_pos _
    · exact h.recycle_iput esb hb hunused hcache
  | error e => exact Sat.error ((iget_root_sat inum st).of_error hcall)

lemma expected_panic {msg : String} (h : msg ∈ ["balloc: out of blocks",
    "ialloc: no inodes", "iget: no inodes", "ilock: no type", "dirlookup not DIR",
    "dirlookup read", "dirlink read", "dirlink"]) : Expected (.panic msg) := .inr ⟨msg, h, rfl⟩

lemma Sync.dirlink (hl : Layout sb) (h : Sync sb st) (esb : Ext2Super)
    (devsw : Nat → Devsw) (name : List UInt8) (inum : Nat) (hlock : Locked st a) :
    Sat (xv6fsDirlink sb esb devsw name inum a st) (fun r => Sync sb r.2) Expected := by
  obtain ⟨⟨ha, hr⟩, hv⟩ := hlock
  have hu := h.inUse ha hr hv
  -- the search
  have hsearch : Sat (dirSearch sb devsw name (dinodeAt sb st.root.view (st.inode a).inum) st.root)
      (fun r => (dinodeAt sb st.root.view (st.inode a).inum).type = T_DIR ∧
        Kept sb (st.inode a).inum st.root.view r.2.1 r.2.2.view) Expected := by
    refine (dirSearch_sat devsw name h.image hu).mono ?_ ?_
    · rintro r ⟨hdir, hip, hview⟩
      rw [hip]
      exact ⟨hdir, Kept.of_view h.image hview⟩
    · rintro e (rfl | rfl) <;> exact expected_panic (by decide)
  have hentry : Sat (Xv6Calls.onEntry (fun _ => dirSearch sb devsw name) a st)
      (fun r => (dinodeAt sb st.root.view (st.inode a).inum).type = T_DIR ∧ Sync sb r.2 ∧
        SameEntry (st.inode a) (r.2.inode a)) Expected := h.onEntry ⟨⟨ha, hr⟩, hv⟩ hsearch
  rw [xv6fsDirlink, xv6fsDirlookup, bind_assoc]
  refine hentry.bind ?_
  rintro ⟨⟨off, de⟩, st1⟩ ⟨hdir, h1, hdev, hinum, href, hvalid, htype⟩
  dsimp only at hdir h1 hdev hinum href hvalid htype ⊢
  have hlock1 : Locked st1 a := ⟨⟨ha, by rw [href]; exact hr⟩, by rw [hvalid]; exact hv⟩
  cases de with
  | some de =>
    -- the name is there: its inode is fetched and put back
    dsimp only
    rw [bind_assoc, (h1.root a ha hlock1.1.2).1]
    refine ((h1.iget_iput hl esb (deInum de)).mono (fun r hr => hr) ?_).bind ?_
    · rintro e rfl
      exact expected_panic (by decide)
    · rintro ⟨b, st2⟩ hput
      dsimp only at hput ⊢
      rw [ok_bind]
      dsimp only
      split
      · exact Sat.error (.inl rfl)
      · exact (hput.mono (fun r hr => hr) (fun e he => he.elim)).bind (fun st3 h3 => Sat.ok h3)
  | none =>
    -- a record is added
    dsimp only
    rw [ok_bind]
    dsimp only
    have hu1 := h1.inUse ha hlock1.1.2 hlock1.2
    have hdir1 : (dinodeAt sb st1.root.view (st1.inode a).inum).type = T_DIR := by
      rw [← h1.type_eq hlock1, htype, h.type_eq ⟨⟨ha, hr⟩, hv⟩, hdir]
    have hadd : Sat (addDirent sb devsw name inum (st1.inode a).inum
        (dinodeAt sb st1.root.view (st1.inode a).inum) st1.root)
        (fun r => True ∧ Kept sb (st1.inode a).inum st1.root.view r.2.1 r.2.2.view) Expected := by
      refine (addDirent_sat hl devsw name inum h1.image hu1 hdir1).mono
        (fun r hr => ⟨trivial, hr⟩) ?_
      rintro e (rfl | rfl | rfl) <;> exact expected_panic (by decide)
    exact (h1.onEntry hlock1 hadd).mono (fun r hr => hr.2.1) (fun e he => he)

end Sync

end Xv6Calls
