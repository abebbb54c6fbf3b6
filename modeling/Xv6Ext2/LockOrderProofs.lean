import Xv6Ext2.MkfsImageProofs
import Xv6Ext2.SysRefsProofs
import Mathlib.Logic.Relation

/-! # The order in which sys_unlink and create take sleep-locks (sysfile.c, mkfs.c)

    `sys_unlink` holds the lock of a directory when it takes the lock of the inode that an
    entry of the directory names.  It does not wait for itself, and processes do not wait
    for each other in a circle, if the entries other than `.` and `..` form no cycle.

    On the images of `mkfs` they do: the entry `mnt` of the root directory names the root directory.

    - `mkfs_lock_order` : the first process that removes `mnt` waits for itself. -/

namespace Kernel

open ByteBlock BufCache Param Outcome Runs FileIo DirName Xv6Alloc Xv6Inode Xv6Image SlotTable
  Icache Path Mkfs

/-- `namecmp(de.name, ".") == 0 || namecmp(de.name, "..") == 0`. -/
def dotRecord (de : Block) : Bool :=
  Xv6Dir.namecmpEq (Xv6Dir.deName de) (cstr DOT) ||
    Xv6Dir.namecmpEq (Xv6Dir.deName de) (cstr DOTDOT)

/-- An entry of directory `d` other than `.` and `..` names inode `i`. -/
def Edge (sb : Superblock) (v : Disk) (d i : Nat) : Prop :=
  (dinodeAt sb v d).type = T_DIR ∧ i ≠ 0 ∧
    ∃ n, Xv6Dir.DIRENT * (n + 1) ≤ (dinodeAt sb v d).size ∧
      Xv6Dir.deInum (Xv6Dir.record (dinodeAt sb v d) v n) = i ∧
      dotRecord (Xv6Dir.record (dinodeAt sb v d) v n) = false

/-- The two inodes whose locks `sys_unlink` holds together: the code of `sys_unlink` up to
    the second `ilock`. -/
def unlinkLocks (cfg : Config) (path : List UInt8) : Sys (Option (Inode × Inode)) := do
  match ← nameiparent cfg path with
  | none => return none
  | some (dp, name) => do
      ilock cfg dp
      if isDots name = true then return none
      else do
        match ← dirlookup cfg dp name with
        | none => return none
        | some (_, ip) => return some (← inode dp, ← inode ip)

/-- The entries form no cycle, and `sys_unlink` follows one of them from the first lock to
    the second, which is not the lock it holds. -/
structure Ordered (cfg : Config) (k : State) : Prop where
  acyclic : ∀ i, ¬Relation.TransGen (Edge cfg.sb k.cache.root.view) i i
  unlink  : ∀ path dp ip k', unlinkLocks cfg path k = .ok (some (dp, ip), k') →
    dp.dev = ROOTDEV → dp.inum ≠ ip.inum ∧ Edge cfg.sb k.cache.root.view dp.inum ip.inum ∧
      sysUnlink cfg (some path) k ≠ .error .deadlock

def callStep (cfg : Config) (k : State) (call : Syscall) : Except Err State := do
  let (_, k) ← call.run cfg k
  .ok k

/-- This holds in every state that calls lead to. -/
def LockOrder (cfg : Config) (k : State) : Prop :=
  ∀ calls k', Runs.exec (callStep cfg) calls k = .ok k' → Ordered cfg k'

/-! ## The root directory of an image -/

section Root

variable {v : Disk}

/-- The bytes of the records that `mkfs` writes first. -/
def headRecord (n : Nat) : Block := fun k =>
  if k < Xv6Dir.DIRENT then rootHead.getD (Xv6Dir.DIRENT * n + k) 0 else 0

lemma record_root (h : RootBlock v) {n : Nat} (hn : n < 3) :
    Xv6Dir.record (dinodeAt Mkfs.sb v ROOTINO) v n = headRecord n := by
  funext k
  rw [Xv6Dir.record, headRecord]
  by_cases hk : k < Xv6Dir.DIRENT
  · have hlt : Xv6Dir.DIRENT * n + k < 48 := by unfold Xv6Dir.DIRENT at *; omega
    rw [if_pos hk, if_pos hk, ← h.head _ (by rw [length_rootHead]; exact hlt), fileByte,
      Nat.div_eq_of_lt (by unfold BSIZE; omega), Nat.mod_eq_of_lt (by unfold BSIZE; omega)]
    rfl
  · rw [if_neg hk, if_neg hk]

/-- The record `mnt` of the root directory. -/
lemma root_edge (h : RootBlock v) : Edge Mkfs.sb v ROOTINO ROOTINO := by
  have hsize := h.size
  rw [length_rootHead] at hsize
  refine ⟨h.dir, by decide, 2, hsize, ?_, ?_⟩
  · rw [record_root h (by decide)]
    decide
  · rw [record_root h (by decide)]
    decide

/-- `dirlookup` of `mnt` in the root directory stops at the third record. -/
lemma dirSearch_mnt (cfg : Config) (h : RootBlock v) {s : Bcache} (hs : s.view = v) :
    ∃ s', s'.view = v ∧
      Xv6Dir.dirSearch cfg.sb cfg.devsw Mkfs.MNT (dinodeAt Mkfs.sb v ROOTINO) s =
        .ok ((Xv6Dir.DIRENT * 2, some (headRecord 2)), dinodeAt Mkfs.sb v ROOTINO, s') := by
  have hsize := h.size
  rw [length_rootHead] at hsize
  have hdev : (dinodeAt Mkfs.sb v ROOTINO).type ≠ T_DEV := by rw [h.dir]; decide
  have hend : Xv6Dir.DIRENT * 3 ≤ (dinodeAt Mkfs.sb v ROOTINO).size := hsize
  have hblocks : ∀ bn, bn * BSIZE < Xv6Dir.DIRENT * 3 →
      blockAt (dinodeAt Mkfs.sb v ROOTINO) v bn ≠ 0 := by
    intro bn hbn
    obtain rfl : bn = 0 := by unfold BSIZE Xv6Dir.DIRENT at hbn; omega
    exact h.addr
  obtain ⟨s', hview, hscan⟩ := Xv6Dir.scanFrom_held cfg.sb cfg.devsw "dirlookup read"
    (Xv6Dir.named Mkfs.MNT) hdev (dinodeAt_canonical Mkfs.sb v ROOTINO).size hend hblocks
    (dinodeAt Mkfs.sb v ROOTINO).size 0 s hs (Nat.zero_le _) (by omega)
  have hrecords : (List.range' 0 (3 - 0)).map (Xv6Dir.record (dinodeAt Mkfs.sb v ROOTINO) v) =
        [headRecord 0, headRecord 1, headRecord 2] := by
    rw [← record_root h (show 0 < 3 by decide), ← record_root h (show 1 < 3 by decide),
      ← record_root h (show 2 < 3 by decide)]
    rfl
  have h0 : Xv6Dir.named Mkfs.MNT (headRecord 0) = false := by decide
  have h1 : Xv6Dir.named Mkfs.MNT (headRecord 1) = false := by decide
  have h2 : Xv6Dir.named Mkfs.MNT (headRecord 2) = true := by decide
  rw [hrecords, List.find?_cons_of_neg (by rw [h0]; exact Bool.false_ne_true),
    List.find?_cons_of_neg (by rw [h1]; exact Bool.false_ne_true), List.find?_cons_of_pos h2,
    List.findIdx_cons, List.findIdx_cons, List.findIdx_cons, h0, h1, h2] at hscan
  refine ⟨s', hview, ?_⟩
  rwa [Xv6Dir.dirSearch, if_neg (not_not.mpr h.dir)]

end Root

/-! ## Removing mnt -/

/-- Entry 0 is that of the root directory, on a device with the contents `v`. -/
structure AtRoot (v : Disk) (held : Bool) (k : State) : Prop where
  view   : k.cache.root.view = v
  is     : (k.cache.inode 0).is ROOTDEV ROOTINO = true
  iops   : (k.cache.inode 0).iops = some .xv6fs
  addrs  : (k.cache.inode 0).addrs = some (.xv6fs 0)
  loaded : (k.cache.inode 0).valid = true →
    (k.cache.inode 0).copy (k.cache.xv6fsAddrs 0).addrs = dinodeAt Mkfs.sb v ROOTINO
  lock   : k.locked 0 = held
  cwd    : (k.proc k.cur).cwd = 0

lemma AtRoot.ref {v : Disk} {held : Bool} {k : State} (h : AtRoot v held k) :
    0 < (k.cache.inode 0).ref ∧ (k.cache.inode 0).dev = ROOTDEV ∧
      (k.cache.inode 0).inum = ROOTINO := of_decide_eq_true h.is

lemma firstState_atRoot (root ext2 : Bcache) : AtRoot root.view false (firstState root ext2) :=
  ⟨rfl, rfl, rfl, rfl, fun h => (nomatch h), rfl, rfl⟩

section Unlink

variable (cfg : Config) {v : Disk} {held : Bool} {k : State}

/-- A reference more. -/
lemma AtRoot.addRef (h : AtRoot v held k) :
    AtRoot v held { k with cache := Icache.idup 0 k.cache } :=
  ⟨h.view, decide_eq_true ⟨Nat.succ_pos _, h.ref.2⟩, h.iops, h.addrs, h.loaded, h.lock, h.cwd⟩

lemma ilock_atRoot (h : AtRoot v false k) (hroot : RootBlock v) (hsb : cfg.sb = Mkfs.sb) :
    ∃ k', ilock cfg 0 k = .ok ((), k') ∧ AtRoot v true k' ∧ (k'.cache.inode 0).valid = true := by
  obtain ⟨href, hdev, hinum⟩ := h.ref
  have hlock : acquiresleep 0 k = .ok ((), { k with locked := Function.update k.locked 0 true }) := by
    rw [acquiresleep, h.lock]
    rfl
  have hread : xv6fsIread cfg.sb (k.cache.inode 0).inum k.cache.root =
      .ok (dinodeAt Mkfs.sb v ROOTINO, k.cache.root.touch (IBLOCK ROOTINO Mkfs.sb)) := by
    rw [hinum, hsb, ← h.view]
    rfl
  have htype : (dinodeAt Mkfs.sb v ROOTINO).type ≠ 0 := by rw [hroot.dir]; decide
  have hcache : ∃ st, Icache.ilock cfg.sb cfg.esb 0 k.cache = .ok st ∧
      AtRoot v true { k with cache := st, locked := Function.update k.locked 0 true } ∧
      (st.inode 0).valid = true := by
    rw [Icache.ilock, h.iops]
    dsimp only
    rw [xv6fsIlock, ilockWith]
    dsimp only
    rw [if_neg (by omega)]
    by_cases hvalid : (k.cache.inode 0).valid = true
    · rw [if_pos hvalid]
      exact ⟨_, rfl, ⟨h.view, h.is, h.iops, h.addrs, h.loaded, rfl, h.cwd⟩, hvalid⟩
    rw [if_neg hvalid, h.addrs]
    dsimp only
    rw [Cache.device, hread, ok_bind]
    dsimp only
    rw [if_neg htype]
    exact ⟨_, rfl, ⟨by rw [← h.view]; exact touch_view _ _, h.is, rfl, h.addrs, fun _ => rfl,
      rfl, h.cwd⟩, rfl⟩
  obtain ⟨st, hst, hat, hvalid⟩ := hcache
  refine ⟨_, ?_, hat, hvalid⟩
  rw [ilock, bind_eq_of_ok (iops_eq h.iops), inode_bind, if_neg (by omega),
    bind_eq_of_ok hlock, onCache, hst]
  rfl

lemma iunlock_atRoot (h : AtRoot v true k) :
    ∃ k', iunlock 0 k = .ok ((), k') ∧ AtRoot v false k' := by
  have hheld : holdingsleep 0 k = .ok (true, k) := by rw [holdingsleep, h.lock]
  refine ⟨{ k with locked := Function.update k.locked 0 false }, ?_, h.view, h.is, h.iops, h.addrs,
    h.loaded, rfl, h.cwd⟩
  have href := h.ref.1
  rw [iunlock, bind_eq_of_ok (iops_eq h.iops), bind_eq_of_ok hheld, inode_bind,
    if_neg (by simp; omega)]
  rfl

lemma nameiparent_mnt (h : AtRoot v false k) (hroot : RootBlock v) (hsb : cfg.sb = Mkfs.sb) :
    ∃ k', nameiparent cfg Mkfs.MNT k = .ok (some (0, Mkfs.MNT), k') ∧ AtRoot v false k' := by
  have h1 := h.addRef
  obtain ⟨k2, hlock, h2, hvalid⟩ := ilock_atRoot cfg h1 hroot hsb
  obtain ⟨k3, hunlock, h3⟩ := iunlock_atRoot h2
  refine ⟨k3, ?_, h3⟩
  have hcwd : Kernel.cwd k = .ok (0, k) := by rw [Kernel.cwd, h.cwd]
  have hdup : idup 0 k = .ok (0, { k with cache := Icache.idup 0 k.cache }) := rfl
  have hstart : namexStart Mkfs.MNT k =
      .ok ((0, Mkfs.MNT), { k with cache := Icache.idup 0 k.cache }) := by
    rw [namexStart, if_neg (by decide), if_neg (by decide), bind_eq_of_ok hcwd, bind_eq_of_ok hdup]
    rfl
  have htype : (k2.cache.inode 0).type = T_DIR :=
    (congrArg Dinode.type (h2.loaded hvalid)).trans hroot.dir
  rw [Kernel.nameiparent, namex, bind_eq_of_ok hstart]
  dsimp only
  rw [show Mkfs.MNT.length + 1 = 3 + 1 from rfl, namexFrom, inode_bind,
    show skipelem Mkfs.MNT = some (Mkfs.MNT, []) by decide]
  dsimp only
  rw [h1.ref.2.1, if_neg (by decide), bind_eq_of_ok hlock, inode_bind, if_neg (not_not.mpr htype),
    if_pos ⟨rfl, rfl⟩, bind_eq_of_ok hunlock]
  rfl

lemma dirlookup_mnt (h : AtRoot v held k) (hvalid : (k.cache.inode 0).valid = true)
    (hroot : RootBlock v) :
    ∃ k', dirlookup cfg 0 Mkfs.MNT k = .ok (some (Xv6Dir.DIRENT * 2, 0), k') ∧
      AtRoot v held k' := by
  obtain ⟨s, hs, hsearch⟩ := dirSearch_mnt cfg hroot h.view
  have hcopy := h.loaded hvalid
  obtain ⟨st, hst⟩ : ∃ st, st = ((k.cache.setDevice .xv6fs s).setSlot (.xv6fs 0)
    { k.cache.slot (.xv6fs 0) with addrs := (dinodeAt Mkfs.sb v ROOTINO).addrs }).setInode 0
      ((k.cache.inode 0).load (dinodeAt Mkfs.sb v ROOTINO)) := ⟨_, rfl⟩
  have h1 : AtRoot v held { k with cache := st } := by
    rw [hst]
    exact ⟨hs, h.is, h.iops, h.addrs, fun _ => rfl, h.lock, h.cwd⟩
  have hdispatch : dispatch 0 (searchOf cfg Mkfs.MNT) k =
      .ok (some (Xv6Dir.DIRENT * 2, ROOTINO), { k with cache := st }) := by
    rw [hst]
    refine dispatch_eq h.iops h.addrs ?_
    rw [show k.cache.slot (.xv6fs 0) = k.cache.xv6fsAddrs 0 from rfl, hcopy, searchOf,
      show k.cache.device .xv6fs = k.cache.root from rfl, hsearch, ok_bind]
    rfl
  have higet : iget ROOTDEV ROOTINO { k with cache := st } =
      .ok (0, { k with cache := Icache.idup 0 st }) := by
    rw [iget, onCache, Icache.iget, show NINODE = 49 + 1 from rfl, firstFrom, if_pos h1.is]
    rfl
  refine ⟨_, ?_, h1.addRef⟩
  rw [Kernel.dirlookup, bind_eq_of_ok hdispatch]
  dsimp only
  rw [inode_bind, h1.ref.2.1, bind_eq_of_ok higet]
  rfl

/-- Removing `mnt`, the process waits for the lock that it holds. -/
lemma unlink_mnt (h : AtRoot v false k) (hroot : RootBlock v) (hsb : cfg.sb = Mkfs.sb) :
    sysUnlink cfg (some Mkfs.MNT) k = .error .deadlock := by
  have hbegin : beginOp k = .ok ((), { k with begun := k.begun + 1 }) := rfl
  have h0 : AtRoot v false { k with begun := k.begun + 1 } :=
    ⟨h.view, h.is, h.iops, h.addrs, h.loaded, h.lock, h.cwd⟩
  obtain ⟨k1, hparent, h1⟩ := nameiparent_mnt cfg h0 hroot hsb
  obtain ⟨k2, hlock, h2, hvalid⟩ := ilock_atRoot cfg h1 hroot hsb
  obtain ⟨k3, hlookup, h3⟩ := dirlookup_mnt cfg h2 hvalid hroot
  have href := h3.ref.1
  have hwait : ilock cfg 0 k3 = .error .deadlock := by
    rw [ilock, bind_eq_of_ok (iops_eq h3.iops), inode_bind, if_neg (by omega)]
    show (acquiresleep 0 k3 >>= _) = _
    rw [acquiresleep, if_pos h3.lock]
    rfl
  rw [sysUnlink, bind_eq_of_ok hbegin, bind_eq_of_ok hparent]
  dsimp only
  rw [unlinkEntry, bind_eq_of_ok hlock, if_neg (by decide), bind_eq_of_ok hlookup]
  dsimp only
  show (ilock cfg 0 k3 >>= _) = _
  rw [hwait]
  rfl

end Unlink

/-- **Main result.**  On no image of `mkfs` are the locks ordered: in the first state the
    root directory has an entry that names itself, and removing it never returns. -/
theorem mkfs_lock_order (cfg : Config) (ext2 : Bcache) (files : List HostFile) (g : Img)
    (hsb : cfg.sb = Mkfs.sb) (hfiles : files.length + 1 < NINODES)
    (hmain : Mkfs.main files = .ok g) : ¬LockOrder cfg (firstState g.device ext2) ∧
      sysUnlink cfg (some Mkfs.MNT) (firstState g.device ext2) = .error .deadlock := by
  have hroot : RootBlock g.device.view := main_root hfiles hmain
  refine ⟨fun h => ?_, unlink_mnt cfg (firstState_atRoot _ _) hroot hsb⟩
  refine (h [] _ rfl).acyclic ROOTINO (.single ?_)
  rw [hsb]
  exact root_edge hroot

theorem mkfs_lock_order_empty : ∃ g, Mkfs.main [] = .ok g ∧
    ¬LockOrder rootConfig (firstState g.device blankDevice) := by
  obtain ⟨g, hmain⟩ := main_empty
  exact ⟨g, hmain, (mkfs_lock_order rootConfig blankDevice [] g rfl (by decide) hmain).1⟩

/-- The image without host files. -/
theorem root_waits_for_itself : ∃ g, Mkfs.main [] = .ok g ∧
    Edge rootConfig.sb g.sect ROOTINO ROOTINO ∧
    sysUnlink rootConfig (some Mkfs.MNT) (firstState g.device blankDevice) = .error .deadlock := by
  obtain ⟨g, hmain⟩ := main_empty
  have hroot : RootBlock g.device.view := main_root (by decide) hmain
  exact ⟨g, hmain, root_edge hroot, unlink_mnt rootConfig (firstState_atRoot _ _) hroot rfl⟩

end Kernel
