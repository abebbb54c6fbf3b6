import Xv6Ext2.Ext2DirProofs

/-! # Calls that leave nothing in memory only

    A block of a file is stored when all pointers on its way exist; `ext2fs_bmap` then follows them
    and changes nothing.  `WriteSafe` is the condition on a write: a block without pointers is a
    direct one of a file that grows, so that the new pointer is in the inode and the inode is
    updated, and nothing that the write can store to is metadata or an indirect block that it needs.

    - `readi_quiet` : reading stored blocks changes neither contents nor the inode;
    - `writeLoop_inv` : the loop of a safe write, by induction over its turns;
    - `freeDirent_quiet`, `dirlookupFrom_quiet` : the loops over a stored directory. -/

namespace Ext2Stored

open ByteBlock BufCache Outcome FileIo DirName Ext2Alloc Ext2Bmap Ext2Inode Ext2Dir

open Function (update update_of_ne update_self)

/-- What a `bread` would see is what the device holds. -/
def Clean (s : Bcache) : Prop := s.view = s.disk

/-- Only buffers were filled. -/
def Quiet (s s' : Bcache) : Prop := s'.view = s.view ∧ s'.disk = s.disk

lemma Quiet.refl (s : Bcache) : Quiet s s := ⟨rfl, rfl⟩

variable {s : Bcache}

lemma Quiet.trans {t u : Bcache} (h : Quiet s t) (h' : Quiet t u) : Quiet s u :=
  ⟨h'.1.trans h.1, h'.2.trans h.2⟩

lemma Quiet.touch (s : Bcache) (b : Nat) : Quiet s (s.touch b) := ⟨touch_view s b, touch_disk s b⟩

variable {s' : Bcache}

variable {held : List Nat} {b : Nat} {d : Block}

lemma Quiet.bread (h : bread held b s = .ok (d, s')) : Quiet s s' := by
  obtain ⟨-, -, rfl⟩ := bread_ok h
  exact Quiet.touch s b

lemma Quiet.clean (h : Quiet s s') (hc : Clean s) : Clean s' := by
  rwa [Clean, h.1, h.2]

lemma Clean.bwrite (h : Clean s) (b : Nat) (d : Block) : Clean (bwrite b d s) := by
  rw [Clean, bwrite_view, bwrite_disk, show s.view = s.disk from h]

/-! ## The pointers of a block -/

/-- The index blocks from block `blk` on. -/
def innerOf (v : Disk) : Nat → List Nat → List Nat
  | _, [] => []
  | blk, i :: is => blk :: innerOf v (getLE (v blk) 4 (4 * i)) is

def leafOf (v : Disk) : Nat → List Nat → Nat
  | blk, [] => blk
  | blk, i :: is => leafOf v (getLE (v blk) 4 (4 * i)) is

/-- The index blocks of block `bn` of a file. -/
def bmapInner (addrs : Nat → Nat) (v : Disk) (bn : Nat) : List Nat :=
  match bmapPath bn with
  | some (root, is) => innerOf v (addrs root) is
  | none => []

/-- The disk block of block `bn` of a file, as the pointers stand. -/
def bmapLeaf (addrs : Nat → Nat) (v : Disk) (bn : Nat) : Nat :=
  match bmapPath bn with
  | some (root, is) => leafOf v (addrs root) is
  | none => 0

/-- No pointer of block `bn` is null. -/
def Stored (addrs : Nat → Nat) (v : Disk) (bn : Nat) : Prop :=
  bmapLeaf addrs v bn ≠ 0 ∧ ∀ b ∈ bmapInner addrs v bn, b ≠ 0

instance (addrs : Nat → Nat) (v : Disk) (bn : Nat) : Decidable (Stored addrs v bn) :=
  inferInstanceAs (Decidable (_ ∧ _))

variable {v : Disk} {is : List Nat}

/-- The pointers below `blk` depend on the index blocks only. -/
lemma innerOf_leafOf_congr {v' : Disk} : ∀ blk, (∀ b ∈ innerOf v blk is, v' b = v b) →
      innerOf v' blk is = innerOf v blk is ∧ leafOf v' blk is = leafOf v blk is := by
  induction is with
  | nil =>
    intro blk _
    exact ⟨rfl, rfl⟩
  | cons i is ih =>
    intro blk h
    have hblk : v' blk = v blk := h blk List.mem_cons_self
    obtain ⟨h1, h2⟩ := ih (getLE (v blk) 4 (4 * i)) (fun b hb => h b (List.mem_cons_of_mem _ hb))
    rw [innerOf, leafOf, hblk, h1, h2]
    exact ⟨rfl, rfl⟩

lemma root_ne_zero {blk : Nat} (hleaf : leafOf v blk is ≠ 0)
    (hin : ∀ b ∈ innerOf v blk is, b ≠ 0) : blk ≠ 0 := by
  cases is with
  | nil => exact hleaf
  | cons i is => exact hin blk List.mem_cons_self

variable {bn : Nat}

/-- The pointers of a stored block stay when its index blocks and the pointers of the
    inode that are not null stay. -/
lemma Stored.congr {addrs addrs' : Nat → Nat} {v' : Disk} (h : Stored addrs v bn)
    (ha : ∀ i, addrs i ≠ 0 → addrs' i = addrs i) (hv : ∀ b ∈ bmapInner addrs v bn, v' b = v b) :
    Stored addrs' v' bn ∧ bmapLeaf addrs' v' bn = bmapLeaf addrs v bn ∧
      bmapInner addrs' v' bn = bmapInner addrs v bn := by
  unfold Stored bmapLeaf bmapInner at *
  cases hp : bmapPath bn with
  | none =>
    rw [hp] at h
    exact absurd rfl h.1
  | some p =>
    obtain ⟨root, is⟩ := p
    rw [hp] at h hv
    dsimp only at h hv ⊢
    obtain ⟨h1, h2⟩ := innerOf_leafOf_congr (addrs root) hv
    rw [ha root (root_ne_zero h.1 h.2), h1, h2]
    exact ⟨h, rfl, rfl⟩

variable {sb : Ext2Super} {inum : Nat}

lemma wordSlot_stored {blk i addr : Nat} (hne : getLE (s.view blk) 4 (4 * i) ≠ 0)
    (h : wordSlot sb held inum blk i s = .ok (addr, s')) :
    addr = getLE (s.view blk) 4 (4 * i) ∧ Quiet s s' := by
  obtain ⟨⟨a, s1⟩, h1, h⟩ := bind_eq_ok.mp h
  obtain ⟨-, rfl, rfl⟩ := bread_ok h1
  dsimp only at h
  rw [if_neg hne] at h
  obtain ⟨rfl, rfl⟩ := ok_pair_inj h
  exact ⟨rfl, Quiet.touch s blk⟩

lemma followWords_stored :
    ∀ (held : List Nat) (blk addr : Nat) (s s' : Bcache), leafOf s.view blk is ≠ 0 →
      (∀ b ∈ innerOf s.view blk is, b ≠ 0) → followWords sb inum is held blk s = .ok (addr, s') →
      addr = leafOf s.view blk is ∧ Quiet s s' := by
  induction is with
  | nil =>
    intro held blk addr s s' _ _ h
    obtain ⟨rfl, rfl⟩ := ok_pair_inj h
    exact ⟨rfl, Quiet.refl s⟩
  | cons i is ih =>
    intro held blk addr s s' hleaf hin h
    have htail : ∀ b ∈ innerOf s.view (getLE (s.view blk) 4 (4 * i)) is, b ≠ 0 :=
      fun b hb => hin b (List.mem_cons_of_mem _ hb)
    obtain ⟨⟨b, s1⟩, h1, h⟩ := bind_eq_ok.mp h
    obtain ⟨rfl, hq⟩ := wordSlot_stored (root_ne_zero hleaf htail) h1
    obtain ⟨rfl, hq'⟩ := ih _ _ addr s1 s' (by rw [hq.1]; exact hleaf) (by rw [hq.1]; exact htail) h
    refine ⟨?_, hq.trans hq'⟩
    rw [hq.1]
    rfl

variable {ip' : Dinode}

variable {ip : Dinode}

lemma inodeBmap_stored (hst : Stored ip.addrs s.view bn)
    (h : inodeBmap sb inum ip bn s = .ok (b, ip', s')) :
    b = bmapLeaf ip.addrs s.view bn ∧ ip' = ip ∧ Quiet s s' := by
  obtain ⟨⟨addr, addrs, s1⟩, h1, h⟩ := bind_eq_ok.mp h
  obtain ⟨rfl, rfl, rfl⟩ := ok_triple_inj h
  rw [ext2fsBmap_eq_followPath] at h1
  unfold Stored bmapLeaf bmapInner at *
  cases hp : bmapPath bn with
  | none =>
    rw [hp] at hst
    exact absurd rfl hst.1
  | some p =>
    obtain ⟨root, is⟩ := p
    rw [hp] at h1 hst
    obtain ⟨⟨blk, addrs1, s2⟩, h2, h1⟩ := bind_eq_ok.mp h1
    -- the pointer of the inode is there
    rw [inodeSlot, if_neg (root_ne_zero hst.1 hst.2)] at h2
    obtain ⟨rfl, rfl, rfl⟩ := ok_triple_inj h2
    obtain ⟨⟨leaf, s3⟩, h3, h1⟩ := bind_eq_ok.mp h1
    obtain ⟨rfl, hq⟩ := followWords_stored _ _ _ _ _ hst.1 hst.2 h3
    obtain ⟨rfl, rfl, rfl⟩ := ok_triple_inj h1
    exact ⟨rfl, rfl, hq⟩

/-! ## Reading -/

/-- The blocks of the bytes `lo .. hi` of a file. -/
def InRange (lo hi bn : Nat) : Prop := lo / BSIZE ≤ bn ∧ bn * BSIZE < hi

lemma InRange.first {lo hi : Nat} (h : lo < hi) : InRange lo hi (lo / BSIZE) :=
  ⟨le_rfl, Nat.lt_of_le_of_lt (Nat.div_mul_le_self lo BSIZE) h⟩

lemma InRange.mono {lo lo' hi hi' : Nat} (h : InRange lo hi bn) (hlo : lo' ≤ lo)
    (hhi : hi ≤ hi') : InRange lo' hi' bn :=
  ⟨Nat.le_trans (Nat.div_le_div_right hlo) h.1, Nat.lt_of_lt_of_le h.2 hhi⟩

lemma readLoop_quiet (fuel : Nat) :
    ∀ (ip ip' : Dinode) (off r : Nat) (bytes : List UInt8) (s s' : Bcache),
      (∀ bn, InRange off (off + r) bn → Stored ip.addrs s.view bn) →
      readLoop (inodeBmap sb inum) fuel ip off r s = .ok (bytes, ip', s') →
      ip' = ip ∧ Quiet s s' := by
  induction fuel with
  | zero =>
    intro ip ip' off r bytes s s' _ h
    obtain ⟨-, rfl, rfl⟩ := ok_triple_inj h
    exact ⟨rfl, Quiet.refl s⟩
  | succ fuel ih =>
    intro ip ip' off r bytes s s' hst h
    rw [readLoop] at h
    split at h
    · obtain ⟨-, rfl, rfl⟩ := ok_triple_inj h
      exact ⟨rfl, Quiet.refl s⟩
    obtain ⟨⟨b, ip1, s1⟩, h1, hrest⟩ := bind_eq_ok.mp h
    obtain ⟨-, rfl, hq1⟩ := inodeBmap_stored (hst _ (InRange.first (by omega))) h1
    obtain ⟨⟨d, s2⟩, h2, hrest2⟩ := bind_eq_ok.mp hrest
    have hq2 := hq1.trans (Quiet.bread h2)
    obtain ⟨⟨rest, ip3, s3⟩, h3, hrest3⟩ := bind_eq_ok.mp hrest2
    obtain ⟨-, rfl, rfl⟩ := ok_triple_inj hrest3
    obtain ⟨rfl, hq3⟩ := ih _ _ _ _ _ _ _ (fun bn hbn => by
      rw [hq2.1]
      exact hst bn (hbn.mono (by omega) (by omega))) h3
    exact ⟨rfl, hq2.trans hq3⟩

variable {off n : Nat} {devsw : Nat → Devsw}

/-- Reading stored blocks changes neither the contents nor the inode. -/
lemma readi_quiet {r : Int × List UInt8} (hoff32 : off < 2 ^ 32) (hn32 : n < 2 ^ 32)
    (hst : ∀ bn, InRange off (min (off + n) ip.size) bn → Stored ip.addrs s.view bn)
    (h : ext2fsReadi sb inum devsw ip off n s = .ok (r, ip', s')) : ip' = ip ∧ Quiet s s' := by
  rw [ext2fsReadi, readi] at h
  split at h
  · split at h
    · obtain ⟨-, rfl, rfl⟩ := ok_triple_inj h
      exact ⟨rfl, Quiet.refl s⟩
    split at h
    · obtain ⟨-, rfl, rfl⟩ := ok_triple_inj h
      exact ⟨rfl, Quiet.refl s⟩
    · obtain ⟨-, rfl, rfl⟩ := ok_triple_inj h
      exact ⟨rfl, Quiet.refl s⟩
  split at h
  · obtain ⟨-, rfl, rfl⟩ := ok_triple_inj h
    exact ⟨rfl, Quiet.refl s⟩
  obtain ⟨⟨bytes, ip1, s1⟩, h1, h⟩ := bind_eq_ok.mp h
  obtain ⟨-, rfl, rfl⟩ := ok_triple_inj h
  refine readLoop_quiet _ _ _ _ _ _ _ _ (fun bn hbn => hst bn (hbn.mono le_rfl ?_)) h1
  have hfit : (off + n) % 2 ^ 32 = off + n := by omega
  rw [hfit]
  split <;> omega

lemma readi_full {bmap : Bmap}
    {bytes : List UInt8} (hdev : ip.type ≠ T_DEV) (hoff : off < 2 ^ 32) (hn : n < 2 ^ 31)
    (h : readi bmap devsw ip off n s = .ok ((n, bytes), ip', s')) : off + n ≤ ip.size := by
  rw [readi, if_neg hdev] at h
  split at h
  · obtain ⟨hr, -⟩ := ok_triple_inj h
    have : (-1 : Int) = n := (Prod.mk.inj hr).1
    omega
  obtain ⟨⟨bytes', ip1, s1⟩, -, h⟩ := bind_eq_ok.mp h
  obtain ⟨hr, -⟩ := ok_triple_inj h
  have hlen := (Prod.mk.inj hr).1
  by_cases hcut : ip.size < (off + n) % 2 ^ 32
  · rw [if_pos hcut, asInt, if_pos (by omega)] at hlen
    omega
  · omega

/-! ## The loops over a directory -/

section Directory

variable {sb : Ext2Super} {dnum : Nat} {devsw : Nat → Devsw} {ip : Dinode}

lemma readDirent_quiet {msg : String} {off : Nat} {de de' : Block}
    (hoff : off < 2 ^ 32) (hst : ∀ bn, InRange 0 ip.size bn → Stored ip.addrs s.view bn)
    (h : readDirent (ext2fsReadi sb dnum devsw) msg ip off de s = .ok (de', ip', s')) :
    ip' = ip ∧ Quiet s s' ∧ (ip.type ≠ T_DEV → off + DIRENT ≤ ip.size) := by
  obtain ⟨⟨⟨r, bytes⟩, ip1, s1⟩, h1, h⟩ := bind_eq_ok.mp h
  dsimp only at h
  split at h
  · exact nomatch h
  · next hr =>
    obtain ⟨-, rfl, rfl⟩ := ok_triple_inj h
    rw [not_not] at hr
    subst hr
    obtain ⟨rfl, hq⟩ := readi_quiet hoff (by decide)
      (fun bn hbn => hst bn (hbn.mono (Nat.zero_le _) (Nat.min_le_right _ _))) h1
    exact ⟨rfl, hq, fun hdev => readi_full hdev hoff (by decide) h1⟩

lemma dirlookupFrom_quiet {name : List UInt8} (hsize : ip.size < 2 ^ 32) (fuel : Nat) :
    ∀ (off : Nat) (found : Option (Nat × Nat)) (ip' : Dinode) (s s' : Bcache),
      (∀ bn, InRange 0 ip.size bn → Stored ip.addrs s.view bn) →
      dirlookupFrom (ext2fsReadi sb dnum devsw) name fuel off ip s = .ok (found, ip', s') →
      ip' = ip ∧ Quiet s s' := by
  induction fuel with
  | zero =>
    intro off found ip' s s' _ h
    exact nomatch h
  | succ fuel ih =>
    intro off found ip' s s' hst h
    rw [dirlookupFrom] at h
    split at h
    · obtain ⟨⟨de, ip1, s1⟩, h1, hrest⟩ := bind_eq_ok.mp h
      obtain ⟨rfl, hq, -⟩ := readDirent_quiet (by omega) hst h1
      dsimp only at hrest
      split at hrest
      · obtain ⟨-, rfl, rfl⟩ := ok_triple_inj hrest
        exact ⟨rfl, hq⟩
      · obtain ⟨rfl, hq'⟩ := ih _ _ _ _ _ (by rw [hq.1]; exact hst) hrest
        exact ⟨rfl, hq.trans hq'⟩
    · obtain ⟨-, rfl, rfl⟩ := ok_triple_inj h
      exact ⟨rfl, Quiet.refl s⟩

lemma freeDirent_quiet (hdev : ip.type ≠ T_DEV) (hsize : ip.size < 2 ^ 32) (fuel : Nat) :
    ∀ (off off' : Nat) (de de' : Block) (ip' : Dinode) (s s' : Bcache),
      off ≤ ip.size → (∀ bn, InRange 0 ip.size bn → Stored ip.addrs s.view bn) →
      freeDirent (ext2fsReadi sb dnum devsw) fuel off de ip s = .ok (off', de', ip', s') →
      off' ≤ ip.size ∧ ip' = ip ∧ Quiet s s' := by
  induction fuel with
  | zero =>
    intro off off' de de' ip' s s' hle _ h
    obtain ⟨rfl, -, h⟩ := ok_triple_inj h
    obtain ⟨rfl, rfl⟩ := Prod.mk.inj h
    exact ⟨hle, rfl, Quiet.refl s⟩
  | succ fuel ih =>
    intro off off' de de' ip' s s' hle hst h
    rw [freeDirent] at h
    split at h
    · obtain ⟨⟨de1, ip1, s1⟩, h1, hrest⟩ := bind_eq_ok.mp h
      obtain ⟨rfl, hq, hin⟩ := readDirent_quiet (by omega) hst h1
      dsimp only at hrest
      split at hrest
      · obtain ⟨rfl, -, hret⟩ := ok_triple_inj hrest
        obtain ⟨rfl, rfl⟩ := Prod.mk.inj hret
        exact ⟨hle, rfl, hq⟩
      -- the record was read whole, so the next one starts inside the directory
      obtain ⟨hle', rfl, hq'⟩ := ih _ _ _ _ _ _ _ (hin hdev) (by rw [hq.1]; exact hst) hrest
      exact ⟨hle', rfl, hq.trans hq'⟩
    · obtain ⟨rfl, -, h⟩ := ok_triple_inj h
      obtain ⟨rfl, rfl⟩ := Prod.mk.inj h
      exact ⟨hle, rfl, Quiet.refl s⟩

end Directory

/-! ## Writing -/

/-- The block of the group descriptors, and the blocks of the inode tables. -/
def MetaBlock (sb : Ext2Super) (n : Nat) (v : Disk) (b : Nat) : Prop :=
  b = 2 ∨ ∃ i, 1 ≤ i ∧ i ≤ n ∧ b = (inodeHome sb (v 2) i).1

/-- A block that `ext2fs_balloc` may still hand out for inode `inum`. -/
def Fresh (sb : Ext2Super) (inum : Nat) (v : Disk) (b : Nat) : Prop :=
  ∃ f < scanLimit sb, scanBit (v (bitmapOf sb v inum)) f = false ∧
    b = (bitmapOf sb v inum + f) % 2 ^ 32

/-- The disk blocks to which a write to block `bn` may go. -/
def MayStore (sb : Ext2Super) (inum : Nat) (ip : Dinode) (v : Disk) (bn b : Nat) : Prop :=
  (Stored ip.addrs v bn ∧ b = bmapLeaf ip.addrs v bn) ∨
  (¬Stored ip.addrs v bn ∧ Fresh sb inum v b)

/-- What a write of the bytes `lo .. hi` relies on: the metadata and its index blocks. -/
def Kept (sb : Ext2Super) (n : Nat) (ip : Dinode) (v : Disk) (lo hi b : Nat) : Prop :=
  MetaBlock sb n v b ∨ ∃ bn, InRange lo hi bn ∧ b ∈ bmapInner ip.addrs v bn

/-- The condition on a write of the bytes `lo .. hi` of inode `inum`. -/
structure WriteSafe (sb : Ext2Super) (n inum : Nat) (ip : Dinode) (v : Disk) (lo hi : Nat) :
    Prop where
  /-- A missing block is a direct one, and the file grows. -/
  stored : ∀ bn, InRange lo hi bn →
    Stored ip.addrs v bn ∨ (ip.size < hi ∧ bn < EXT2_NDIR_BLOCKS)
  /-- The write does not go to a block it relies on. -/
  apart : ∀ bn b, InRange lo hi bn → MayStore sb inum ip v bn b → ¬Kept sb n ip v lo hi b
  /-- If a block is allocated, the bitmap is a block of its own. -/
  bitmap : ∀ bn, InRange lo hi bn → ¬Stored ip.addrs v bn →
    ¬Kept sb n ip v lo hi (bitmapOf sb v inum) ∧
    ∀ bn' b, InRange lo hi bn' → MayStore sb inum ip v bn' b → b ≠ bitmapOf sb v inum

/-- What holds between two turns of the loop of a write that started with `ip₀` and the
    contents `v₀`. -/
structure WriteInv (sb : Ext2Super) (n inum : Nat) (ip₀ : Dinode) (v₀ : Disk) (lo hi : Nat)
    (ip : Dinode) (s : Bcache) : Prop where
  clean  : Clean s
  kept   : ∀ b, Kept sb n ip₀ v₀ lo hi b → s.view b = v₀ b
  fields : { ip₀ with addrs := ip.addrs } = ip
  new    : ∀ i, ip.addrs i = ip₀.addrs i ∨
    (ip₀.size < hi ∧ i < EXT2_NDIR_BLOCKS ∧ ip₀.addrs i = 0 ∧ Fresh sb inum v₀ (ip.addrs i))
  bits   : ∀ bn, InRange lo hi bn → ¬Stored ip₀.addrs v₀ bn → ∀ f < scanLimit sb,
    scanBit (s.view (bitmapOf sb v₀ inum)) f = false →
    scanBit (v₀ (bitmapOf sb v₀ inum)) f = false

lemma stored_direct {addrs : Nat → Nat}
    (h : bn < EXT2_NDIR_BLOCKS) : Stored addrs v bn ↔ addrs bn ≠ 0 := by
  have hp : bmapPath bn = some (bn, []) := if_pos h
  unfold Stored bmapLeaf bmapInner
  rw [hp]
  exact ⟨fun hs => hs.1, fun hs => ⟨hs, fun b hb => nomatch hb⟩⟩

/-- Setting a bit makes no other bit clear, also in the memory after the block. -/
lemma scanBit_fill_setBit_clear {k g : Nat}
    (h : scanBit (fillBlock d (setBit d k)) g = false) : scanBit d g = false := by
  unfold scanBit at *
  by_cases hg : scanIdx g < 8 * BSIZE
  · rw [blockBit_fillBlock hg, blockBit_setBit, Bool.or_eq_false_iff] at h
    exact h.1
  · unfold blockBit at *
    rwa [fillBlock_out (by omega)] at h

section Write

variable {sb : Ext2Super} {n inum : Nat} {ip₀ : Dinode} {v₀ : Disk} {lo hi : Nat}

variable {s s' : Bcache}

variable {ip : Dinode}

lemma WriteInv.quiet (h : WriteInv sb n inum ip₀ v₀ lo hi ip s) (hq : Quiet s s') :
    WriteInv sb n inum ip₀ v₀ lo hi ip s' := by
  refine ⟨hq.clean h.clean, ?_, h.fields, h.new, ?_⟩
  · rw [hq.1]; exact h.kept
  · rw [hq.1]; exact h.bits

lemma WriteInv.canonical (h : WriteInv sb n inum ip₀ v₀ lo hi ip s) (hc : Canonical ip₀)
    {size : Nat} (hsize : size < 2 ^ 32) : Canonical { ip with size := size } := by
  rw [← h.fields]
  refine ⟨hc.type, hc.major, hc.minor, hc.nlink, hsize, fun i => ?_, fun i hi => ?_⟩
  · rcases h.new i with e | ⟨-, -, -, f, -, -, hb⟩
    · rw [e]; exact hc.addrs i
    · rw [hb]; exact Nat.mod_lt _ (by decide)
  · rcases h.new i with e | ⟨-, hlt, -, -⟩
    · rw [e]; exact hc.end_ i hi
    have : i < 12 := hlt
    have : 15 ≤ i := hi
    omega

lemma WriteInv.same
    (h : WriteInv sb n inum ip₀ v₀ lo hi ip s) (hsize : hi ≤ ip₀.size) : ip = ip₀ := by
  have haddrs : ip.addrs = ip₀.addrs := by
    funext i
    exact (h.new i).resolve_right (fun hx => by omega)
  rw [← h.fields, haddrs]

variable (hw : WriteSafe sb n inum ip₀ v₀ lo hi)
include hw

variable {bn b : Nat}

lemma WriteInv.bwrite (h : WriteInv sb n inum ip₀ v₀ lo hi ip s)
    (hbn : InRange lo hi bn) (hb : MayStore sb inum ip₀ v₀ bn b) (d : Block) :
    WriteInv sb n inum ip₀ v₀ lo hi ip (bwrite b d s) := by
  refine ⟨h.clean.bwrite b d, fun c hc => ?_, h.fields, h.new, fun bn' hbn' hno f hf hclear => ?_⟩
  · have hne : c ≠ b := fun e => hw.apart bn b hbn hb (e ▸ hc)
    rw [bwrite_view, update_of_ne hne]
    exact h.kept c hc
  · have hne : bitmapOf sb v₀ inum ≠ b := Ne.symm ((hw.bitmap bn' hbn' hno).2 bn b hbn hb)
    rw [bwrite_view, update_of_ne hne] at hclear
    exact h.bits bn' hbn' hno f hf hclear

lemma WriteInv.balloc (h : WriteInv sb n inum ip₀ v₀ lo hi ip s) (hbn : InRange lo hi bn)
    (hno : ¬Stored ip₀.addrs v₀ bn) (hr : ext2fsBalloc sb [] inum s = .ok (b, s')) :
    WriteInv sb n inum ip₀ v₀ lo hi ip s' ∧ Fresh sb inum v₀ b := by
  have hdesc : s.view 2 = v₀ 2 := h.kept 2 (.inl (.inl rfl))
  have hbb : bitmapOf sb s.view inum = bitmapOf sb v₀ inum := by
    unfold bitmapOf
    rw [hdesc]
  obtain ⟨-, -, -, f, hf, hlim, hb, hne, -, hs'⟩ := ext2fsBalloc_ok hr
  rw [hbb] at hf hb hne hs'
  have hfresh : Fresh sb inum v₀ b := ⟨f, hlim, h.bits bn hbn hno f hlim hf.clear, hb⟩
  have hview : s'.view = update (update s.view (bitmapOf sb v₀ inum)
      (fillBlock (s.view (bitmapOf sb v₀ inum))
        (setBit (s.view (bitmapOf sb v₀ inum)) (scanIdx f)))) b
      (fillBlock (s.view b) (fun _ => 0)) := by
    rw [hs', allocated_view s _ hne]
  refine ⟨⟨?_, fun c hc => ?_, h.fields, h.new, fun bn' hbn' hno' g hg hclear => ?_⟩, hfresh⟩
  · rw [hs', allocated]
    refine Clean.bwrite ((Quiet.touch _ b).clean (Clean.bwrite ?_ _ _)) _ _
    exact ((Quiet.touch s 2).trans (Quiet.touch _ _)).clean h.clean
  · have h1 : c ≠ b := fun e => hw.apart bn b hbn (.inr ⟨hno, hfresh⟩) (e ▸ hc)
    have h2 : c ≠ bitmapOf sb v₀ inum := fun e => (hw.bitmap bn hbn hno).1 (e ▸ hc)
    rw [hview, update_of_ne h1, update_of_ne h2]
    exact h.kept c hc
  · rw [hview, update_of_ne hne.symm, update_self] at hclear
    exact h.bits bn' hbn' hno' g hg (scanBit_fill_setBit_clear hclear)

lemma WriteInv.bmap (h : WriteInv sb n inum ip₀ v₀ lo hi ip s)
    (hbn : InRange lo hi bn) (hr : inodeBmap sb inum ip bn s = .ok (b, ip', s')) :
    WriteInv sb n inum ip₀ v₀ lo hi ip' s' ∧ MayStore sb inum ip₀ v₀ bn b := by
  by_cases hst : Stored ip₀.addrs v₀ bn
  · -- the pointers are the ones that were there before the write
    obtain ⟨hst', hleaf, -⟩ := hst.congr
      (fun i hi => (h.new i).resolve_right (fun hx => hi hx.2.2.1))
      (fun b hb => h.kept b (.inr ⟨bn, hbn, hb⟩))
    obtain ⟨rfl, rfl, hq⟩ := inodeBmap_stored hst' hr
    exact ⟨h.quiet hq, .inl ⟨hst, hleaf⟩⟩
  obtain ⟨hgrow, hdir⟩ := (hw.stored bn hbn).resolve_left hst
  have hnull : ip₀.addrs bn = 0 := by
    by_contra h0
    exact hst ((stored_direct hdir).mpr h0)
  obtain ⟨⟨addr, addrs, s1⟩, h1, hret⟩ := bind_eq_ok.mp hr
  obtain ⟨rfl, rfl, rfl⟩ := ok_triple_inj hret
  rw [ext2fsBmap, if_pos hdir, inodeSlot] at h1
  split at h1
  · obtain ⟨⟨a, s2⟩, h2, h3⟩ := bind_eq_ok.mp h1
    obtain ⟨rfl, rfl, rfl⟩ := ok_triple_inj h3
    obtain ⟨hinv, hfresh⟩ := h.balloc hw hbn hst h2
    refine ⟨⟨hinv.clean, hinv.kept, ?_, fun i => ?_, hinv.bits⟩, .inr ⟨hst, hfresh⟩⟩
    · rw [← h.fields]
    · dsimp only
      by_cases hi : i = bn
      · rw [hi, update_self]
        exact .inr ⟨hgrow, hdir, hnull, hfresh⟩
      · rw [update_of_ne hi]
        exact h.new i
  · next h0 =>
    obtain ⟨rfl, rfl, rfl⟩ := ok_triple_inj h1
    -- allocated by an earlier turn
    have hfresh := ((h.new bn).resolve_left (fun e => h0 (e.trans hnull))).2.2.2
    exact ⟨h, .inr ⟨hst, hfresh⟩⟩

lemma writeLoop_inv (fuel : Nat) :
    ∀ (ip ip' : Dinode) (src : Nat → UInt8) (off r : Nat) (s s' : Bcache),
      lo ≤ off → off + r ≤ hi → WriteInv sb n inum ip₀ v₀ lo hi ip s →
      writeLoop (inodeBmap sb inum) bwrite fuel ip src off r s = .ok (ip', s') →
      WriteInv sb n inum ip₀ v₀ lo hi ip' s' := by
  induction fuel with
  | zero =>
    intro ip ip' src off r s s' _ _ h hr
    obtain ⟨rfl, rfl⟩ := ok_pair_inj hr
    exact h
  | succ fuel ih =>
    intro ip ip' src off r s s' hlo hhi h hr
    rw [writeLoop] at hr
    split at hr
    · obtain ⟨rfl, rfl⟩ := ok_pair_inj hr
      exact h
    have hbn : InRange lo hi (off / BSIZE) :=
      (InRange.first (show off < off + r by omega)).mono hlo hhi
    obtain ⟨⟨b, ip1, s1⟩, h1, hr1⟩ := bind_eq_ok.mp hr
    obtain ⟨hinv, hb⟩ := h.bmap hw hbn h1
    obtain ⟨⟨d, s2⟩, h2, hr2⟩ := bind_eq_ok.mp hr1
    have hinv2 := (hinv.quiet (Quiet.bread h2)).bwrite hw hbn hb
      (blit d (off % BSIZE) (min r (BSIZE - off % BSIZE)) src)
    exact ih _ _ _ _ _ _ _ (by omega) (by omega) hinv2 hr2

end Write

end Ext2Stored
