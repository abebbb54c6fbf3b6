import Xv6Ext2.Ext2BitmapProofs
import Xv6Ext2.RunsProofs

/-! # Allocating and freeing inodes of the ext2 device (ext2fs.c)

    `ext2fs_ialloc` takes the first clear bit `f` of the scan in the inode bitmap of the first group
    that has one, clears a place in the inode table of the group and returns an inode number.
    `Picked` says which group and bit; `taken` is what the device holds afterwards.

    - `ialloc_slot_iff` : the place it clears has 132 bytes, seven to a block, and lies in
      the slot of the inode only for bit 0 and slots of more than 128 bytes;
    - `ialloc_ifree_right_iff` : `ext2fs_ifree` counts the bits of a byte from the other
      end, so that it never undoes `ext2fs_ialloc`. -/

namespace Ext2Ialloc

open ByteBlock BufCache Outcome Runs FileIo Ext2Alloc Ext2Inode Ext2Bitmap

open Function (update update_of_ne update_self)

/-- The block of the inode bitmap of group `i`. -/
def inodeBitmap (v : Disk) (i : Nat) : Nat := bgInodeBitmap (v 2) i

structure Span where
  block : Nat
  off   : Nat
  len   : Nat
  deriving DecidableEq

def Span.Inside (x y : Span) : Prop :=
  x.block = y.block ∧ y.off ≤ x.off ∧ x.off + x.len ≤ y.off + y.len

instance (x y : Span) : Decidable (x.Inside y) := inferInstanceAs (Decidable (_ ∧ _ ∧ _))

/-- The bytes that `ext2fs_ialloc` initialises for bit `f` of group `i`. -/
def cleared (desc : Block) (i f : Nat) : Span where
  block := (bgInodeTable desc i + f / (BSIZE / SIZEOF_INODE)) % 2 ^ 32
  off   := f % (BSIZE / SIZEOF_INODE) * SIZEOF_INODE
  len   := SIZEOF_INODE

def newInum (sb : Ext2Super) (i f : Nat) : Nat := (i * sb.sInodesPerGroup + f + 1) % 2 ^ 32

/-- The bytes that `ext2fs_ilock` copies to `din`, and `ext2fs_iupdate` to `din` and back. -/
def copied (sb : Ext2Super) (desc : Block) (inum : Nat) : Span where
  block := (inodeHome sb desc inum).1
  off   := (inodeHome sb desc inum).2
  len   := SIZEOF_INODE

def slot (sb : Ext2Super) (desc : Block) (inum : Nat) : Span where
  block := (inodeHome sb desc inum).1
  off   := (inodeHome sb desc inum).2
  len   := sb.sInodeSize

/-! ## What `ext2fs_ialloc` does -/

/-- Group `i` is the first one whose bitmap the scan finds a clear bit in, and `f` is this bit. -/
structure Picked (sb : Ext2Super) (v : Disk) (i f : Nat) : Prop where
  group  : i ≤ sb.sBlocksCount / sb.sBlocksPerGroup
  before : ∀ j < i, ext2fsFreeBlock sb (v (inodeBitmap v j)) = none
  clear  : FirstClear (v (inodeBitmap v i)) f
  lt     : f < scanLimit sb

/-- A block of the inode table with a new inode at offset `o`. -/
def newInode (d : Block) (o type : Nat) : Block :=
  let d := blit d o SIZEOF_INODE (fun _ => 0)
  if type = T_DIR then putLE d 2 o S_IFDIR else if type = T_FILE then putLE d 2 o S_IFREG else d

/-- The blocks after `ext2fs_ialloc` took bit `f` of group `i`. -/
def taken (v : Disk) (type i f : Nat) : Disk :=
  let c := cleared (v 2) i f
  update
    (update v c.block (fillBlock (v c.block) (newInode (v c.block) c.off type)))
    (inodeBitmap v i)
    (fillBlock (v (inodeBitmap v i)) (setBit (v (inodeBitmap v i)) (scanIdx f)))

section Ialloc

variable {sb : Ext2Super} {type i f inum : Nat} {s s' : Bcache}

/-- Two stores of the bitmap with one of another block between them. -/
lemma taken_view {v : Disk} {bb b : Nat} {d e : Block} (hne : b ≠ bb) :
    update (update (update v bb (fillBlock (v bb) d)) b
      (fillBlock (v b) e)) bb (fillBlock (fillBlock (v bb) d) d) =
    update (update v b (fillBlock (v b) e)) bb (fillBlock (v bb) d) := by
  have hfill : fillBlock (fillBlock (v bb) d) d = fillBlock (v bb) d := by
    funext k
    by_cases hk : k < BSIZE
    · rw [fillBlock_in hk, fillBlock_in hk]
    · rw [fillBlock_out (Nat.not_lt.mp hk)]
  rw [hfill, Function.update_comm hne.symm, Function.update_idem]

lemma iallocGroup_clear (hf : FirstClear (s.view (inodeBitmap s.view i)) f)
    (hlt : f < scanLimit sb) : iallocGroup sb type i s =
      if (cleared (s.view 2) i f).block = inodeBitmap s.view i then .error .deadlock
      else .ok (some (newInum sb i f),
        bwrite (inodeBitmap s.view i) (setBit (s.view (inodeBitmap s.view i)) (scanIdx f))
          (bwrite (cleared (s.view 2) i f).block
            (newInode (s.view (cleared (s.view 2) i f).block) (cleared (s.view 2) i f).off type)
            ((bput (inodeBitmap s.view i) (setBit (s.view (inodeBitmap s.view i)) (scanIdx f))
              ((s.touch 2).touch (inodeBitmap s.view i))).touch
                (cleared (s.view 2) i f).block))) := by
  rw [iallocGroup, bread_nil]
  dsimp only
  rw [bread_nil]
  dsimp only
  rw [touch_view, show bgInodeBitmap (s.view 2) i = inodeBitmap s.view i from rfl,
    ext2fsFreeBlock_of_clear hf hlt]
  dsimp only
  rw [show (bgInodeTable (s.view 2) i + f / (BSIZE / SIZEOF_INODE)) % 2 ^ 32
    = (cleared (s.view 2) i f).block from rfl]
  by_cases hb : (cleared (s.view 2) i f).block = inodeBitmap s.view i
  · rw [if_pos hb, bread, if_pos (List.mem_singleton.mpr hb)]
    rfl
  rw [if_neg hb, bread_of_notMem (fun e => hb (List.mem_singleton.mp e)), ok_bind]
  dsimp only
  rw [bput_view, touch_view, touch_view, update_of_ne hb]
  rfl

lemma iallocGroup_some (h : iallocGroup sb type i s = .ok (some inum, s')) :
    ∃ f, FirstClear (s.view (inodeBitmap s.view i)) f ∧ f < scanLimit sb ∧
      (cleared (s.view 2) i f).block ≠ inodeBitmap s.view i ∧ inum = newInum sb i f ∧
      s'.view = taken s.view type i f := by
  cases hscan : ext2fsFreeBlock sb (s.view (inodeBitmap s.view i)) with
  | none =>
    rw [iallocGroup_none hscan] at h
    cases (ok_pair_inj h).1
  | some r =>
    have hspec := ext2fsFreeBlock_spec sb (s.view (inodeBitmap s.view i))
    rw [hscan] at hspec
    obtain ⟨hf, -⟩ := ext2fsFreeBlock_some hscan
    have hlt : r.1 < scanLimit sb := hspec.2.1
    rw [iallocGroup_clear hf hlt] at h
    split at h
    · cases h
    · next hb =>
      obtain ⟨hnum, rfl⟩ := ok_pair_inj h
      refine ⟨r.1, hf, hlt, hb, (Option.some.inj hnum).symm, ?_⟩
      simp only [bwrite_view, touch_view, bput_view, update_of_ne hb,
        update_of_ne (Ne.symm hb), update_self]
      exact taken_view hb

lemma ext2IallocFrom_ok (fuel : Nat) :
    ∀ (i : Nat) (s : Bcache), ext2IallocFrom sb type fuel i s = .ok (inum, s') →
      ∃ j f, i ≤ j ∧ j < i + fuel ∧
        (∀ k, i ≤ k → k < j → ext2fsFreeBlock sb (s.view (inodeBitmap s.view k)) = none) ∧
        FirstClear (s.view (inodeBitmap s.view j)) f ∧ f < scanLimit sb ∧
        (cleared (s.view 2) j f).block ≠ inodeBitmap s.view j ∧ inum = newInum sb j f ∧
        s'.view = taken s.view type j f := by
  induction fuel with
  | zero =>
    intro i s h
    cases h
  | succ fuel ih =>
    intro i s h
    rw [ext2IallocFrom] at h
    obtain ⟨⟨r, s1⟩, h1, h⟩ := bind_eq_ok.mp h
    cases r with
    | some n =>
      obtain ⟨rfl, rfl⟩ := ok_pair_inj h
      obtain ⟨f, hf⟩ := iallocGroup_some h1
      exact ⟨i, f, Nat.le_refl i, by omega, fun k hk1 hk2 => absurd hk2 (by omega), hf⟩
    | none =>
      -- this group has no clear bit: its bitmap and the others are as before
      cases hscan : ext2fsFreeBlock sb (s.view (inodeBitmap s.view i)) with
      | some r =>
        have hspec := ext2fsFreeBlock_spec sb (s.view (inodeBitmap s.view i))
        rw [hscan] at hspec
        obtain ⟨hf, -⟩ := ext2fsFreeBlock_some hscan
        rw [iallocGroup_clear hf hspec.2.1] at h1
        split at h1
        · cases h1
        · cases (ok_pair_inj h1).1
      | none =>
        rw [iallocGroup_none hscan] at h1
        obtain ⟨-, rfl⟩ := ok_pair_inj h1
        obtain ⟨j, f, hj1, hj2, hbefore, hrest⟩ := ih (i + 1) _ h
        rw [touch_view, touch_view] at hbefore hrest
        refine ⟨j, f, by omega, by omega, fun k hk1 hk2 => ?_, hrest⟩
        by_cases hk : k = i
        · rwa [hk]
        · exact hbefore k (by omega) hk2

lemma ext2fsIallocInum_ok (h : ext2fsIallocInum sb type s = .ok (inum, s')) :
    ∃ i f, Picked sb s.view i f ∧ (cleared (s.view 2) i f).block ≠ inodeBitmap s.view i ∧
      inum = newInum sb i f ∧ s'.view = taken s.view type i f := by
  rw [ext2fsIallocInum] at h
  obtain ⟨_, -, h⟩ := bind_eq_ok.mp h
  obtain ⟨i, f, -, hi, hbefore, hf, hlt, hrest⟩ := ext2IallocFrom_ok _ 0 s h
  exact ⟨i, f, ⟨by omega, fun j hj => hbefore j (Nat.zero_le j) hj, hf, hlt⟩, hrest⟩

lemma ext2IallocFrom_returns (k : Nat) : ∀ (fuel i : Nat) (s : Bcache), k ≤ fuel →
      (∀ j, i ≤ j → j < i + k → ext2fsFreeBlock sb (s.view (inodeBitmap s.view j)) = none) →
      FirstClear (s.view (inodeBitmap s.view (i + k))) f → f < scanLimit sb →
      (cleared (s.view 2) (i + k) f).block ≠ inodeBitmap s.view (i + k) →
      ∃ s', ext2IallocFrom sb type (fuel + 1) i s = .ok (newInum sb (i + k) f, s') := by
  induction k with
  | zero =>
    intro fuel i s _ _ hf hlt hb
    rw [Nat.add_zero] at hf hb ⊢
    rw [ext2IallocFrom, iallocGroup_clear hf hlt, if_neg hb, ok_bind]
    exact ⟨_, rfl⟩
  | succ k ih =>
    intro fuel i s hfuel hbefore hf hlt hb
    obtain ⟨fuel, rfl⟩ : ∃ n, fuel = n + 1 := ⟨fuel - 1, by omega⟩
    rw [ext2IallocFrom, iallocGroup_none (hbefore i (Nat.le_refl i) (by omega)), ok_bind]
    dsimp only
    have hnext : i + (k + 1) = i + 1 + k := by omega
    rw [hnext] at hf hb ⊢
    refine ih fuel (i + 1) _ (by omega) (fun j h1 h2 => ?_) ?_ hlt ?_
    · rw [touch_view, touch_view]
      exact hbefore j (by omega) (by omega)
    · rwa [touch_view, touch_view]
    · rwa [touch_view, touch_view]

lemma Picked.unique {v : Disk} {j g : Nat} (h : Picked sb v i f) (h' : Picked sb v j g) :
    i = j ∧ f = g := by
  have hno : ∀ {i f j g}, Picked sb v i f → Picked sb v j g → ¬i < j := by
    intro i f j g h h' hlt
    have hnone := h'.before i hlt
    rw [ext2fsFreeBlock_of_clear h.clear h.lt] at hnone
    cases hnone
  obtain rfl : i = j := Nat.le_antisymm (Nat.not_lt.mp (hno h' h)) (Nat.not_lt.mp (hno h h'))
  exact ⟨rfl, h.clear.unique h'.clear⟩

lemma ext2fsIallocInum_returns (hbpg : 0 < sb.sBlocksPerGroup) (h : Picked sb s.view i f)
    (hb : (cleared (s.view 2) i f).block ≠ inodeBitmap s.view i) (type : Nat) :
    ∃ s', ext2fsIallocInum sb type s = .ok (newInum sb i f, s') ∧
      s'.view = taken s.view type i f := by
  have hrun : ∃ s', ext2fsIallocInum sb type s = .ok (newInum sb i f, s') := by
    rw [ext2fsIallocInum, checkDiv_of_pos hbpg, ok_bind]
    rw [← Nat.zero_add i] at hb ⊢
    refine ext2IallocFrom_returns i _ 0 s h.group (fun j _ hj => h.before j (by omega)) ?_ h.lt hb
    rw [Nat.zero_add]
    exact h.clear
  obtain ⟨s', hrun⟩ := hrun
  obtain ⟨j, g, hp, -, -, hview⟩ := ext2fsIallocInum_ok hrun
  obtain ⟨rfl, rfl⟩ := h.unique hp
  exact ⟨s', hrun, hview⟩

end Ialloc

/-! ## The place of a new inode -/

/-- The bytes that `ext2fs_ialloc` initialises for bit `f` of group `i` are in the slot of the
    inode, and all that the three functions touch of an inode is in its slot and its block. -/
structure SlotsRight (sb : Ext2Super) (desc : Block) (i f : Nat) : Prop where
  cleared : (cleared desc i f).Inside (slot sb desc (newInum sb i f))
  copied  : ∀ inum, (copied sb desc inum).Inside (slot sb desc inum)
  blocks  : (Ext2Ialloc.cleared desc i f).off + SIZEOF_INODE ≤ BSIZE ∧
    ∀ inum, (Ext2Ialloc.copied sb desc inum).off + SIZEOF_INODE ≤ BSIZE

/-- Slots of more than 128 bytes, and bit 0.  A bit behind `s_inodes_per_group` makes a
    number of another group: there the tables of the two groups have to lie so that the
    place is in the slot. -/
def FitsSlot (sb : Ext2Super) (desc : Block) (i f : Nat) : Prop :=
  sb.sInodeSize ≠ 128 ∧
  if getGroupNo (newInum sb i f) sb = i ∧ f < 2 ^ 32 then f = 0
  else
    let g := getGroupNo (newInum sb i f) sb
    let k := getInodeIndex (newInum sb i f) sb
    let n := BSIZE / sb.sInodeSize
    (bgInodeTable desc i + f / 7) % 2 ^ 32 = (bgInodeTable desc g + k / n) % 2 ^ 32 ∧
    k % n * sb.sInodeSize ≤ f % 7 * 132 ∧ f % 7 * 132 + 132 ≤ k % n * sb.sInodeSize + sb.sInodeSize

lemma pred32_succ (n : Nat) : pred32 ((n + 1) % 2 ^ 32) = n % 2 ^ 32 := by
  unfold pred32
  omega

variable {sb : Ext2Super} {i f : Nat}

/-- The bit is the inode's index in its own group. -/
lemma index_of_group (hlt : f < 2 ^ 32)
    (hg : getGroupNo (newInum sb i f) sb = i) : getInodeIndex (newInum sb i f) sb = f := by
  rw [getGroupNo, newInum, pred32_succ] at hg
  rw [getInodeIndex, newInum, pred32_succ]
  have hdiv := Nat.div_add_mod ((i * sb.sInodesPerGroup + f) % 2 ^ 32) sb.sInodesPerGroup
  rw [hg, Nat.mul_comm] at hdiv
  have := Nat.mod_lt (i * sb.sInodesPerGroup + f) (Nat.two_pow_pos 32)
  omega

lemma copied_right (desc : Block) (inum : Nat)
    (hsize : sb.sInodeSize = 256 ∨ sb.sInodeSize = 512 ∨ sb.sInodeSize = 1024) :
    (copied sb desc inum).Inside (slot sb desc inum) ∧
      (copied sb desc inum).off + SIZEOF_INODE ≤ BSIZE := by
  have hoff : (copied sb desc inum).off =
      getInodeIndex inum sb % (BSIZE / sb.sInodeSize) * sb.sInodeSize := rfl
  refine ⟨⟨rfl, le_rfl, Nat.add_le_add_left ?_ _⟩, ?_⟩
  · show SIZEOF_INODE ≤ sb.sInodeSize
    unfold SIZEOF_INODE
    omega
  · rw [hoff]
    unfold SIZEOF_INODE BSIZE
    rcases hsize with h | h | h
    · rw [h]
      omega
    · rw [h]
      omega
    · rw [h]
      omega

lemma eq_of_add_mod {t x y : Nat} (hx : x < 2 ^ 32) (hy : y < 2 ^ 32)
    (h : (t + x) % 2 ^ 32 = (t + y) % 2 ^ 32) : x = y := by
  omega

/-- The place is in the slot of its own group for bit 0 only. -/
lemma cleared_inside_iff {desc : Block}
    (hsize : sb.sInodeSize = 256 ∨ sb.sInodeSize = 512 ∨ sb.sInodeSize = 1024)
    (hown : getGroupNo (newInum sb i f) sb = i) (hlt : f < 2 ^ 32) :
    (cleared desc i f).Inside (slot sb desc (newInum sb i f)) ↔ f = 0 := by
  have hhome : slot sb desc (newInum sb i f) =
      ⟨(bgInodeTable desc i + f / (BSIZE / sb.sInodeSize)) % 2 ^ 32,
        f % (BSIZE / sb.sInodeSize) * sb.sInodeSize, sb.sInodeSize⟩ := by
    rw [slot, inodeHome, hown, index_of_group hlt hown]
  rw [hhome]
  constructor
  · rintro ⟨hblock, hlo, hhi⟩
    have hsame : f / (BSIZE / SIZEOF_INODE) = f / (BSIZE / sb.sInodeSize) :=
      eq_of_add_mod (Nat.lt_of_le_of_lt (Nat.div_le_self _ _) hlt)
        (Nat.lt_of_le_of_lt (Nat.div_le_self _ _) hlt) hblock
    change f % (BSIZE / sb.sInodeSize) * sb.sInodeSize ≤ f % (BSIZE / SIZEOF_INODE) * SIZEOF_INODE at hlo
    unfold SIZEOF_INODE BSIZE at hsame hlo
    rcases hsize with h | h | h
    · rw [h] at hsame hlo
      omega
    · rw [h] at hsame hlo
      omega
    · rw [h] at hsame hlo
      omega
  · rintro rfl
    rw [Nat.zero_div, Nat.zero_mod, Nat.zero_mul]
    refine ⟨rfl, Nat.zero_le _, ?_⟩
    show 132 ≤ 0 + sb.sInodeSize
    omega

/-- **Main result.**  The bytes that `ext2fs_ialloc` initialises, and those that it,
    `ext2fs_ilock` and `ext2fs_iupdate` touch, are in the slots of the inodes exactly if the
    slots have more than 128 bytes and the inode is the first of its group. -/
theorem ialloc_slot_iff (sb : Ext2Super)
    (hsize : sb.sInodeSize = 128 ∨ sb.sInodeSize = 256 ∨ sb.sInodeSize = 512 ∨ sb.sInodeSize = 1024)
    (type inum : Nat) (s s' : Bcache) (h : ext2fsIallocInum sb type s = .ok (inum, s')) :
    ∃ i f, Picked sb s.view i f ∧ inum = newInum sb i f ∧ s'.view = taken s.view type i f ∧
      (SlotsRight sb (s.view 2) i f ↔ FitsSlot sb (s.view 2) i f) := by
  obtain ⟨i, f, hp, -, hinum, hview⟩ := ext2fsIallocInum_ok h
  refine ⟨i, f, hp, hinum, hview, fun hr => ?_, fun hfit => ?_⟩
  · have h128 : sb.sInodeSize ≠ 128 := by
      intro e
      have hlen : (copied sb (s.view 2) 1).off + 132 ≤ (copied sb (s.view 2) 1).off + sb.sInodeSize :=
        (hr.copied 1).2.2
      omega
    refine ⟨h128, ?_⟩
    split
    · next hown =>
      exact (cleared_inside_iff (hsize.resolve_left h128) hown.1 hown.2).mp hr.cleared
    · exact hr.cleared
  · obtain ⟨h128, hspot⟩ := hfit
    have hsize := hsize.resolve_left h128
    refine ⟨?_, fun n => (copied_right _ n hsize).1, ?_, fun n => (copied_right _ n hsize).2⟩
    · split at hspot
      · next hown =>
        exact (cleared_inside_iff hsize hown.1 hown.2).mpr hspot
      · exact hspot
    · show f % (BSIZE / SIZEOF_INODE) * SIZEOF_INODE + SIZEOF_INODE ≤ BSIZE
      unfold SIZEOF_INODE BSIZE
      omega

/-- One group of 16 inodes, with the bitmap in block 4 and the inode table from block 5 on. -/
def tinySuper (isize : Nat) : Ext2Super := ⟨100, 1, 128, 16, isize⟩

/-- The two bytes of the bitmap that stand for inodes; the other bits are padding. -/
def tinyDisk (byte0 byte1 : UInt8) : Disk := fun b k =>
  if b = 2 then (if k = 0 then 3 else if k = 4 then 4 else if k = 8 then 5 else 0)
  else if b = 4 then (if k = 0 then byte0 else if k = 1 then byte1 else 255)
  else 0

def tinyImage (byte0 byte1 : UInt8) : Bcache := ⟨tinyDisk byte0 byte1, fun _ => none⟩

theorem ialloc_slot_iff_tiny :
    ∃ s', ext2fsIallocInum (tinySuper 256) T_FILE (tinyImage 0 0) = .ok (1, s') ∧
      SlotsRight (tinySuper 256) (tinyDisk 0 0 2) 0 0 := by
  have hok : (ext2fsIallocInum (tinySuper 256) T_FILE (tinyImage 0 0)).map Prod.fst = .ok 1 := by
    decide +kernel
  obtain ⟨⟨_, s'⟩, hrun, rfl⟩ := exists_ok_of_map hok
  obtain ⟨i, f, hp, -, -, hiff⟩ :=
    ialloc_slot_iff (tinySuper 256) (.inr (.inl rfl)) T_FILE _ (tinyImage 0 0) s' hrun
  have hfirst : Picked (tinySuper 256) (tinyImage 0 0).view 0 0 :=
    ⟨by decide, fun _ h => absurd h (Nat.not_lt_zero _),
      ⟨by decide, fun _ h => absurd h (Nat.not_lt_zero _)⟩, by decide⟩
  obtain ⟨rfl, rfl⟩ := hp.unique hfirst
  exact ⟨s', hrun, hiff.mpr ⟨by decide, by decide⟩⟩

/-- With the first eleven inodes in use, `ext2fs_ialloc` returns inode 12 and clears bytes of
    the inodes 7 and 8. -/
theorem ialloc_clears_other_inodes :
    (ext2fsIallocInum (tinySuper 256) T_FILE (tinyImage 255 224)).map Prod.fst = .ok 12 ∧
      cleared (tinyDisk 255 224 2) 0 11 = ⟨6, 528, 132⟩ ∧
      slot (tinySuper 256) (tinyDisk 255 224 2) 7 = ⟨6, 512, 256⟩ ∧
      slot (tinySuper 256) (tinyDisk 255 224 2) 12 = ⟨7, 768, 256⟩ ∧
      ¬SlotsRight (tinySuper 256) (tinyDisk 255 224 2) 0 11 := by
  refine ⟨by decide +kernel, by decide, by decide, by decide, fun h => ?_⟩
  exact absurd h.cleared (by decide)

/-! ## Freeing what was allocated -/

def groupCount (sb : Ext2Super) : Nat :=
  (sb.sBlocksCount - sb.sFirstDataBlock + (sb.sBlocksPerGroup - 1)) / sb.sBlocksPerGroup

/-- An image whose inode bitmaps have their padding bits set.  The bitmaps and tables are
    behind the descriptors, and all numbers that the scan can give have 32 bits. -/
structure InodeImage (sb : Ext2Super) (v : Disk) : Prop where
  bpg     : 0 < sb.sBlocksPerGroup
  ipg     : 0 < sb.sInodesPerGroup ∧ sb.sInodesPerGroup ≤ 8 * BSIZE
  padding : ∀ i < groupCount sb, ∀ k, sb.sInodesPerGroup ≤ k → k < 8 * BSIZE →
    blockBit (v (inodeBitmap v i)) k = true
  bitmaps : ∀ i < groupCount sb, inodeBitmap v i ≠ 2 ∧
    ∀ j < groupCount sb, inodeBitmap v i = inodeBitmap v j → i = j
  tables  : ∀ i < groupCount sb, 2 < bgInodeTable (v 2) i ∧
    bgInodeTable (v 2) i + scanLimit sb ≤ 2 ^ 32
  numbers : sb.sBlocksCount / sb.sBlocksPerGroup * sb.sInodesPerGroup + scanLimit sb ≤ 2 ^ 32

/-- The bit of inode `inum` in the bitmap of its group is set. -/
def inodeBit (sb : Ext2Super) (v : Disk) (inum : Nat) : Bool :=
  blockBit (v (inodeBitmap v (getGroupNo inum sb))) (getInodeIndex inum sb)

inductive Op where
  | ialloc (type : Nat)
  | ifree (inum : Nat)
  deriving DecidableEq

/-- The device and the inodes that were allocated and not freed yet. -/
structure Live where
  bc   : Bcache
  live : List Nat

def opStep (sb : Ext2Super) (t : Live) : Op → Except Err Live
  | .ialloc type => do
      let (inum, bc) ← ext2fsIallocInum sb type t.bc
      .ok ⟨bc, inum :: t.live⟩
  | .ifree inum => do
      let bc ← ext2fsIfree sb inum t.bc
      .ok ⟨bc, t.live.erase inum⟩

/-- Only live inodes are freed. -/
def Legal (t : Live) : Op → Prop
  | .ialloc _ => True
  | .ifree inum => inum ∈ t.live

/-- An inode that is allocated is free and belongs to a group, `ext2fs_ifree` then restores
    all inode bitmaps, and in no sequence of calls two live inodes have one number. -/
structure InverseRight (sb : Ext2Super) (s : Bcache) : Prop where
  ifree : ∀ type inum s', ext2fsIallocInum sb type s = .ok (inum, s') →
    getGroupNo inum sb < groupCount sb ∧ inodeBit sb s.view inum = false ∧
    ∃ s'', ext2fsIfree sb inum s' = .ok s'' ∧
      ∀ i < groupCount sb, ∀ k < 8 * BSIZE, blockBit (s''.view (inodeBitmap s.view i)) k =
        blockBit (s.view (inodeBitmap s.view i)) k
  live  : ∀ ops t, AllSteps (opStep sb) Legal ops ⟨s, []⟩ →
    exec (opStep sb) ops ⟨s, []⟩ = .ok t → t.live.Nodup

/-- What a call of `ext2fs_ifree` that returns has found. -/
lemma ext2fsIfree_ok {inum : Nat} {s s' : Bcache} (h : ext2fsIfree sb inum s = .ok s') :
    getInodeIndex inum sb < 8 * BSIZE ∧ inodeBit sb s.view inum = true := by
  obtain ⟨_, -, h⟩ := bind_eq_ok.mp h
  rw [bread_nil] at h
  dsimp only at h
  rw [bread_nil] at h
  dsimp only at h
  rw [touch_view] at h
  by_cases hw : 8 * BSIZE ≤ getInodeIndex inum sb
  · rw [if_pos hw] at h
    cases h
  rw [if_neg hw] at h
  refine ⟨Nat.not_le.mp hw, ?_⟩
  by_contra hclear
  rw [Bool.not_eq_true, inodeBit, blockBit, inodeBitmap] at hclear
  rw [if_pos ((and_mask_eq_zero (Nat.mod_lt _ (by decide))).mpr hclear)] at h
  cases h

/-- An inode without mode: `ext2fs_ialloc` sets the bit that it found and no other. -/
lemma taken_bit {v : Disk} {b k : Nat} (hk : k < 8 * BSIZE)
    (h : blockBit (taken v T_DEV i f b) k = true) :
    blockBit (v b) k = true ∨ (b = inodeBitmap v i ∧ k = scanIdx f) := by
  rw [taken] at h
  by_cases hb : b = inodeBitmap v i
  · subst hb
    rw [update_self, blockBit_fillBlock hk, blockBit_setBit, Bool.or_eq_true,
      decide_eq_true_iff] at h
    rcases h with h | h
    · exact .inl h
    · exact .inr ⟨rfl, h.symm⟩
  rw [update_of_ne hb] at h
  by_cases hc : b = (cleared (v 2) i f).block
  · -- bytes of the inode table are cleared
    subst hc
    rw [update_self, blockBit_fillBlock hk, newInode, if_neg (by decide),
      if_neg (by decide), blockBit, blit] at h
    split at h
    · exact absurd h (by rw [byteBit]; simp)
    · exact .inl h
  · rw [update_of_ne hc] at h
    exact .inl h

lemma scanIdx_ne (f : Nat) : scanIdx f ≠ f := by
  unfold scanIdx
  omega

/-- **Main result.**  What `ext2fs_ialloc` returns is never a free inode that `ext2fs_ifree`
    gives back: the property holds only of images on which it returns nothing. -/
theorem ialloc_ifree_right_iff (sb : Ext2Super) (s : Bcache) (hi : InodeImage sb s.view) :
    InverseRight sb s ↔ ¬∃ i f, Picked sb s.view i f ∧
      (cleared (s.view 2) i f).block ≠ inodeBitmap s.view i := by
  constructor
  · rintro h ⟨i, f, hp, hb⟩
    obtain ⟨s', hrun, hview⟩ := ext2fsIallocInum_returns hi.bpg hp hb T_DEV
    obtain ⟨hgroup, hfree, s'', hifree, -⟩ := h.ifree _ _ _ hrun
    -- the number has not wrapped around, so that its group is `i` or a later one
    have hmul : i * sb.sInodesPerGroup ≤
        sb.sBlocksCount / sb.sBlocksPerGroup * sb.sInodesPerGroup := Nat.mul_le_mul_right _ hp.group
    have hlt := hp.lt
    have hnumbers := hi.numbers
    have hpred : pred32 (newInum sb i f) = i * sb.sInodesPerGroup + f := by
      rw [newInum, pred32_succ, Nat.mod_eq_of_lt (by omega)]
    have hle : i ≤ getGroupNo (newInum sb i f) sb := by
      rw [getGroupNo, hpred]
      exact (Nat.le_div_iff_mul_le hi.ipg.1).mpr (by omega)
    have hig : i < groupCount sb := Nat.lt_of_le_of_lt hle hgroup
    -- the descriptors are as before
    have hdesc : s'.view 2 = s.view 2 := by
      have htable := hi.tables i hig
      have hblock : 2 ≠ (cleared (s.view 2) i f).block := by
        show 2 ≠ (bgInodeTable (s.view 2) i + f / (BSIZE / SIZEOF_INODE)) % 2 ^ 32
        have hq := Nat.div_le_self f (BSIZE / SIZEOF_INODE)
        generalize f / (BSIZE / SIZEOF_INODE) = q at hq ⊢
        rw [Nat.mod_eq_of_lt (by omega)]
        omega
      rw [hview, taken, update_of_ne (Ne.symm (hi.bitmaps i hig).1), update_of_ne hblock]
    obtain ⟨hindex, hset⟩ := ext2fsIfree_ok hifree
    rw [inodeBit, inodeBitmap, hdesc, hview] at hset
    rcases taken_bit hindex hset with hold | ⟨hsame, hbit⟩
    · rw [show blockBit (s.view (bgInodeBitmap (s.view 2) (getGroupNo (newInum sb i f) sb)))
        (getInodeIndex (newInum sb i f) sb) = inodeBit sb s.view (newInum sb i f) from rfl,
        hfree] at hold
      cases hold
    -- the bit that was set would be the one of the inode
    have hown : getGroupNo (newInum sb i f) sb = i := (hi.bitmaps _ hgroup).2 i hig hsame
    have hf : f < 2 ^ 32 := by omega
    rw [index_of_group hf hown] at hbit
    exact scanIdx_ne f hbit.symm
  · intro hno
    have hfail : ∀ type inum s', ext2fsIallocInum sb type s ≠ .ok (inum, s') := by
      intro type inum s' hrun
      obtain ⟨i, f, hp, hb, -⟩ := ext2fsIallocInum_ok hrun
      exact hno ⟨i, f, hp, hb⟩
    refine ⟨fun type inum s' hrun => absurd hrun (hfail type inum s'), fun ops t hlegal hrun => ?_⟩
    cases ops with
    | nil =>
      obtain rfl := Except.ok.inj hrun
      exact List.nodup_nil
    | cons op ops =>
      obtain ⟨t', hstep, -⟩ := exec_cons_ok hrun
      cases op with
      | ialloc type =>
        obtain ⟨⟨inum, s'⟩, h1, -⟩ := bind_eq_ok.mp hstep
        exact absurd h1 (hfail type inum s')
      | ifree inum => exact absurd hlegal.1 List.not_mem_nil

lemma tinyImage_inodeImage (byte0 byte1 : UInt8) :
    InodeImage (tinySuper 128) (tinyImage byte0 byte1).view := by
  have hcount : groupCount (tinySuper 128) = 1 := by decide
  have hbitmap : inodeBitmap (tinyImage byte0 byte1).view 0 = 4 := rfl
  have hone : ∀ i < groupCount (tinySuper 128), i = 0 := fun i hi => by omega
  refine ⟨by decide, by decide, fun i hi k h1 h2 => ?_, fun i hi => ?_, fun i hi => ?_, by decide⟩
  · obtain rfl := hone i hi
    have h16 : 16 ≤ k := h1
    have hbyte : (tinyImage byte0 byte1).view 4 (k / 8) = 255 := by
      show (if k / 8 = 0 then byte0 else if k / 8 = 1 then byte1 else 255) = 255
      rw [if_neg (by omega), if_neg (by omega)]
    rw [hbitmap, blockBit, hbyte]
    exact byteBit_ones (Nat.mod_lt k (by decide))
  · obtain rfl := hone i hi
    refine ⟨by rw [hbitmap]; decide, fun j hj _ => (hone j hj).symm⟩
  · obtain rfl := hone i hi
    have htable : bgInodeTable ((tinyImage byte0 byte1).view 2) 0 = 5 := rfl
    rw [htable]
    decide

/-- With all inodes in use nothing is allocated. -/
theorem ialloc_ifree_right_iff_full : InverseRight (tinySuper 128) (tinyImage 255 255) := by
  refine (ialloc_ifree_right_iff (tinySuper 128) _ (tinyImage_inodeImage 255 255)).mpr ?_
  rintro ⟨i, f, hp, -⟩
  obtain rfl : i = 0 := Nat.le_zero.mp hp.group
  have hbyte : ∀ k, (tinyImage 255 255).view 4 k = 255 := by
    intro k
    show (if k = 0 then 255 else if k = 1 then 255 else 255) = (255 : UInt8)
    split
    · rfl
    · split <;> rfl
  have hclear : scanBit ((tinyImage 255 255).view 4) f = false := hp.clear.clear
  rw [scanBit, blockBit, hbyte, byteBit_ones (Nat.mod_lt _ (by decide))] at hclear
  cases hclear

/-- Inode 1 is allocated, and `ext2fs_ifree` of it panics.  When inode 8 is allocated too
    before inode 1 is freed, it is allocated a second time. -/
theorem ifree_undoes_no_ialloc :
    ((ext2fsIallocInum (tinySuper 128) T_FILE (tinyImage 126 255)).bind fun r =>
        (ext2fsIfree (tinySuper 128) r.1 r.2).map fun _ => r.1)
      = .error (.panic "ext2fs_ifree: inode already free\n") ∧
    (exec (opStep (tinySuper 128)) [.ialloc T_FILE, .ialloc T_FILE, .ifree 1, .ialloc T_FILE]
        ⟨tinyImage 126 255, []⟩).map Live.live = .ok [8, 8] ∧
    ¬InverseRight (tinySuper 128) (tinyImage 126 255) := by
  have hpanic : ((ext2fsIallocInum (tinySuper 128) T_FILE (tinyImage 126 255)).bind fun r =>
        (ext2fsIfree (tinySuper 128) r.1 r.2).map fun _ => r.1)
      = .error (.panic "ext2fs_ifree: inode already free\n") := by
    decide +kernel
  refine ⟨hpanic, by decide +kernel, fun h => ?_⟩
  cases hrun : ext2fsIallocInum (tinySuper 128) T_FILE (tinyImage 126 255) with
  | error e =>
    have hok : (ext2fsIallocInum (tinySuper 128) T_FILE (tinyImage 126 255)).isOk = true := by
      decide +kernel
    rw [hrun] at hok
    cases hok
  | ok r =>
    obtain ⟨-, -, s'', hifree, -⟩ := h.ifree _ _ _ hrun
    rw [hrun, Except.bind, hifree] at hpanic
    cases hpanic

end Ext2Ialloc
