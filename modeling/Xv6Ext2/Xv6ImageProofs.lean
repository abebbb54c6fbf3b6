import Xv6Ext2.OwnershipProofs
import Xv6Ext2.Xv6InodeProofs

/-! # Consistent images of the root device

    A pointer of a file stands in one of the slots `(inum, p)`: the direct addresses of the inode
    for `p < 12`, the address of its indirect block for `p = 12`, and the entries of the indirect
    block from `p = 13` on.  An image is consistent when these pointers share no block, the bitmap
    agrees with them, and each file has exactly the blocks that its size asks for.

    Within an operation the inode in memory is ahead of the one on disk.  `Core` is what
    holds then, over the inodes `D` as they are in memory; taking a free block and storing
    its number in an empty slot keeps it (`Core.take_addr`, `Core.take_entry`). -/

namespace Xv6Image

open ByteBlock BufCache Outcome Ownership FileIo Xv6Alloc Xv6Inode

open Function (update update_of_ne update_self)

/-- The areas of the disk follow each other: inodes, bitmap, data. -/
structure Layout (sb : Superblock) : Prop where
  inodes : sb.inodestart + sb.ninodes / IPB + 1 ≤ sb.bmapstart
  data   : dataStart sb ≤ sb.size
  size   : sb.size < 2 ^ 31

/-- What the proofs need of it: an inode lies before the bitmap. -/
structure Areas (sb : Superblock) : Prop where
  inodes : ∀ j < sb.ninodes, IBLOCK j sb < sb.bmapstart
  data   : dataStart sb ≤ sb.size
  size   : sb.size < 2 ^ 31

variable {sb : Superblock}

lemma Layout.areas (h : Layout sb) : Areas sb := by
  refine ⟨fun j hj => ?_, h.data, h.size⟩
  have h1 := h.inodes
  have h2 : j / IPB ≤ sb.ninodes / IPB := Nat.div_le_div_right hj.le
  unfold IBLOCK
  omega

instance {sb : Superblock} : Coe (Layout sb) (Areas sb) := ⟨Layout.areas⟩

/-- The pointer of an inode in slot `p`. -/
def ownBlock (ip : Dinode) (v : Disk) (p : Nat) : Nat :=
  if p ≤ NDIRECT then ip.addrs p
  else if p ≤ NDIRECT + NINDIRECT ∧ ip.addrs NDIRECT ≠ 0 then
    getLE (v (ip.addrs NDIRECT)) 4 (4 * (p - (NDIRECT + 1)))
  else 0

def slotOf (bn : Nat) : Nat := if bn < NDIRECT then bn else bn + 1

/-- The disk block of block `bn` of a file; `0` if there is none. -/
def blockAt (ip : Dinode) (v : Disk) (bn : Nat) : Nat := ownBlock ip v (slotOf bn)

def InUse (sb : Superblock) (D : Nat → Dinode) (inum : Nat) : Prop :=
  1 ≤ inum ∧ inum < sb.ninodes ∧ (D inum).type ≠ 0

instance (sb : Superblock) (D : Nat → Dinode) (inum : Nat) : Decidable (InUse sb D inum) :=
  inferInstanceAs (Decidable (_ ∧ _ ∧ _))

/-- The pointers of all allocated inodes, by slot. -/
def owns (sb : Superblock) (D : Nat → Dinode) (v : Disk) (q : Nat × Nat) : Nat :=
  if InUse sb D q.1 then ownBlock (D q.1) v q.2 else 0

/-- A file or a directory. -/
def IsFile (ip : Dinode) : Prop := ip.type = T_FILE ∨ ip.type = T_DIR

/-- The number of blocks for `size` bytes. -/
def blocks (size : Nat) : Nat := (size + (BSIZE - 1)) / BSIZE

/-- The inode has blocks for exactly the first `nb` block numbers, and an indirect block
    when one of them needs it. -/
structure Covers (ip : Dinode) (v : Disk) (nb : Nat) : Prop where
  block    : ∀ bn, blockAt ip v bn ≠ 0 ↔ bn < nb
  indirect : ip.addrs NDIRECT ≠ 0 ↔ NDIRECT < nb

structure Consistent (sb : Superblock) (v : Disk) : Prop where
  /-- No block occurs twice. -/
  distinct : Distinct (owns sb (dinodeAt sb v) v)
  /-- The addresses are those of data blocks. -/
  in_data  : ∀ q, owns sb (dinodeAt sb v) v q ≠ 0 → DataBlock sb (owns sb (dinodeAt sb v) v q)
  /-- The bit of a data block is set exactly when the block occurs. -/
  bits     : ∀ b, DataBlock sb b →
    (bitOf sb v b = true ↔ ∃ q, owns sb (dinodeAt sb v) v q = b)
  /-- The blocks before the data blocks are marked as in use. -/
  reserved : ∀ b < dataStart sb, bitOf sb v b = true
  /-- The types of `stat.h`. -/
  types    : ∀ j, InUse sb (dinodeAt sb v) j →
    IsFile (dinodeAt sb v j) ∨ (dinodeAt sb v j).type = T_DEV
  /-- A file has the blocks of its size. -/
  covered  : ∀ j, InUse sb (dinodeAt sb v) j → IsFile (dinodeAt sb v j) →
    (∀ bn, blockAt (dinodeAt sb v j) v bn ≠ 0 ↔ bn < blocks (dinodeAt sb v j).size) ∧
    ((dinodeAt sb v j).addrs NDIRECT ≠ 0 ↔ NDIRECT * BSIZE < (dinodeAt sb v j).size)

/-! ## Slots -/

lemma lt_blocks_iff (bn size : Nat) : bn < blocks size ↔ bn * BSIZE < size := by
  unfold blocks BSIZE
  omega

lemma slotOf_ne (bn : Nat) : slotOf bn ≠ NDIRECT := by
  unfold slotOf
  split <;> omega

lemma slotOf_inj {bn bn' : Nat} (h : slotOf bn = slotOf bn') : bn = bn' := by
  unfold slotOf at h
  split at h <;> split at h <;> omega

variable {ip : Dinode}

variable {v : Disk} {p : Nat}

lemma ownBlock_addr (h : p ≤ NDIRECT) : ownBlock ip v p = ip.addrs p := if_pos h

lemma ownBlock_entry {k : Nat} (hk : k < NINDIRECT) (hi : ip.addrs NDIRECT ≠ 0) :
    ownBlock ip v (NDIRECT + 1 + k) = getLE (v (ip.addrs NDIRECT)) 4 (4 * k) := by
  unfold ownBlock
  rw [if_neg (by omega), if_pos ⟨by omega, hi⟩, show NDIRECT + 1 + k - (NDIRECT + 1) = k by omega]

/-- Without an indirect block, and past its entries, there are no pointers. -/
lemma ownBlock_none (hp : NDIRECT < p)
    (h : NDIRECT + NINDIRECT < p ∨ ip.addrs NDIRECT = 0) : ownBlock ip v p = 0 := by
  unfold ownBlock
  rw [if_neg (by omega), if_neg]
  rintro ⟨h1, h2⟩
  rcases h with h | h
  · omega
  · exact h2 h

lemma slot_cases (p : Nat) :
    p ≤ NDIRECT ∨ (∃ k < NINDIRECT, p = NDIRECT + 1 + k) ∨ NDIRECT + NINDIRECT < p := by
  by_cases h1 : p ≤ NDIRECT
  · exact .inl h1
  by_cases h2 : NDIRECT + NINDIRECT < p
  · exact .inr (.inr h2)
  · exact .inr (.inl ⟨p - (NDIRECT + 1), by omega, by omega⟩)

variable {v' : Disk}

lemma ownBlock_congr (h : ip.addrs NDIRECT ≠ 0 → v' (ip.addrs NDIRECT) = v (ip.addrs NDIRECT))
    (p : Nat) : ownBlock ip v' p = ownBlock ip v p := by
  rcases slot_cases p with hp | ⟨k, hk, rfl⟩ | hp
  · rw [ownBlock_addr hp, ownBlock_addr hp]
  · by_cases hi : ip.addrs NDIRECT = 0
    · rw [ownBlock_none (by omega) (.inr hi), ownBlock_none (by omega) (.inr hi)]
    · rw [ownBlock_entry hk hi, ownBlock_entry hk hi, h hi]
  · rw [ownBlock_none (by omega) (.inl hp), ownBlock_none (by omega) (.inl hp)]

variable {j : Nat}

variable {D : Nat → Dinode}

lemma owns_of_inUse
    (h : InUse sb D j) (p : Nat) : owns sb D v (j, p) = ownBlock (D j) v p := if_pos h

lemma inUse_of_owns {q : Nat × Nat} (h : owns sb D v q ≠ 0) : InUse sb D q.1 := by
  by_contra hno
  exact h (if_neg hno)

lemma owns_congr (h : ∀ j, owns sb D v (j, NDIRECT) ≠ 0 →
      v' (owns sb D v (j, NDIRECT)) = v (owns sb D v (j, NDIRECT))) :
    owns sb D v' = owns sb D v := by
  funext q
  obtain ⟨j, p⟩ := q
  by_cases hu : InUse sb D j
  · have hj := h j
    rw [owns_of_inUse hu, ownBlock_addr le_rfl] at hj
    rw [owns_of_inUse hu, owns_of_inUse hu, ownBlock_congr hj]
  · rw [owns, if_neg hu, owns, if_neg hu]

variable {D' : Nat → Dinode}

lemma inUse_congr (h : D' j = D j) : InUse sb D' j ↔ InUse sb D j := by
  unfold InUse
  rw [h]

lemma owns_congr_inode (h : D' j = D j) (p : Nat) : owns sb D' v (j, p) = owns sb D v (j, p) := by
  by_cases hu : InUse sb D j
  · rw [owns_of_inUse hu, owns_of_inUse ((inUse_congr h).mpr hu), h]
  · rw [owns, if_neg ((inUse_congr h).not.mpr hu), owns, if_neg hu]

lemma owns_congr_inodes (h : ∀ j < sb.ninodes, D' j = D j) : owns sb D' v = owns sb D v := by
  funext q
  by_cases hq : q.1 < sb.ninodes
  · exact owns_congr_inode (h q.1 hq) q.2
  · rw [owns, if_neg (fun hu => hq hu.2.1), owns, if_neg (fun hu => hq hu.2.1)]

lemma Consistent.covers (h : Consistent sb v) (hu : InUse sb (dinodeAt sb v) j)
    (hf : IsFile (dinodeAt sb v j)) : Covers (dinodeAt sb v j) v (blocks (dinodeAt sb v j).size) :=
  ⟨(h.covered j hu hf).1, (h.covered j hu hf).2.trans (lt_blocks_iff _ _).symm⟩

/-! ## Within an operation -/

/-- What holds while an operation works on inode `inum`, over the inodes as they are in memory. -/
structure Core (sb : Superblock) (D : Nat → Dinode) (inum : Nat) (v : Disk) : Prop where
  disk     : ∀ j, j ≠ inum → j < sb.ninodes → dinodeAt sb v j = D j
  tracked  : Tracked (owns sb D v) (fun b => bitOf sb v b = true) (DataBlock sb)
  reserved : ∀ b < dataStart sb, bitOf sb v b = true
  inUse    : InUse sb D inum
  canon    : Canonical (D inum)
  types    : ∀ j, InUse sb D j → IsFile (D j) ∨ (D j).type = T_DEV
  others   : ∀ j, j ≠ inum → InUse sb D j → IsFile (D j) → Covers (D j) v (blocks (D j).size)

/-- Between two states of an operation on inode `inum`: pointers stay where they are, and
    so does the data in the blocks, except for the indirect block of the inode.  The
    inodes on disk do not change. -/
structure Grown (sb : Superblock) (inum : Nat) (D : Nat → Dinode) (v : Disk)
    (D' : Nat → Dinode) (v' : Disk) : Prop where
  inodes : ∀ j, j ≠ inum → D' j = D j
  fields : { D inum with addrs := (D' inum).addrs } = D' inum
  disk   : ∀ c < sb.bmapstart, v' c = v c
  keeps  : ∀ q, owns sb D v q ≠ 0 → owns sb D' v' q = owns sb D v q
  data   : ∀ q, owns sb D v q ≠ 0 → q ≠ (inum, NDIRECT) →
    v' (owns sb D v q) = v (owns sb D v q)

lemma Grown.refl (sb : Superblock) (inum : Nat) (D : Nat → Dinode) (v : Disk) :
    Grown sb inum D v D v := ⟨fun _ _ => rfl, rfl, fun _ _ => rfl, fun _ _ => rfl, fun _ _ _ => rfl⟩

lemma Grown.trans {inum : Nat} {D'' : Nat → Dinode} {v'' : Disk} (h : Grown sb inum D v D' v')
    (h' : Grown sb inum D' v' D'' v'') : Grown sb inum D v D'' v'' := by
  refine ⟨fun j hj => (h'.inodes j hj).trans (h.inodes j hj), ?_,
    fun c hc => (h'.disk c hc).trans (h.disk c hc), fun q hq => ?_, fun q hq hne => ?_⟩
  · rw [← h'.fields, ← h.fields]
  · have hq' : owns sb D' v' q ≠ 0 := by rw [h.keeps q hq]; exact hq
    rw [h'.keeps q hq', h.keeps q hq]
  · have hq' : owns sb D' v' q ≠ 0 := by rw [h.keeps q hq]; exact hq
    have hd := h'.data q hq' hne
    rw [h.keeps q hq] at hd
    rw [hd, h.data q hq hne]

section Work

variable {sb : Superblock} {D : Nat → Dinode} {inum : Nat} {v : Disk}

lemma zero_not_data (sb : Superblock) : ¬DataBlock sb 0 := by
  rintro ⟨h, -⟩
  have := bmapstart_lt_dataStart sb
  omega

lemma IBLOCK_lt (hl : Areas sb) (hj : j < sb.ninodes) : IBLOCK j sb < sb.bmapstart := hl.inodes j hj

lemma IBLOCK_lt_dataStart (hl : Areas sb) (hj : j < sb.ninodes) : IBLOCK j sb < dataStart sb :=
  Nat.lt_trans (IBLOCK_lt hl hj) (bmapstart_lt_dataStart sb)

variable {ip : Dinode} {v' : Disk}

lemma Covers.congr {nb : Nat} (h : Covers ip v nb)
    (ho : ∀ p, ownBlock ip v' p = ownBlock ip v p) : Covers ip v' nb :=
  ⟨fun bn => by rw [← h.block bn, blockAt, blockAt, ho], h.indirect⟩

/-- A change of data blocks that are not indirect blocks. -/
lemma Core.frame (hl : Areas sb) (h : Core sb D inum v) (hmeta : ∀ b < dataStart sb, v' b = v b)
    (hind : ∀ j, owns sb D v (j, NDIRECT) ≠ 0 →
      v' (owns sb D v (j, NDIRECT)) = v (owns sb D v (j, NDIRECT))) : Core sb D inum v' := by
  have hbit : ∀ b < sb.size, bitOf sb v' b = bitOf sb v b :=
    fun b hb => bitOf_congr (hmeta _ (BBLOCK_lt hb))
  have howns := owns_congr hind
  refine ⟨fun j hj hlt => ?_, ?_, fun b hb => ?_, h.inUse, h.canon, h.types, fun j hj hu hf => ?_⟩
  · rw [dinodeAt_congr (hmeta _ (IBLOCK_lt_dataStart hl hlt))]
    exact h.disk j hj hlt
  · rw [howns]
    refine ⟨h.tracked.distinct, h.tracked.in_data, fun b hb => ?_⟩
    rw [hbit b hb.2]
    exact h.tracked.used_iff b hb
  · rw [hbit b (Nat.lt_of_lt_of_le hb hl.data)]
    exact h.reserved b hb
  · refine (h.others j hj hu hf).congr (fun p => ?_)
    rw [← owns_of_inUse hu, ← owns_of_inUse hu, howns]

variable {b : Nat}

/-- A block that `xv6fs_balloc` hands out: a data block that no slot holds; taking it
    changes neither the metadata outside the bitmap nor a block in use. -/
lemma Core.taken (h : Core sb D inum v) (hb : b < sb.size) (hfree : bitOf sb v b = false) :
    DataBlock sb b ∧ (∀ q, owns sb D v q ≠ b) ∧
    (∀ c < sb.size, bitOf sb (zeroed (marked sb v b) b) c = (bitOf sb v c || decide (c = b))) ∧
    (∀ c, c < sb.bmapstart ∨ (dataStart sb ≤ c ∧ c ≠ b) → zeroed (marked sb v b) b c = v c) := by
  have hdata : DataBlock sb b := by
    refine ⟨?_, hb⟩
    by_contra hlt
    rw [h.reserved b (by omega)] at hfree
    exact nomatch hfree
  have hbb := BBLOCK_lt hb
  have hbb' := bmapstart_le_BBLOCK sb b
  have hge := hdata.1
  have hstart := bmapstart_lt_dataStart sb
  refine ⟨hdata, h.tracked.fresh hdata (by rw [hfree]; decide), fun c hc => ?_, fun c hc => ?_⟩
  · rw [← bitOf_marked]
    refine bitOf_congr ?_
    have := BBLOCK_lt hc
    exact update_of_ne (by omega) _ _
  · unfold zeroed marked
    rw [update_of_ne (by omega), update_of_ne (by omega)]

lemma inUse_update (htype : ip.type = (D inum).type) (j : Nat) :
    InUse sb (update D inum ip) j ↔ InUse sb D j := by
  by_cases hj : j = inum
  · unfold InUse
    rw [hj, update_self, htype]
  · exact inUse_congr (update_of_ne hj _ _)

/-- A change of the inode and of its pointers that leaves the other inodes theirs. -/
lemma Core.change (h : Core sb D inum v) (htype : ip.type = (D inum).type) (hcanon : Canonical ip)
    (hdisk : ∀ j, j ≠ inum → j < sb.ninodes → dinodeAt sb v' j = dinodeAt sb v j)
    (htracked : Tracked (owns sb (update D inum ip) v')
      (fun b => bitOf sb v' b = true) (DataBlock sb))
    (hreserved : ∀ b < dataStart sb, bitOf sb v' b = true) (hothers : ∀ j p, j ≠ inum →
      owns sb (update D inum ip) v' (j, p) = owns sb D v (j, p)) :
    Core sb (update D inum ip) inum v' := by
  have hne : ∀ j, j ≠ inum → update D inum ip j = D j := fun j hj => update_of_ne hj _ _
  refine ⟨fun j hj hlt => ?_, htracked, hreserved, (inUse_update htype inum).mpr h.inUse, ?_,
    fun j hj => ?_, fun j hj hu hf => ?_⟩
  · rw [hne j hj, hdisk j hj hlt]
    exact h.disk j hj hlt
  · rwa [update_self]
  · have hu := (inUse_update htype j).mp hj
    by_cases hji : j = inum
    · subst hji
      unfold IsFile at *
      rw [update_self, htype]
      exact h.types j hu
    · rw [hne j hji]
      exact h.types j hu
  · have hu' := (inUse_update htype j).mp hu
    rw [hne j hj] at hf ⊢
    refine (h.others j hj hu' hf).congr (fun p => ?_)
    have := hothers j p hj
    rwa [owns_congr_inode (hne j hj), owns_of_inUse hu', owns_of_inUse hu'] at this

variable {p : Nat}

/-- A block was taken and its number stored in slot `p` of inode `inum`. -/
lemma Core.installed (hl : Areas sb) (h : Core sb D inum v) (hb : b < sb.size)
    (hfree : bitOf sb v b = false)
    (hempty : owns sb D v (inum, p) = 0) (htype : ip.type = (D inum).type)
    (hcanon : Canonical ip) (hdisk : ∀ c < sb.bmapstart, v' c = v c)
    (hbits : ∀ c < sb.size, bitOf sb v' c = (bitOf sb v c || decide (c = b)))
    (howns : owns sb (update D inum ip) v' = update (owns sb D v) (inum, p) b) :
    Core sb (update D inum ip) inum v' := by
  have hdata := (h.taken hb hfree).1
  refine h.change htype hcanon (fun j _ hlt => dinodeAt_congr (hdisk _ (IBLOCK_lt hl hlt))) ?_
    (fun c hc => ?_) (fun j p' hj => ?_)
  · rw [howns]
    refine h.tracked.install hempty (zero_not_data sb) hdata (by rw [hfree]; decide)
      (fun c hc => ?_)
    rw [hbits c hc.2, Bool.or_eq_true, decide_eq_true_iff]
  · rw [hbits c (Nat.lt_of_lt_of_le hc hl.data), h.reserved c hc]
    rfl
  · have hself : (j, p') ≠ (inum, p) := fun e => hj (Prod.mk.inj e).1
    rw [howns, update_of_ne hself]

/-- Store a block number in the inode. -/
def setAddr (ip : Dinode) (p b : Nat) : Dinode :=
  { ip with addrs := update ip.addrs p b }

lemma setAddr_addrs (ip : Dinode) (p b : Nat) : (setAddr ip p b).addrs = update ip.addrs p b := rfl

/-- A block number `b` in an empty address of the inode; a new indirect block is zero. -/
lemma owns_setAddr (hu : InUse sb D inum) (hp : p ≤ NDIRECT)
    (hempty : (D inum).addrs p = 0) (hb0 : b ≠ 0) (hind : ∀ j, owns sb D v (j, NDIRECT) ≠ 0 →
      v' (owns sb D v (j, NDIRECT)) = v (owns sb D v (j, NDIRECT)))
    (hzero : p = NDIRECT → ∀ k < NINDIRECT, getLE (v' b) 4 (4 * k) = 0) :
    owns sb (update D inum (setAddr (D inum) p b)) v' = update (owns sb D v) (inum, p) b := by
  have hv : owns sb D v' = owns sb D v := owns_congr hind
  have huse : InUse sb (update D inum (setAddr (D inum) p b)) inum := by
    unfold InUse
    rwa [update_self]
  funext q
  obtain ⟨j, p'⟩ := q
  by_cases hj : j = inum
  · subst hj
    rw [owns_of_inUse huse, update_self]
    by_cases hpp : p' = p
    · rw [hpp, ownBlock_addr hp, setAddr_addrs, update_self, update_self]
    have hself : (j, p') ≠ (j, p) := fun e => hpp (Prod.mk.inj e).2
    rw [update_of_ne hself, ← hv, owns_of_inUse hu]
    rcases slot_cases p' with hp' | ⟨k, hk, rfl⟩ | hp'
    · rw [ownBlock_addr hp', ownBlock_addr hp', setAddr_addrs, update_of_ne hpp]
    · by_cases hind : p = NDIRECT
      · -- the new indirect block is zero, and there was none before
        have ha : (setAddr (D j) p b).addrs NDIRECT = b := by
          rw [setAddr_addrs, hind, update_self]
        rw [ownBlock_entry hk (by rw [ha]; exact hb0), ha, hzero hind k hk,
          ownBlock_none (by omega) (.inr (hind ▸ hempty))]
      have ha : (setAddr (D j) p b).addrs NDIRECT = (D j).addrs NDIRECT := by
        rw [setAddr_addrs, update_of_ne (Ne.symm hind)]
      by_cases hi0 : (D j).addrs NDIRECT = 0
      · rw [ownBlock_none (by omega) (.inr (ha.trans hi0)), ownBlock_none (by omega) (.inr hi0)]
      · rw [ownBlock_entry hk (by rw [ha]; exact hi0), ownBlock_entry hk hi0, ha]
    · rw [ownBlock_none (by omega) (.inl hp'), ownBlock_none (by omega) (.inl hp')]
  · have hself : (j, p') ≠ (inum, p) := fun e => hj (Prod.mk.inj e).1
    rw [update_of_ne hself, owns_congr_inode (update_of_ne hj _ _), hv]

lemma owns_setEntry (hu : InUse sb D inum) {k : Nat} (hk : k < NINDIRECT)
    (hi : (D inum).addrs NDIRECT ≠ 0) (hword : getLE (v' ((D inum).addrs NDIRECT)) 4 (4 * k) = b)
    (hwords : ∀ k' < NINDIRECT, k' ≠ k → getLE (v' ((D inum).addrs NDIRECT)) 4 (4 * k') =
      getLE (v ((D inum).addrs NDIRECT)) 4 (4 * k'))
    (hothers : ∀ j, j ≠ inum → owns sb D v (j, NDIRECT) ≠ 0 →
      v' (owns sb D v (j, NDIRECT)) = v (owns sb D v (j, NDIRECT))) :
    owns sb D v' = update (owns sb D v) (inum, NDIRECT + 1 + k) b := by
  funext q
  obtain ⟨j, p⟩ := q
  by_cases hj : j = inum
  · subst hj
    rw [owns_of_inUse hu]
    by_cases hp : p = NDIRECT + 1 + k
    · rw [hp, update_self, ownBlock_entry hk hi, hword]
    have hself : (j, p) ≠ (j, NDIRECT + 1 + k) := fun e => hp (Prod.mk.inj e).2
    rw [update_of_ne hself, owns_of_inUse hu]
    rcases slot_cases p with hp' | ⟨k', hk', rfl⟩ | hp'
    · rw [ownBlock_addr hp', ownBlock_addr hp']
    · rw [ownBlock_entry hk' hi, ownBlock_entry hk' hi, hwords k' hk' (fun e => hp (by rw [e]))]
    · rw [ownBlock_none (by omega) (.inl hp'), ownBlock_none (by omega) (.inl hp')]
  have hself : (j, p) ≠ (inum, NDIRECT + 1 + k) := fun e => hj (Prod.mk.inj e).1
  rw [update_of_ne hself]
  by_cases hu' : InUse sb D j
  · rw [owns_of_inUse hu', owns_of_inUse hu']
    refine ownBlock_congr (fun ha => ?_) p
    have hq : owns sb D v (j, NDIRECT) = (D j).addrs NDIRECT := by
      rw [owns_of_inUse hu', ownBlock_addr le_rfl]
    rw [← hq]
    exact hothers j hj (by rw [hq]; exact ha)
  · rw [owns, if_neg hu', owns, if_neg hu']

lemma setAddr_canonical (hc : Canonical ip) (hp : p ≤ NDIRECT)
    (hb : b < 2 ^ 32) : Canonical (setAddr ip p b) := by
  refine ⟨hc.type, hc.major, hc.minor, hc.nlink, hc.size, fun i => ?_, fun i hi => ?_⟩
  · rw [setAddr_addrs]
    by_cases hip : i = p
    · rwa [hip, update_self]
    · rw [update_of_ne hip]
      exact hc.addrs i
  · rw [setAddr_addrs, update_of_ne (by omega)]
    exact hc.end_ i hi

lemma Core.take_addr (hl : Areas sb) (h : Core sb D inum v) (hb : b < sb.size)
    (hfree : bitOf sb v b = false) (hp : p ≤ NDIRECT) (hempty : (D inum).addrs p = 0) :
    Core sb (update D inum (setAddr (D inum) p b)) inum (zeroed (marked sb v b) b) ∧
    owns sb (update D inum (setAddr (D inum) p b)) (zeroed (marked sb v b) b) =
      update (owns sb D v) (inum, p) b ∧ Grown sb inum D v (update D inum (setAddr (D inum) p b))
      (zeroed (marked sb v b) b) ∧
    freeBlocks sb v = freeBlocks sb (zeroed (marked sb v b) b) + 1 := by
  obtain ⟨hdata, hfresh, hbits, hsame⟩ := h.taken hb hfree
  have hb0 : b ≠ 0 := fun e => zero_not_data sb (e ▸ hdata)
  have hkeep : ∀ q, owns sb D v q ≠ 0 →
      zeroed (marked sb v b) b (owns sb D v q) = v (owns sb D v q) :=
    fun q hq => hsame _ (.inr ⟨(h.tracked.in_data q hq).1, hfresh q⟩)
  have hzero : ∀ k < NINDIRECT, getLE (zeroed (marked sb v b) b b) 4 (4 * k) = 0 := by
    intro k hk
    have hk256 : k < 256 := hk
    unfold zeroed
    rw [update_self, getLE_fillBlock (by unfold BSIZE; omega)]
    exact getLE_zero (fun _ _ _ => rfl)
  have howns : owns sb (update D inum (setAddr (D inum) p b))
      (zeroed (marked sb v b) b) = update (owns sb D v) (inum, p) b :=
    owns_setAddr h.inUse hp hempty hb0 (fun j hj => hkeep _ hj) (fun _ => hzero)
  have hcanon : Canonical (setAddr (D inum) p b) :=
    setAddr_canonical h.canon hp (by have := hl.size; omega)
  have hslot : owns sb D v (inum, p) = 0 := by
    rw [owns_of_inUse h.inUse, ownBlock_addr hp, hempty]
  have hdisk : ∀ c < sb.bmapstart, zeroed (marked sb v b) b c = v c := fun c hc => hsame c (.inl hc)
  refine ⟨h.installed hl hb hfree hslot rfl hcanon hdisk hbits howns, howns,
    ⟨fun j hj => update_of_ne hj _ _, ?_, hdisk, fun q hq => ?_,
      fun q hq _ => hkeep q hq⟩, freeBlocks_taken hb hfree hbits⟩
  · rw [update_self]
    rfl
  · rw [howns, update_of_held hslot hq]

lemma Core.take_entry (hl : Areas sb) (h : Core sb D inum v) {k : Nat}
    (hb : b < sb.size) (hfree : bitOf sb v b = false) (hk : k < NINDIRECT)
    (hi : (D inum).addrs NDIRECT ≠ 0) (hempty : owns sb D v (inum, NDIRECT + 1 + k) = 0)
    {v₁ : Disk} (hv₁ : v₁ = zeroed (marked sb v b) b) (hv' : v' = update v₁ ((D inum).addrs NDIRECT)
      (fillBlock (v₁ ((D inum).addrs NDIRECT)) (putLE (v₁ ((D inum).addrs NDIRECT)) 4 (4 * k) b))) :
    Core sb D inum v' ∧ owns sb D v' = update (owns sb D v) (inum, NDIRECT + 1 + k) b ∧
    Grown sb inum D v D v' ∧ freeBlocks sb v = freeBlocks sb v' + 1 := by
  obtain ⟨hdata, hfresh, hbits, hsame⟩ := h.taken hb hfree
  rw [← hv₁] at hbits hsame
  have hk256 : k < 256 := hk
  have hind : owns sb D v (inum, NDIRECT) = (D inum).addrs NDIRECT := by
    rw [owns_of_inUse h.inUse, ownBlock_addr le_rfl]
  have hidata : DataBlock sb ((D inum).addrs NDIRECT) := by
    rw [← hind]
    exact h.tracked.in_data _ (by rw [hind]; exact hi)
  have hkeep : ∀ q, owns sb D v q ≠ 0 → q ≠ (inum, NDIRECT) →
      v' (owns sb D v q) = v (owns sb D v q) := by
    intro q hq hne
    have hother : owns sb D v q ≠ (D inum).addrs NDIRECT := by
      intro e
      exact hne (h.tracked.distinct q _ hq (e.trans hind.symm))
    rw [hv', update_of_ne hother]
    exact hsame _ (.inr ⟨(h.tracked.in_data q hq).1, hfresh q⟩)
  have hiv : v₁ ((D inum).addrs NDIRECT) = v ((D inum).addrs NDIRECT) :=
    hsame _ (.inr ⟨hidata.1, hind ▸ hfresh (inum, NDIRECT)⟩)
  have howns : owns sb D v' = update (owns sb D v) (inum, NDIRECT + 1 + k) b := by
    refine owns_setEntry h.inUse hk hi ?_ (fun k' hk' hne => ?_)
      (fun j hj hq => hkeep _ hq (fun e => hj (Prod.mk.inj e).1))
    · have hsize := hl.size
      rw [hv', update_self, getLE_fillBlock (by unfold BSIZE; omega), getLE_putLE,
        Nat.mod_eq_of_lt (show b < 256 ^ 4 by omega)]
    · have hk'256 : k' < 256 := hk'
      rw [hv', update_self, getLE_fillBlock (by unfold BSIZE; omega),
        getLE_putLE_of_disjoint (by omega), hiv]
  have hbits' : ∀ c < sb.size, bitOf sb v' c = (bitOf sb v c || decide (c = b)) := by
    intro c hc
    rw [← hbits c hc]
    refine bitOf_congr ?_
    rw [hv', update_of_ne (BBLOCK_ne hc hidata.1)]
  have hdisk : ∀ c < sb.bmapstart, v' c = v c := by
    intro c hc
    have hlt := bmapstart_lt_dataStart sb
    have hge := hidata.1
    rw [hv', update_of_ne (by omega)]
    exact hsame c (.inl hc)
  have hsame' : update D inum (D inum) = D := Function.update_eq_self _ _
  refine ⟨?_, howns, ⟨fun _ _ => rfl, rfl, hdisk, fun q hq => ?_, hkeep⟩,
    freeBlocks_taken hb hfree hbits'⟩
  · have := h.installed hl hb hfree hempty rfl h.canon hdisk hbits' (by rw [hsame']; exact howns)
    rwa [hsame'] at this
  · rw [howns, update_of_held hempty hq]

/-! ## Between operations -/

lemma Consistent.core (h : Consistent sb v) (hu : InUse sb (dinodeAt sb v) inum) :
    Core sb (dinodeAt sb v) inum v := by
  refine ⟨fun _ _ _ => rfl, ⟨h.distinct, h.in_data, h.bits⟩, h.reserved, hu,
    dinodeAt_canonical sb v inum, h.types, fun j _ hj hf => ?_⟩
  exact h.covers hj hf

/-- The end of an operation: the inode on disk is the one in memory. -/
lemma Core.consistent (h : Core sb D inum v) (hdisk : dinodeAt sb v inum = D inum)
    (hcov : IsFile (D inum) → Covers (D inum) v (blocks (D inum).size)) : Consistent sb v := by
  have hall : ∀ j < sb.ninodes, dinodeAt sb v j = D j := by
    intro j hj
    by_cases hji : j = inum
    · rw [hji, hdisk]
    · exact h.disk j hji hj
  have howns : owns sb (dinodeAt sb v) v = owns sb D v := owns_congr_inodes hall
  refine ⟨?_, ?_, ?_, h.reserved, fun j hj => ?_, fun j hj hf => ?_⟩
  · rw [howns]; exact h.tracked.distinct
  · rw [howns]; exact h.tracked.in_data
  · rw [howns]; exact h.tracked.used_iff
  · rw [hall j hj.2.1]
    exact h.types j ((inUse_congr (hall j hj.2.1)).mp hj)
  · have hu := (inUse_congr (hall j hj.2.1)).mp hj
    rw [hall j hj.2.1] at hf ⊢
    have hc : Covers (D j) v (blocks (D j).size) := by
      by_cases hji : j = inum
      · rw [hji] at hf ⊢
        exact hcov hf
      · exact h.others j hji hu hf
    exact ⟨hc.block, hc.indirect.trans (lt_blocks_iff _ _)⟩

/-- `xv6fs_iupdate` of an inode whose addresses are still the ones in memory. -/
lemma Core.store (hl : Areas sb) (h : Core sb D inum v) (hc : Canonical ip)
    (htype : ip.type = (D inum).type) (haddrs : ip.addrs = (D inum).addrs) :
    Core sb (update D inum ip) inum (updated sb v inum ip) ∧
    owns sb (update D inum ip) (updated sb v inum ip) = owns sb D v ∧
    (∀ b, b ≠ IBLOCK inum sb → updated sb v inum ip b = v b) := by
  have hother : ∀ b, b ≠ IBLOCK inum sb → updated sb v inum ip b = v b :=
    fun b hb => update_of_ne hb _ _
  have hib := IBLOCK_lt hl h.inUse.2.1
  have hlow := bmapstart_lt_dataStart sb
  have hbits : ∀ b, bitOf sb (updated sb v inum ip) b = bitOf sb v b := by
    intro b
    have := bmapstart_le_BBLOCK sb b
    exact bitOf_congr (hother _ (by omega))
  have hv : owns sb D (updated sb v inum ip) = owns sb D v := by
    refine owns_congr (fun j hj => hother _ ?_)
    have := (h.tracked.in_data _ hj).1
    omega
  have howns : owns sb (update D inum ip) (updated sb v inum ip) = owns sb D v := by
    rw [← hv]
    funext q
    obtain ⟨j, p⟩ := q
    by_cases hj : j = inum
    · rw [hj, owns_of_inUse ((inUse_update htype inum).mpr h.inUse), owns_of_inUse h.inUse,
        update_self]
      unfold ownBlock
      rw [haddrs]
    · exact owns_congr_inode (update_of_ne hj _ _) p
  refine ⟨h.change htype hc (fun j hj _ => dinodeAt_updated_of_ne sb v ip hj) ?_
    (fun b hb => (hbits b).trans (h.reserved b hb)) (fun j p _ => by rw [howns]), howns, hother⟩
  rw [howns]
  refine ⟨h.tracked.distinct, h.tracked.in_data, fun b hb => ?_⟩
  rw [hbits]
  exact h.tracked.used_iff b hb

end Work

end Xv6Image
