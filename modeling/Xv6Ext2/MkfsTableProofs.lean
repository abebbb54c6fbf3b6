import Xv6Ext2.MkfsProofs
import Xv6Ext2.Xv6TruncProofs

/-! # What mkfs builds, up to a number of inodes

    `mkfs` hands out blocks in order and writes the bitmap at the end.  `Img.view` is the
    image with the bitmap of the blocks handed out so far; it is a consistent image of the
    root device from the start until the size of the root directory is rounded up.

    `mkfs` does not look at `NINODES` when it hands out an inode.  What holds of the image
    is said here for the first `m` inodes, for every `m` up to `TABLE`, the number of inodes
    that the inode blocks have room for; `NINODES` is one such `m`.

    - `iappend_written` : `iappend` adds its bytes at the end of a file and leaves the other
      files alone;
    - `Filled.addFiles` : each host file gets an inode with its bytes;
    - `main_closed` : what `main` leaves behind. -/

namespace Mkfs

open ByteBlock BufCache Param Outcome Ownership FileIo DirName Xv6Alloc Xv6Inode Xv6Image

open Except (ok.inj)

open Function (update update_of_ne update_self)

/-- The number of inodes in the inode blocks. -/
def TABLE : Nat := ninodeblocks * IPB

/-- The superblock with another number of inodes. -/
def table (m : Nat) : Superblock := { sb with ninodes := m }

/-- The inodes that are numbered below `TABLE` lie before the bitmap. -/
lemma IBLOCK_lt_iff (inum : Nat) : IBLOCK inum sb < sb.bmapstart ↔ inum < TABLE := by
  have hstart : sb.inodestart = 32 := rfl
  have hbmap : sb.bmapstart = 45 := rfl
  have hipb : IPB = 16 := rfl
  have htable : TABLE = 208 := rfl
  rw [IBLOCK, hstart, hbmap, hipb, htable]
  omega

lemma table_areas {m : Nat} (hm : m ≤ TABLE) : Areas (table m) :=
  ⟨fun j hj => (IBLOCK_lt_iff j).mpr (Nat.lt_of_lt_of_le hj hm),
    show dataStart sb ≤ sb.size by decide, show sb.size < 2 ^ 31 by decide⟩

lemma dataStart_table (m : Nat) : dataStart (table m) = nmeta := show dataStart sb = nmeta by decide

variable {b : Nat}

lemma dataBlock_bounds {m : Nat} (h : DataBlock (table m) b) : 46 ≤ b ∧ b < FSSIZE := by
  have hge := h.1
  rw [dataStart_table] at hge
  exact ⟨hge, h.2⟩

/-- The image with the bitmap that `balloc` would write. -/
def Img.view (g : Img) : Disk := update g.sect sb.bmapstart (usedBits g.freeblock)

/-! ## The bitmap -/

lemma byteBit_low : ∀ r < 9, ∀ i < 8, byteBit (UInt8.ofNat (2 ^ r - 1)) i = decide (i < r) := by
  decide

lemma blockBit_usedBits (n c : Nat) : blockBit (usedBits n) c = decide (c < n) := by
  have hi : c % 8 < 8 := Nat.mod_lt _ (by decide)
  unfold blockBit usedBits
  by_cases hfull : 8 * (c / 8 + 1) ≤ n
  · rw [if_pos hfull, show (255 : UInt8) = UInt8.ofNat (2 ^ 8 - 1) from rfl,
      byteBit_low 8 (by decide) _ hi]
    exact decide_eq_decide.mpr ⟨fun _ => by omega, fun _ => hi⟩
  rw [if_neg hfull]
  by_cases hnone : n ≤ 8 * (c / 8)
  · rw [if_pos hnone, show (0 : UInt8) = UInt8.ofNat (2 ^ 0 - 1) from rfl,
      byteBit_low 0 (by decide) _ hi]
    exact decide_eq_decide.mpr ⟨fun h => by omega, fun h => by omega⟩
  · rw [if_neg hnone, byteBit_low (n - 8 * (c / 8)) (by omega) _ hi]
    exact decide_eq_decide.mpr ⟨fun h => by omega, fun h => by omega⟩

lemma setBit_usedBits (n : Nat) : setBit (usedBits n) n = usedBits (n + 1) := by
  refine block_ext (fun c => ?_)
  rw [blockBit_setBit, blockBit_usedBits, blockBit_usedBits, ← Bool.decide_or]
  exact decide_eq_decide.mpr (by omega)

/-- The blocks of the image have one bitmap block. -/
lemma BBLOCK_table (m : Nat) (h : b < FSSIZE) :
    BBLOCK b (table m) = sb.bmapstart ∧ b % BPB = b := by
  have hsize : FSSIZE = 1000 := rfl
  have hbpb : BPB = 8192 := rfl
  refine ⟨?_, Nat.mod_eq_of_lt (by omega)⟩
  rw [BBLOCK, Nat.div_eq_of_lt (by omega), Nat.zero_add]
  rfl

lemma bitOf_table (m : Nat) (g : Img) (h : b < FSSIZE) :
    bitOf (table m) g.view b = decide (b < g.freeblock) := by
  rw [bitOf, (BBLOCK_table m h).1, (BBLOCK_table m h).2, Img.view, update_self, blockBit_usedBits]

lemma view_of_ne (g : Img) (h : b ≠ sb.bmapstart) : g.view b = g.sect b := update_of_ne h _ _

variable {x : Nat}

lemma view_wsect (g : Img) (buf : Block) (hx : x ≠ sb.bmapstart) :
    (wsect x buf g).view = update g.view x buf := (Function.update_comm hx.symm _ _ _).symm

/-- The part of the state that is not on the image: blocks from `freeblock` on were never
    written. -/
structure Fits (g : Img) : Prop where
  size  : g.size = FSSIZE
  start : nmeta ≤ g.freeblock
  fresh : ∀ b, g.freeblock ≤ b → g.sect b = fun _ => 0

lemma fillBlock_zero : fillBlock (fun _ => 0) (fun _ => 0) = fun _ => 0 := by
  funext k
  by_cases hk : k < BSIZE
  · exact fillBlock_in hk
  · exact fillBlock_out (Nat.not_lt.mp hk)

variable {g : Img}

/-- Handing out the next block does to the image what `xv6fs_balloc` does. -/
lemma Fits.view_take (m : Nat) (h : Fits g) (hb : g.freeblock < FSSIZE) :
    Img.view { g with freeblock := g.freeblock + 1 } =
      zeroed (marked (table m) g.view g.freeblock) g.freeblock := by
  have hstart : 46 ≤ g.freeblock := h.start
  have hbmap : sb.bmapstart = 45 := rfl
  have hne : g.freeblock ≠ sb.bmapstart := by omega
  obtain ⟨hbb, hmod⟩ := BBLOCK_table m hb
  have hmark : marked (table m) g.view g.freeblock
      = update g.sect sb.bmapstart (usedBits (g.freeblock + 1)) := by
    rw [marked, hbb, hmod]
    have hself : g.view sb.bmapstart = usedBits g.freeblock := update_self _ _ _
    rw [hself, setBit_usedBits, Img.view, Function.update_idem]
    congr 1
    funext k
    by_cases hk : k < BSIZE
    · exact fillBlock_in hk
    have hsize : FSSIZE = 1000 := rfl
    have hk : 1024 ≤ k := Nat.not_lt.mp hk
    rw [fillBlock_out hk, usedBits, usedBits, if_neg (by omega), if_pos (by omega),
      if_neg (by omega), if_pos (by omega)]
  rw [zeroed, hmark, update_of_ne hne, h.fresh _ le_rfl, fillBlock_zero]
  funext c
  by_cases hc : c = g.freeblock
  · rw [hc, update_self, Img.view, update_of_ne hne]
    exact h.fresh _ le_rfl
  · rw [update_of_ne hc]
    rfl

lemma Fits.take (h : Fits g) : Fits { g with freeblock := g.freeblock + 1 } := by
  have hstart := h.start
  exact ⟨h.size, Nat.le_succ_of_le hstart, fun b hb => h.fresh b (Nat.le_of_succ_le hb)⟩

lemma Fits.wsect (h : Fits g) (buf : Block) (hx : x < g.freeblock)
    (hx' : x < FSSIZE) : Fits (wsect x buf g) := by
  refine ⟨?_, h.start, fun b hb => ?_⟩
  · show max g.size (x + 1) = FSSIZE
    rw [h.size]
    omega
  · have hb : g.freeblock ≤ b := hb
    show update g.sect x buf b = _
    rw [update_of_ne (by omega)]
    exact h.fresh b hb

lemma rsect_ok {buf : Block} (h : rsect x g = .ok buf) : x < g.size ∧ buf = g.sect x := by
  rw [rsect] at h
  split at h
  · next hx => exact ⟨hx, (ok.inj h).symm⟩
  · exact nomatch h

/-! ## The next block of a file -/

lemma addrOf_size (i : Nat) (din : Dinode) (g : Img) : (addrOf i din g).2.size = g.size := by
  rw [addrOf]
  split <;> rfl

lemma sectOf_size {fbn : Nat} {din din' : Dinode} {g' : Img}
    (h : sectOf fbn din g = .ok (x, din', g')) : g'.size = g.size := by
  rw [sectOf] at h
  split at h
  · obtain ⟨-, -, rfl⟩ := ok_triple_inj h
    exact addrOf_size _ _ _
  obtain ⟨⟨y, g1⟩, hword, h⟩ := bind_eq_ok.mp h
  obtain ⟨-, -, rfl⟩ := ok_triple_inj h
  rw [← addrOf_size NDIRECT din g]
  rw [wordOf] at hword
  obtain ⟨buf, hread, hword⟩ := bind_eq_ok.mp hword
  split at hword
  · obtain ⟨-, rfl⟩ := ok_pair_inj hword
    exact Nat.max_eq_left (rsect_ok hread).1
  · obtain ⟨-, rfl⟩ := ok_pair_inj hword
    rfl

section Blocks

variable {m : Nat} (hm : m ≤ TABLE) {D : Nat → Dinode} {inum nb : Nat} {g : Img}

include hm

variable {din : Dinode} {g' : Img}

lemma addrOf_core (hf : Fits g) (h : Core (table m) D inum g.view) {p : Nat} (hp : p ≤ NDIRECT)
    (hr : addrOf p (D inum) g = (din, g')) (hlt : din.addrs p < FSSIZE) :
    ((D inum).addrs p ≠ 0 ∧ din = D inum ∧ g' = g) ∨
    ((D inum).addrs p = 0 ∧ din.addrs p ≠ 0 ∧ din = setAddr (D inum) p g.freeblock ∧
      g' = { g with freeblock := g.freeblock + 1 } ∧
      Core (table m) (update D inum din) inum g'.view ∧ owns (table m) (update D inum din) g'.view =
        update (owns (table m) D g.view) (inum, p) g.freeblock ∧
      Grown (table m) inum D g.view (update D inum din) g'.view) := by
  rw [addrOf] at hr
  split at hr
  · next hz =>
    obtain ⟨rfl, rfl⟩ := Prod.mk.inj hr
    have hset : ∀ b, update (D inum).addrs p b p = b := fun b => update_self _ _ _
    have hlt : g.freeblock < FSSIZE := by rw [← hset g.freeblock]; exact hlt
    have hstart : 46 ≤ g.freeblock := hf.start
    have hfree : bitOf (table m) g.view g.freeblock = false := by
      rw [bitOf_table m g hlt]
      exact decide_eq_false (Nat.lt_irrefl _)
    obtain ⟨hcore, howns, hgrown, -⟩ := h.take_addr (table_areas hm) (p := p) hlt hfree hp hz
    rw [← hf.view_take m hlt] at hcore howns hgrown
    refine .inr ⟨hz, ?_, rfl, rfl, hcore, howns, hgrown⟩
    show update (D inum).addrs p g.freeblock p ≠ 0
    rw [hset]
    omega
  · next hz =>
    obtain ⟨rfl, rfl⟩ := Prod.mk.inj hr
    exact .inl ⟨hz, rfl, rfl⟩

variable {x : Nat}

lemma wordOf_core (hf : Fits g) (h : Core (table m) D inum g.view) {k : Nat} (hk : k < NINDIRECT)
    (hi : (D inum).addrs NDIRECT ≠ 0)
    (hr : wordOf ((D inum).addrs NDIRECT) k g = .ok (x, g')) (hx : x < FSSIZE) :
    (owns (table m) D g.view (inum, NDIRECT + 1 + k) ≠ 0 ∧ g' = g ∧
      x = owns (table m) D g.view (inum, NDIRECT + 1 + k)) ∨
    (owns (table m) D g.view (inum, NDIRECT + 1 + k) = 0 ∧ x ≠ 0 ∧ Fits g' ∧
      g'.freeinode = g.freeinode ∧ Core (table m) D inum g'.view ∧
      owns (table m) D g'.view = update (owns (table m) D g.view) (inum, NDIRECT + 1 + k) x ∧
      Grown (table m) inum D g.view D g'.view) := by
  have hind : owns (table m) D g.view (inum, NDIRECT) = (D inum).addrs NDIRECT := by
    rw [owns_of_inUse h.inUse, ownBlock_addr le_rfl]
  have hdata : DataBlock (table m) ((D inum).addrs NDIRECT) := by
    rw [← hind]
    exact h.tracked.in_data _ (by rw [hind]; exact hi)
  have hbmap : sb.bmapstart = 45 := rfl
  have hge : 46 ≤ (D inum).addrs NDIRECT := (dataBlock_bounds hdata).1
  have hne : (D inum).addrs NDIRECT ≠ sb.bmapstart := by omega
  have hword : owns (table m) D g.view (inum, NDIRECT + 1 + k) =
      getLE (g.sect ((D inum).addrs NDIRECT)) 4 (4 * k) := by
    rw [owns_of_inUse h.inUse, ownBlock_entry hk hi, view_of_ne g hne]
  rw [wordOf] at hr
  obtain ⟨buf, hread, hr⟩ := bind_eq_ok.mp hr
  obtain ⟨-, rfl⟩ := rsect_ok hread
  split at hr
  · next hz =>
    obtain ⟨rfl, rfl⟩ := ok_pair_inj hr
    have hstart : 46 ≤ g.freeblock := hf.start
    have hused : (D inum).addrs NDIRECT < g.freeblock := by
      have hbit := h.tracked.used_of_held (q := (inum, NDIRECT)) (by rw [hind]; exact hi)
      rw [hind, bitOf_table m g hdata.2] at hbit
      exact of_decide_eq_true hbit
    have hfree : bitOf (table m) g.view g.freeblock = false := by
      rw [bitOf_table m g hx]
      exact decide_eq_false (Nat.lt_irrefl _)
    have hfits := (hf.take.wsect (putLE (g.sect ((D inum).addrs NDIRECT)) 4 (4 * k) g.freeblock)
      (x := (D inum).addrs NDIRECT) (Nat.lt_succ_of_lt hused) hdata.2)
    have hview : (wsect ((D inum).addrs NDIRECT)
        (putLE (g.sect ((D inum).addrs NDIRECT)) 4 (4 * k) g.freeblock)
        { g with freeblock := g.freeblock + 1 }).view =
        update (zeroed (marked (table m) g.view g.freeblock) g.freeblock) ((D inum).addrs NDIRECT)
          (fillBlock
            (zeroed (marked (table m) g.view g.freeblock) g.freeblock ((D inum).addrs NDIRECT))
            (putLE
              (zeroed (marked (table m) g.view g.freeblock) g.freeblock ((D inum).addrs NDIRECT))
              4 (4 * k) g.freeblock)) := by
      rw [view_wsect _ _ hne, hf.view_take m hx, ← hf.view_take m hx, view_of_ne _ hne]
      congr 1
      funext j
      by_cases hj : j < BSIZE
      · rw [fillBlock_in hj]
      · have hk256 : k < 256 := hk
        rw [fillBlock_out (Nat.not_lt.mp hj), putLE_out (by unfold BSIZE at hj; omega)]
    obtain ⟨hcore, howns, hgrown, -⟩ := h.take_entry (table_areas hm) hx hfree hk hi
      (hword.trans hz) rfl hview
    exact .inr ⟨hword.trans hz, by omega, hfits, rfl, hcore, howns, hgrown⟩
  · next hz =>
    obtain ⟨rfl, rfl⟩ := ok_pair_inj hr
    exact .inl ⟨by rw [hword]; exact hz, rfl, hword.symm⟩

omit hm in
lemma sectOf_old (h : Working (table m) D inum nb g.view) {fbn : Nat} (hbn : fbn < nb)
    (hr : sectOf fbn (D inum) g = .ok (x, din, g')) :
    x = blockAt (D inum) g.view fbn ∧ din = D inum ∧ g' = g := by
  have hne := (h.covers.block fbn).mpr hbn
  rw [sectOf] at hr
  by_cases hd : fbn < NDIRECT
  · have hb : blockAt (D inum) g.view fbn = (D inum).addrs fbn := by
      rw [blockAt, slotOf_direct hd, ownBlock_addr hd.le]
    rw [hb] at hne ⊢
    rw [if_pos hd, addrOf, if_neg hne] at hr
    obtain ⟨rfl, rfl, rfl⟩ := ok_triple_inj hr
    exact ⟨rfl, rfl, rfl⟩
  have hi : (D inum).addrs NDIRECT ≠ 0 := h.covers.indirect.mpr (by omega)
  obtain ⟨k, rfl⟩ : ∃ k, fbn = NDIRECT + k := ⟨fbn - NDIRECT, by omega⟩
  have hmax := h.covers.le_max
  have hk : k < NINDIRECT := by unfold MAXFILE at hmax; omega
  rw [if_neg hd, addrOf, if_neg hi, Nat.add_sub_cancel_left] at hr
  obtain ⟨⟨y, g1⟩, hword, hr⟩ := bind_eq_ok.mp hr
  obtain ⟨rfl, rfl, rfl⟩ := ok_triple_inj hr
  obtain ⟨buf, hread, hword⟩ := bind_eq_ok.mp hword
  obtain ⟨-, rfl⟩ := rsect_ok hread
  have hdata : DataBlock (table m) ((D inum).addrs NDIRECT) := by
    have := h.core.tracked.in_data (inum, NDIRECT)
    rw [owns_of_inUse h.core.inUse, ownBlock_addr le_rfl] at this
    exact this hi
  have hge : 46 ≤ (D inum).addrs NDIRECT := (dataBlock_bounds hdata).1
  have hbmap : sb.bmapstart = 45 := rfl
  have hb : blockAt (D inum) g.view (NDIRECT + k) =
      getLE (g.sect ((D inum).addrs NDIRECT)) 4 (4 * k) := by
    rw [blockAt, slotOf_indirect, ownBlock_entry hk hi, view_of_ne g (by omega)]
  rw [hb] at hne ⊢
  rw [if_neg hne] at hword
  obtain ⟨rfl, rfl⟩ := ok_pair_inj hword
  exact ⟨rfl, rfl, rfl⟩

lemma sectOf_new (hf : Fits g) (h : Working (table m) D inum nb g.view) (hmax : nb < MAXFILE)
    (hr : sectOf nb (D inum) g = .ok (x, din, g')) (hx : x < FSSIZE) :
    Fits g' ∧ g'.freeinode = g.freeinode ∧ ∃ D', D' inum = din ∧
      Working (table m) D' inum (nb + 1) g'.view ∧ Grown (table m) inum D g.view D' g'.view ∧
      x = blockAt din g'.view nb := by
  rw [sectOf] at hr
  by_cases hd : nb < NDIRECT
  · have hempty : (D inum).addrs nb = 0 := by
      by_contra hne
      have hb : blockAt (D inum) g.view nb = (D inum).addrs nb := by
        rw [blockAt, slotOf_direct hd, ownBlock_addr hd.le]
      exact Nat.lt_irrefl nb ((h.covers.block nb).mp (by rw [hb]; exact hne))
    rw [if_pos hd] at hr
    obtain ⟨⟨din1, g1⟩, haddr⟩ : ∃ r, addrOf nb (D inum) g = r := ⟨_, rfl⟩
    rw [haddr] at hr
    obtain ⟨rfl, rfl, rfl⟩ := ok_triple_inj hr
    rcases addrOf_core hm hf h.core hd.le haddr hx with
      ⟨hne, -⟩ | ⟨-, hb0, hdin, hg, hcore, howns, hgrown⟩
    · exact absurd hempty hne
    have haddrs : din1.addrs nb = g.freeblock := by
      rw [hdin, setAddr_addrs, update_self]
    refine ⟨by rw [hg]; exact hf.take, by rw [hg], update D inum din1,
      update_self _ _ _, ⟨hcore, ?_⟩, hgrown, ?_⟩
    · refine h.covers.of_owns h.core hcore hb0 ?_ (fun p hp hne => ?_) ?_
      · rw [howns, slotOf_direct hd, update_self, haddrs]
      · rw [slotOf_direct hd] at hne
        have hself : (inum, p) ≠ (inum, nb) := fun e => hne (Prod.mk.inj e).2
        rw [howns, update_of_ne hself]
      · rw [update_self, hdin, setAddr_addrs, update_of_ne (by omega), h.covers.indirect]
        omega
    · rw [blockAt, slotOf_direct hd, ownBlock_addr hd.le]
  obtain ⟨k, rfl⟩ : ∃ k, nb = NDIRECT + k := ⟨nb - NDIRECT, by omega⟩
  have hk : k < NINDIRECT := by unfold MAXFILE at hmax; omega
  have hempty : owns (table m) D g.view (inum, NDIRECT + 1 + k) = 0 := by
    by_contra hne
    rw [← slotOf_indirect, ← h.core.blockAt_eq] at hne
    exact Nat.lt_irrefl _ ((h.covers.block _).mp hne)
  rw [if_neg hd, Nat.add_sub_cancel_left] at hr
  obtain ⟨⟨din1, g1⟩, haddr⟩ : ∃ r, addrOf NDIRECT (D inum) g = r := ⟨_, rfl⟩
  rw [haddr] at hr
  obtain ⟨⟨y, g2⟩, hword, hr⟩ := bind_eq_ok.mp hr
  obtain ⟨rfl, rfl, rfl⟩ := ok_triple_inj hr
  have hsize1 : g1.size = FSSIZE := by
    rw [← hf.size, ← addrOf_size NDIRECT (D inum) g, haddr]
  have hindlt : din1.addrs NDIRECT < FSSIZE := by
    obtain ⟨buf, hread, -⟩ := bind_eq_ok.mp hword
    rw [← hsize1]
    exact (rsect_ok hread).1
  -- the indirect block is there or new
  obtain ⟨D1, rfl, hf1, hinode1, hi, hcore, hgrown, hslots⟩ : ∃ D1, D1 inum = din1 ∧ Fits g1 ∧
      g1.freeinode = g.freeinode ∧ (D1 inum).addrs NDIRECT ≠ 0 ∧ Core (table m) D1 inum g1.view ∧
      Grown (table m) inum D g.view D1 g1.view ∧ ∀ p, p ≠ NDIRECT →
        owns (table m) D1 g1.view (inum, p) = owns (table m) D g.view (inum, p) := by
    rcases addrOf_core hm hf h.core le_rfl haddr hindlt with
      ⟨hne, rfl, rfl⟩ | ⟨-, hb0, -, hg, hcore, howns, hgrown⟩
    · exact ⟨D, rfl, hf, rfl, hne, h.core, Grown.refl _ _ _ _, fun _ _ => rfl⟩
    refine ⟨update D inum din1, update_self _ _ _, by rw [hg]; exact hf.take,
      by rw [hg], by rw [update_self]; exact hb0, hcore, hgrown, fun p hp => ?_⟩
    have hself : (inum, p) ≠ (inum, NDIRECT) := fun e => hp (Prod.mk.inj e).2
    rw [howns, update_of_ne hself]
  have hempty1 : owns (table m) D1 g1.view (inum, NDIRECT + 1 + k) = 0 := by
    rw [hslots _ (by omega), hempty]
  rcases wordOf_core hm hf1 hcore hk hi hword hx with
    ⟨hne, -⟩ | ⟨-, hy0, hf2, hinode2, hcore2, howns2, hgrown2⟩
  · exact absurd hempty1 hne
  refine ⟨hf2, hinode2.trans hinode1, D1, rfl, ⟨hcore2, ?_⟩, hgrown.trans hgrown2, ?_⟩
  · refine h.covers.of_owns h.core hcore2 hy0 ?_ (fun p hp hne => ?_) ?_
    · rw [howns2, slotOf_indirect, update_self]
    · rw [slotOf_indirect] at hne
      have hself : (inum, p) ≠ (inum, NDIRECT + 1 + k) := fun e => hne (Prod.mk.inj e).2
      rw [howns2, update_of_ne hself, hslots p hp]
    · exact ⟨fun _ => by omega, fun _ => hi⟩
  · rw [hcore2.blockAt_eq, howns2, slotOf_indirect, update_self]

omit hm in
lemma block_used (h : Working (table m) D inum nb g.view) {bn : Nat} (hbn : bn < nb) :
    DataBlock (table m) (blockAt (D inum) g.view bn) ∧
      blockAt (D inum) g.view bn < g.freeblock := by
  have hne := (h.covers.block bn).mpr hbn
  rw [h.core.blockAt_eq] at hne ⊢
  have hdata := h.core.tracked.in_data _ hne
  have hbit := h.core.tracked.used_of_held hne
  rw [bitOf_table m g hdata.2] at hbit
  exact ⟨hdata, of_decide_eq_true hbit⟩

/-- The block at `off`, at the end of a file of `off` bytes: there already, or the next. -/
lemma sectOf_end (hf : Fits g) {off : Nat} (h : Working (table m) D inum (blocks off) g.view)
    (hmax : off / BSIZE < MAXFILE)
    (hr : sectOf (off / BSIZE) (D inum) g = .ok (x, din, g')) (hx : x < FSSIZE) :
    Fits g' ∧ g'.freeinode = g.freeinode ∧ ∃ D', D' inum = din ∧
      Working (table m) D' inum (max (blocks off) (off / BSIZE + 1)) g'.view ∧
      Grown (table m) inum D g.view D' g'.view ∧ x = blockAt din g'.view (off / BSIZE) := by
  by_cases hold : off / BSIZE < blocks off
  · obtain ⟨rfl, rfl, rfl⟩ := sectOf_old h hold hr
    rw [Nat.max_eq_left hold]
    exact ⟨hf, rfl, D, rfl, h, Grown.refl _ _ _ _, rfl⟩
  have hblocks : blocks off = off / BSIZE := by unfold blocks BSIZE at *; omega
  rw [← hblocks] at hr hmax ⊢
  rw [Nat.max_eq_right (Nat.le_succ _)]
  exact sectOf_new hm hf h hmax hr hx

end Blocks

/-- The bytes that one turn of the loop of `iappend` stores. -/
def chunk (off len : Nat) : Nat := min len ((off / BSIZE + 1) * BSIZE - off)

/-- The image after they are stored in sector `x`. -/
def stored (x off : Nat) (p : List UInt8) (g : Img) : Img :=
  wsect x (blit (g.sect x) (off - off / BSIZE * BSIZE) (chunk off p.length) (cstr p)) g

lemma chunk_bounds (off : Nat) {len : Nat} (hlen : len ≠ 0) :
    1 ≤ chunk off len ∧ chunk off len ≤ len ∧ off % BSIZE + chunk off len ≤ BSIZE := by
  unfold chunk BSIZE
  omega

/-- What one turn of the loop does when the loop returns. -/
lemma appendFrom_turn {fuel off : Nat} {p : List UInt8} {din : Dinode} {r : Nat × Dinode × Img}
    (hnil : p.length ≠ 0) (hr : appendFrom (fuel + 1) off p din g = .ok r) :
    off / BSIZE < MAXFILE ∧ ∃ x din₁ g₁, sectOf (off / BSIZE) din g = .ok (x, din₁, g₁) ∧
      x < g.size ∧ appendFrom fuel (off + chunk off p.length) (p.drop (chunk off p.length)) din₁
        (stored x off p g₁) = .ok r := by
  rw [appendFrom, if_neg hnil] at hr
  by_cases hmax : MAXFILE ≤ off / BSIZE
  · rw [if_pos hmax] at hr
    cases hr
  rw [if_neg hmax] at hr
  obtain ⟨⟨x, din1, g1⟩, hsect, hr⟩ := bind_eq_ok.mp hr
  obtain ⟨buf, hread, hr⟩ := bind_eq_ok.mp hr
  obtain ⟨hx, rfl⟩ := rsect_ok hread
  rw [sectOf_size hsect] at hx
  exact ⟨Nat.not_le.mp hmax, x, din1, g1, hsect, hx, hr⟩

section Append

variable {m : Nat} (hm : m ≤ TABLE) {D : Nat → Dinode} {inum : Nat} {g : Img}

include hm

lemma stored_wrote (hf : Fits g) {off : Nat} (h : Working (table m) D inum (blocks off) g.view)
    (hmax : off / BSIZE < MAXFILE) {din : Dinode} {g₁ : Img}
    (hsect : sectOf (off / BSIZE) (D inum) g = .ok (x, din, g₁)) (hx : x < FSSIZE)
    {p : List UInt8} (hnil : p.length ≠ 0) :
    nmeta ≤ x ∧ Fits (stored x off p g₁) ∧ (stored x off p g₁).freeinode = g.freeinode ∧
      ∃ D₁, D₁ inum = din ∧
        Working (table m) D₁ inum (blocks (off + chunk off p.length)) (stored x off p g₁).view ∧
        Wrote (table m) inum D g.view D₁ (stored x off p g₁).view (blocks off) off
          (chunk off p.length) (cstr p) := by
  obtain ⟨hf1, hinode1, D1, rfl, h1, hgrown, rfl⟩ := sectOf_end hm hf h hmax hsect hx
  obtain ⟨hn1, hn2, hn3⟩ := chunk_bounds off hnil
  obtain ⟨hdata, hused⟩ := block_used h1 (show off / BSIZE < _ by omega)
  have hge := (dataBlock_bounds hdata).1
  have hbmap : sb.bmapstart = 45 := rfl
  have hne : blockAt (D1 inum) g₁.view (off / BSIZE) ≠ sb.bmapstart := by omega
  have hview : (stored (blockAt (D1 inum) g₁.view (off / BSIZE)) off p g₁).view =
      update g₁.view (blockAt (D1 inum) g₁.view (off / BSIZE))
        (fillBlock (g₁.view (blockAt (D1 inum) g₁.view (off / BSIZE)))
          (blit (g₁.view (blockAt (D1 inum) g₁.view (off / BSIZE))) (off % BSIZE)
            (chunk off p.length) (cstr p))) := by
    have hmod : off - off / BSIZE * BSIZE = off % BSIZE := by unfold BSIZE; omega
    rw [stored, view_wsect _ _ hne, view_of_ne g₁ hne, hmod]
    congr 1
    funext j
    by_cases hj : j < BSIZE
    · rw [fillBlock_in hj]
    · rw [fillBlock_out (Nat.not_lt.mp hj), blit_out (by omega)]
  obtain ⟨hw2, -, hwrote⟩ := write_turn (table_areas hm) h (by unfold blocks BSIZE; omega) hn3 h1
    hgrown hview
  have hblocks : max (blocks off) (off / BSIZE + 1) = blocks (off + chunk off p.length) := by
    unfold blocks BSIZE at *
    omega
  rw [hblocks] at hw2
  exact ⟨hge, hf1.wsect _ hused hdata.2, hinode1, D1, rfl, hw2, hwrote⟩

/-- **The loop of `iappend`** stores the bytes behind those of the file. -/
lemma appendFrom_wrote (fuel : Nat) : ∀ (off : Nat) (p : List UInt8) (D : Nat → Dinode)
    (g : Img) (off' : Nat) (din : Dinode) (g' : Img), Fits g →
    Working (table m) D inum (blocks off) g.view → p.length ≤ fuel →
    appendFrom fuel off p (D inum) g = .ok (off', din, g') →
    off' = off + p.length ∧ (p ≠ [] → off' ≤ MAXFILE * BSIZE) ∧ Fits g' ∧
    g'.freeinode = g.freeinode ∧ ∃ D', D' inum = din ∧
      Working (table m) D' inum (blocks off') g'.view ∧
      Wrote (table m) inum D g.view D' g'.view (blocks off) off p.length (cstr p) := by
  have hdone : ∀ (off : Nat) (p : List UInt8) (D : Nat → Dinode) (g : Img), Fits g →
      Working (table m) D inum (blocks off) g.view → p = [] →
      off = off + p.length ∧ (p ≠ [] → off ≤ MAXFILE * BSIZE) ∧ Fits g ∧
      g.freeinode = g.freeinode ∧ ∃ D', D' inum = D inum ∧
        Working (table m) D' inum (blocks off) g.view ∧
        Wrote (table m) inum D g.view D' g.view (blocks off) off p.length (cstr p) := by
    rintro off p D g hf h rfl
    refine ⟨rfl, fun hne => absurd rfl hne, hf, rfl, D, rfl, h, fun _ _ => rfl, rfl, fun _ _ => rfl,
      fun _ _ => rfl, fun _ _ _ => rfl, fun k _ => ?_⟩
    rw [if_neg (by simp only [List.length_nil]; omega)]
  induction fuel with
  | zero =>
    intro off p D g off' din g' hf h hlen hr
    obtain ⟨rfl, rfl, rfl⟩ := ok_triple_inj hr
    exact hdone off p D g hf h (List.length_eq_zero_iff.mp (Nat.le_zero.mp hlen))
  | succ fuel ih =>
    intro off p D g off' din g' hf h hlen hr
    by_cases hnil : p.length = 0
    · rw [appendFrom, if_pos hnil] at hr
      obtain ⟨rfl, rfl, rfl⟩ := ok_triple_inj hr
      exact hdone off p D g hf h (List.length_eq_zero_iff.mp hnil)
    obtain ⟨hmax, x, din1, g1, hsect, hx, hr⟩ := appendFrom_turn hnil hr
    rw [hf.size] at hx
    obtain ⟨-, hf2, hinode2, D1, rfl, hw2, hwrote⟩ := stored_wrote hm hf h hmax hsect hx hnil
    obtain ⟨hn1, hn2, hn3⟩ := chunk_bounds off hnil
    have hlen' : (p.drop (chunk off p.length)).length = p.length - chunk off p.length :=
      List.length_drop
    obtain ⟨hoff, hlim, hf', hinode', D', hD', hw', hwrote'⟩ :=
      ih _ _ D1 _ off' din g' hf2 hw2 (by omega) hr
    refine ⟨by omega, fun _ => ?_, hf', hinode'.trans hinode2, D', hD', hw', ?_⟩
    · by_cases hrest : p.drop (chunk off p.length) = []
      · rw [hrest, List.length_nil] at hoff
        have : MAXFILE = 268 := rfl
        unfold BSIZE at *
        omega
      · exact hlim hrest
    · have hsrc : cstr (p.drop (chunk off p.length)) =
          fun k => cstr p (chunk off p.length + k) := by
        funext k
        rw [cstr, cstr, List.getD_eq_getElem?_getD, List.getD_eq_getElem?_getD, List.getElem?_drop]
      rw [hsrc, hlen'] at hwrote'
      have := hwrote.trans hwrote' (by unfold blocks BSIZE; omega)
      rwa [show chunk off p.length + (p.length - chunk off p.length) = p.length by omega] at this

end Append

/-! ## Files -/

/-- The image between two operations. -/
structure Sound (m : Nat) (g : Img) : Prop where
  fits       : Fits g
  consistent : Consistent (table m) g.view
  first      : 1 ≤ g.freeinode
  unused     : ∀ j, g.freeinode ≤ j → j < m → (dinodeAt (table m) g.view j).type = 0

section Files

variable {m : Nat} (hm : m ≤ TABLE) {g : Img} {inum : Nat}

include hm

/-- The inode blocks lie before the bitmap. -/
lemma IBLOCK_bounds (h : inum < m) : IBLOCK inum sb < sb.bmapstart ∧ IBLOCK inum sb < FSSIZE := by
  have := (IBLOCK_lt_iff inum).mpr (Nat.lt_of_lt_of_le h hm)
  have hbmap : sb.bmapstart = 45 := rfl
  have hsize : FSSIZE = 1000 := rfl
  omega

lemma rinode_eq (hf : Fits g) (h : inum < m) :
    rinode inum g = .ok (dinodeAt (table m) g.view inum) := by
  obtain ⟨h1, h2⟩ := IBLOCK_bounds hm h
  rw [rinode, rsect, if_pos (by rw [hf.size]; exact h2), ok_bind, ← view_of_ne g (by omega)]
  rfl

lemma winode_eq (hf : Fits g) (h : inum < m) (ip : Dinode) :
    ∃ g', winode inum ip g = .ok g' ∧ Fits g' ∧ g'.freeinode = g.freeinode ∧
      g'.freeblock = g.freeblock ∧ g'.view = updated (table m) g.view inum ip := by
  obtain ⟨h1, h2⟩ := IBLOCK_bounds hm h
  have hstart : 46 ≤ g.freeblock := hf.start
  have hbmap : sb.bmapstart = 45 := rfl
  have hne : IBLOCK inum sb ≠ sb.bmapstart := by omega
  refine ⟨_, by rw [winode, rsect, if_pos (by rw [hf.size]; exact h2), ok_bind],
    hf.wsect _ (by omega) h2, rfl, rfl, ?_⟩
  show _ = updated sb g.view inum ip
  rw [view_wsect _ _ hne, updated, view_of_ne g hne]
  congr 1
  funext j
  by_cases hj : j < BSIZE
  · rw [fillBlock_in hj]
  · have := slot_in_block inum
    rw [fillBlock_out (Nat.not_lt.mp hj), putDinode_out (by omega)]

omit hm in
lemma updated_before (v : Disk) (inum : Nat) (ip : Dinode) {c : Nat}
    (hc : c < sb.inodestart) : updated (table m) v inum ip c = v c := by
  have hib : sb.inodestart ≤ IBLOCK inum (table m) := Nat.le_add_left _ _
  exact update_of_ne (by omega) _ _

variable {p : List UInt8} {g' : Img}

/-- **`iappend` adds its bytes at the end of a file** and leaves the other files alone. -/
lemma iappend_written (h : Sound m g) (hu : InUse (table m) (dinodeAt (table m) g.view) inum)
    (hfile : IsFile (dinodeAt (table m) g.view inum)) (hp : p ≠ [])
    (hr : iappend inum p g = .ok g') : Sound m g' ∧ g'.freeinode = g.freeinode ∧
      Written (table m) inum g.view (dinodeAt (table m) g'.view inum) g'.view
        (dinodeAt (table m) g.view inum).size p.length (cstr p) ∧
      ∀ c < sb.inodestart, g'.view c = g.view c := by
  have hlt : inum < m := hu.2.1
  have hpos := List.length_pos_iff.mpr hp
  rw [iappend, rinode_eq hm h.fits hlt, ok_bind] at hr
  obtain ⟨⟨off, din, g1⟩, happend, hr⟩ := bind_eq_ok.mp hr
  obtain ⟨rfl, hlim, hf1, hinode, D', rfl, hw', hwrote⟩ :=
    appendFrom_wrote hm _ _ _ _ _ _ _ _ h.fits (h.consistent.working hu hfile) le_rfl happend
  obtain ⟨g2, hwrite, hf2, hinode2, -, hview⟩ := winode_eq hm hf1 hlt
    { D' inum with size := (dinodeAt (table m) g.view inum).size + p.length }
  obtain rfl : g2 = g' := ok.inj (hwrite.symm.trans hr)
  have hmax := hlim hp
  have hwritten := hwrote.written_grown (table_areas hm) h.consistent hw' (by omega)
    (by have : MAXFILE * BSIZE = 274432 := rfl; omega) rfl
  rw [← hview] at hwritten
  have hstored := hwritten.stored
  rw [← hstored] at hwritten
  refine ⟨⟨hf2, hwritten.consistent, ?_, fun j hj hjlt => ?_⟩, hinode2.trans hinode, hwritten,
    fun c hc => ?_⟩
  · rw [hinode2, hinode]
    exact h.first
  · rw [hinode2, hinode] at hj
    have hji : j ≠ inum := by
      rintro rfl
      exact hu.2.2 (h.unused j hj hjlt)
    rw [hwritten.others j hji hjlt]
    exact h.unused j hj hjlt
  · rw [hview, updated_before _ _ _ hc]
    exact hwrote.disk c (hc.trans (show sb.inodestart < sb.bmapstart by decide))

def fresh (type : Nat) : Dinode := ⟨type, 0, 0, 1, 0, fun _ => 0⟩

/-- `ialloc` takes the next inode and leaves the files alone. -/
lemma ialloc_image (h : Sound m g) (hlt : g.freeinode < m) {type : Nat}
    (htype : type = T_DIR ∨ type = T_FILE) (hr : ialloc type g = .ok (inum, g')) :
    inum = g.freeinode ∧ g'.freeinode = g.freeinode + 1 ∧ Sound m g' ∧
      dinodeAt (table m) g'.view inum = fresh type ∧
      (∀ j, j ≠ inum → dinodeAt (table m) g'.view j = dinodeAt (table m) g.view j) ∧
      (∀ c < sb.inodestart, g'.view c = g.view c) ∧
      ∀ j, j ≠ inum → InUse (table m) (dinodeAt (table m) g.view) j →
        IsFile (dinodeAt (table m) g.view j) → content (dinodeAt (table m) g'.view j) g'.view =
          content (dinodeAt (table m) g.view j) g.view := by
  have hfits : Fits { g with freeinode := g.freeinode + 1 } :=
    ⟨h.fits.size, h.fits.start, h.fits.fresh⟩
  obtain ⟨g1, hwrite, hf1, hinode, -, hview⟩ := winode_eq hm hfits hlt (fresh type)
  have hview : g1.view = updated (table m) g.view g.freeinode (fresh type) := hview
  obtain ⟨rfl, rfl⟩ : g.freeinode = inum ∧ g1 = g' := by
    rw [ialloc, show (⟨type, 0, 0, 1, 0, fun _ => 0⟩ : Dinode) = fresh type from rfl, hwrite] at hr
    exact ok_pair_inj hr
  have hcanon : Canonical (fresh type) := by
    have hzero : ∀ w, 0 < 2 ^ w := Nat.two_pow_pos
    refine ⟨?_, hzero _, hzero _, Nat.one_lt_two_pow (by decide), hzero _, fun _ => hzero _,
      fun _ _ => rfl⟩
    rcases htype with rfl | rfl <;> decide
  have hself : dinodeAt (table m) g1.view g.freeinode = fresh type := by
    rw [hview]
    exact dinodeAt_updated sb g.view hcanon
  have hothers : ∀ j, j ≠ g.freeinode →
      dinodeAt (table m) g1.view j = dinodeAt (table m) g.view j := by
    intro j hj
    rw [hview]
    exact dinodeAt_updated_of_ne sb g.view _ hj
  have hfree := h.unused g.freeinode le_rfl hlt
  obtain ⟨hib, -⟩ := IBLOCK_bounds hm hlt
  have hib : IBLOCK g.freeinode (table m) < sb.bmapstart := hib
  have hbmap : sb.bmapstart = 45 := rfl
  have hsame : ∀ b, sb.bmapstart ≤ b → g1.view b = g.view b := by
    intro b hb
    rw [hview]
    exact update_of_ne (by omega) _ _
  refine ⟨rfl, hinode, ⟨hf1, ?_, by rw [hinode]; exact Nat.le_succ_of_le h.first,
    fun j hj hjlt => ?_⟩, hself, hothers, fun c hc => ?_, fun j hj hu hfile => ?_⟩
  · refine h.consistent.replace hself hothers hsame (fun p => ?_) (fun _ => rfl) rfl (fun _ => ?_)
    · rw [owns, if_neg (fun hu => hu.2.2 hfree)]
    · rcases htype with rfl | rfl
      · exact .inl (.inr rfl)
      · exact .inl (.inl rfl)
  · rw [hinode] at hj
    have hj : g.freeinode + 1 ≤ j := hj
    rw [hothers j (by omega)]
    exact h.unused j (by omega) hjlt
  · rw [hview, updated_before _ _ _ hc]
  · refine content_congr h.consistent hu hfile (hothers j hj) (fun p hp => ?_)
    have hkeep : ∀ q, owns (table m) (dinodeAt (table m) g.view) g.view q ≠ 0 →
        g1.view (owns (table m) (dinodeAt (table m) g.view) g.view q) =
          g.view (owns (table m) (dinodeAt (table m) g.view) g.view q) := by
      intro q hq
      have := (dataBlock_bounds (h.consistent.in_data q hq)).1
      exact hsame _ (by omega)
    refine ⟨?_, hkeep _ hp⟩
    rw [← owns_of_inUse hu, owns_congr (fun j hj => hkeep _ hj)]

/-- The bytes `p` were added at the end of inode `inum`, and the other files left alone. -/
structure Grew (m inum : Nat) (p : List UInt8) (g g' : Img) : Prop where
  image    : Sound m g'
  inode    : g'.freeinode = g.freeinode
  type     : (dinodeAt (table m) g'.view inum).type = (dinodeAt (table m) g.view inum).type
  bytes    : content (dinodeAt (table m) g'.view inum) g'.view =
    content (dinodeAt (table m) g.view inum) g.view ++ p
  before   : ∀ c < sb.inodestart, g'.view c = g.view c
  others   : ∀ j, j ≠ inum → j < m → dinodeAt (table m) g'.view j = dinodeAt (table m) g.view j
  contents : ∀ j, j ≠ inum → InUse (table m) (dinodeAt (table m) g.view) j →
    IsFile (dinodeAt (table m) g.view j) →
    content (dinodeAt (table m) g'.view j) g'.view = content (dinodeAt (table m) g.view j) g.view

omit hm in
lemma Grew.refl (h : Sound m g) (inum : Nat) : Grew m inum [] g g :=
  ⟨h, rfl, rfl, (List.append_nil _).symm, fun _ _ => rfl, fun _ _ _ => rfl, fun _ _ _ _ => rfl⟩

omit hm in
lemma Grew.trans {q : List UInt8} {g₁ g₂ : Img} (h : Grew m inum p g g₁)
    (h' : Grew m inum q g₁ g₂) : Grew m inum (p ++ q) g g₂ := by
  refine ⟨h'.image, h'.inode.trans h.inode, h'.type.trans h.type, ?_, fun c hc => ?_,
    fun j hj hlt => ?_, fun j hj hu hf => ?_⟩
  · rw [h'.bytes, h.bytes, List.append_assoc]
  · rw [h'.before c hc, h.before c hc]
  · rw [h'.others j hj hlt, h.others j hj hlt]
  · have hsame := h.others j hj hu.2.1
    rw [h'.contents j hj ((inUse_congr hsame).mpr hu) (by rw [hsame]; exact hf),
      h.contents j hj hu hf]

lemma iappend_grew (h : Sound m g) (hu : InUse (table m) (dinodeAt (table m) g.view) inum)
    (hfile : IsFile (dinodeAt (table m) g.view inum)) (hp : p ≠ [])
    (hr : iappend inum p g = .ok g') : Grew m inum p g g' := by
  obtain ⟨himage, hinode, hw, hbefore⟩ := iappend_written hm h hu hfile hp hr
  refine ⟨himage, hinode, by rw [← hw.fields], ?_, hbefore, hw.others, hw.contents⟩
  rw [hw.content_eq (d := p) le_rfl, splice, ← length_content _ g.view, List.take_length,
    List.drop_eq_nil_of_le (Nat.le_add_right _ _), List.append_nil]

/-- **The loop over the bytes of a host file.** -/
lemma copyFrom_grew (fuel : Nat) : ∀ (data : List UInt8) (g g' : Img), Sound m g →
    InUse (table m) (dinodeAt (table m) g.view) inum → IsFile (dinodeAt (table m) g.view inum) →
    data.length ≤ fuel → copyFrom inum fuel data g = .ok g' → Grew m inum data g g' := by
  induction fuel with
  | zero =>
    intro data g g' h _ _ hlen hr
    obtain rfl := ok.inj hr
    obtain rfl := List.length_eq_zero_iff.mp (Nat.le_zero.mp hlen)
    exact Grew.refl h inum
  | succ fuel ih =>
    intro data g g' h hu hfile hlen hr
    rw [copyFrom] at hr
    split at hr
    · next hnil =>
      obtain rfl := ok.inj hr
      obtain rfl := List.length_eq_zero_iff.mp hnil
      exact Grew.refl h inum
    obtain ⟨g1, happend, hr⟩ := bind_eq_ok.mp hr
    have hp : data.take BSIZE ≠ [] := by
      rw [← List.length_pos_iff, List.length_take]
      unfold BSIZE
      omega
    have h1 := iappend_grew hm h hu hfile hp happend
    have hu1 : InUse (table m) (dinodeAt (table m) g1.view) inum :=
      ⟨hu.1, hu.2.1, by rw [h1.type]; exact hu.2.2⟩
    have hfile1 : IsFile (dinodeAt (table m) g1.view inum) := by
      unfold IsFile
      rwa [h1.type]
    have h2 := ih (data.drop BSIZE) g1 g' h1.image hu1 hfile1
      (by rw [List.length_drop]; unfold BSIZE; omega) hr
    have hall := h1.trans h2
    rwa [List.take_append_drop] at hall

omit hm in
lemma dirent_ne_nil (name : List UInt8) (inum : Nat) : dirent name inum ≠ [] := by
  rw [← List.length_pos_iff, dirent, List.length_map, List.length_range]
  decide

/-! ## The host files -/

/-- The records that `mkfs` writes first: all three name the root directory. -/
def rootNames : List (List UInt8 × Nat) := [(DOT, ROOTINO), (DOTDOT, ROOTINO), (MNT, ROOTINO)]

/-- The names in the root directory, with their inodes. -/
def namesOf (files : List HostFile) : List (List UInt8 × Nat) :=
  rootNames ++ files.mapIdx (fun k f => (hostName f.name, k + 2))

def recordsOf (names : List (List UInt8 × Nat)) : List UInt8 :=
  (names.map (fun d => dirent d.1 d.2)).flatten

/-- The image with the first host files: the root directory has a record for each of them,
    and their inodes have their bytes. -/
structure Filled (m : Nat) (files : List HostFile) (g : Img) : Prop where
  image : Sound m g
  super : g.view 1 = sbSector
  inUse : InUse (table m) (dinodeAt (table m) g.view) ROOTINO
  dir   : (dinodeAt (table m) g.view ROOTINO).type = T_DIR
  root  : content (dinodeAt (table m) g.view ROOTINO) g.view = recordsOf (namesOf files)
  count : g.freeinode = files.length + 2
  files : ∀ k f, files[k]? = some f → InUse (table m) (dinodeAt (table m) g.view) (k + 2) ∧
    (dinodeAt (table m) g.view (k + 2)).type = T_FILE ∧
    content (dinodeAt (table m) g.view (k + 2)) g.view = f.data

omit hm in
lemma namesOf_concat (files : List HostFile) (f : HostFile) :
    namesOf (files ++ [f]) = namesOf files ++ [(hostName f.name, files.length + 2)] := by
  rw [namesOf, namesOf, List.mapIdx_concat, List.append_assoc]

omit hm in
lemma recordsOf_concat (names : List (List UInt8 × Nat)) (name : List UInt8) (inum : Nat) :
    recordsOf (names ++ [(name, inum)]) = recordsOf names ++ dirent name inum := by
  rw [recordsOf, List.map_append, List.flatten_append, recordsOf]
  exact congrArg _ (List.append_nil _)

omit hm in
lemma length_dirent (name : List UInt8) (inum : Nat) :
    (dirent name inum).length = Xv6Dir.DIRENT := by
  rw [dirent, List.length_map, List.length_range]

omit hm in
lemma length_recordsOf (names : List (List UInt8 × Nat)) :
    (recordsOf names).length = Xv6Dir.DIRENT * names.length := by
  induction names with
  | nil => rfl
  | cons d names ih =>
    have hcons : recordsOf (d :: names) = dirent d.1 d.2 ++ recordsOf names := rfl
    rw [hcons, List.length_append, length_dirent, ih, List.length_cons, Nat.mul_succ, Nat.add_comm]

omit hm in
lemma length_namesOf (files : List HostFile) : (namesOf files).length = files.length + 3 := by
  rw [namesOf, List.length_append, List.length_mapIdx, Nat.add_comm]
  rfl

variable {files : List HostFile}

/-- **One host file.** -/
lemma Filled.addFile (h : Filled m files g) (f : HostFile) (hlt : g.freeinode < m)
    (hr : Mkfs.addFile f g = .ok g') : Filled m (files ++ [f]) g' := by
  rw [Mkfs.addFile] at hr
  split at hr
  · cases hr
  obtain ⟨⟨inum, g1⟩, halloc, hr⟩ := bind_eq_ok.mp hr
  obtain ⟨g2, happend, hr⟩ := bind_eq_ok.mp hr
  obtain ⟨rfl, hinode1, himage, hself, hothers, hbefore, hcontents⟩ :=
    ialloc_image hm h.image hlt (.inr rfl) halloc
  have hcount := h.count
  have hroot1 : ROOTINO = 1 := rfl
  have hne : g.freeinode ≠ ROOTINO := by omega
  -- the new inode
  have hroot := hothers ROOTINO hne.symm
  have hdir1 : (dinodeAt (table m) g1.view ROOTINO).type = T_DIR := by rw [hroot]; exact h.dir
  -- its record
  have h2 := iappend_grew hm himage ((inUse_congr hroot).mpr h.inUse) (.inr hdir1)
    (dirent_ne_nil _ _) happend
  have hnew2 := h2.others g.freeinode hne hlt
  have hu2 : InUse (table m) (dinodeAt (table m) g2.view) g.freeinode :=
    ⟨h.image.first, hlt, by rw [hnew2, hself]; decide⟩
  have hfile2 : (dinodeAt (table m) g2.view g.freeinode).type = T_FILE := by rw [hnew2, hself]; rfl
  have hempty2 : content (dinodeAt (table m) g2.view g.freeinode) g2.view = [] := by
    rw [hnew2, hself]
    rfl
  -- its bytes
  have h3 := copyFrom_grew hm _ f.data g2 g' h2.image hu2 (.inl hfile2) le_rfl hr
  have hroot3 := h3.others ROOTINO hne.symm h.inUse.2.1
  have hdir2 : (dinodeAt (table m) g2.view ROOTINO).type = T_DIR := h2.type.trans hdir1
  have hu2root : InUse (table m) (dinodeAt (table m) g2.view) ROOTINO :=
    ⟨h.inUse.1, h.inUse.2.1, by rw [hdir2]; decide⟩
  have h1 : 1 < sb.inodestart := by decide
  refine ⟨h3.image, by rw [h3.before 1 h1, h2.before 1 h1, hbefore 1 h1, h.super],
    (inUse_congr hroot3).mpr hu2root, by rw [hroot3]; exact hdir2, ?_, ?_, fun k f' hk => ?_⟩
  · rw [h3.contents ROOTINO hne.symm hu2root (.inr hdir2), h2.bytes,
      hcontents ROOTINO hne.symm h.inUse (.inr h.dir), h.root, namesOf_concat,
      recordsOf_concat, hcount]
  · rw [h3.inode, h2.inode, hinode1, hcount, List.length_append, List.length_singleton]
  · by_cases hlast : k = files.length
    · have hkey : k + 2 = g.freeinode := by omega
      obtain rfl : f = f' := by
        rw [hlast, List.getElem?_append_right le_rfl, Nat.sub_self] at hk
        exact Option.some.inj hk
      rw [hkey]
      refine ⟨⟨hu2.1, hu2.2.1, by rw [h3.type]; exact hu2.2.2⟩, h3.type.trans hfile2, ?_⟩
      rw [h3.bytes, hempty2, List.nil_append]
    have hk' : files[k]? = some f' := by
      have hlen := (List.getElem?_eq_some_iff.mp hk).1
      rw [List.length_append, List.length_singleton] at hlen
      rwa [List.getElem?_append_left (by omega)] at hk
    obtain ⟨hu, hfile, hbytes⟩ := h.files k f' hk'
    have hklt := (List.getElem?_eq_some_iff.mp hk').1
    have hk1 : k + 2 ≠ g.freeinode := by omega
    have hk2 : k + 2 ≠ ROOTINO := by omega
    have e1 := hothers (k + 2) hk1
    have e2 := h2.others (k + 2) hk2 hu.2.1
    have e3 := h3.others (k + 2) hk1 hu.2.1
    have hu1 := (inUse_congr e1).mpr hu
    have hu2 := (inUse_congr e2).mpr hu1
    have hf1 : (dinodeAt (table m) g1.view (k + 2)).type = T_FILE := by rw [e1]; exact hfile
    have hf2 : (dinodeAt (table m) g2.view (k + 2)).type = T_FILE := by rw [e2]; exact hf1
    refine ⟨(inUse_congr e3).mpr hu2, by rw [e3]; exact hf2, ?_⟩
    rw [h3.contents _ hk1 hu2 (.inl hf2), h2.contents _ hk2 hu1 (.inl hf1),
      hcontents _ hk1 hu (.inl hfile), hbytes]

lemma Filled.addFiles (files : List HostFile) : ∀ (done : List HostFile) (g g' : Img),
    Filled m done g → done.length + files.length + 1 < m →
    Mkfs.addFiles files g = .ok g' → Filled m (done ++ files) g' := by
  induction files with
  | nil =>
    intro done g g' h _ hr
    obtain rfl := ok.inj hr
    rwa [List.append_nil]
  | cons f files ih =>
    intro done g g' h hlen hr
    obtain ⟨g1, hadd, hr⟩ := bind_eq_ok.mp hr
    rw [List.length_cons] at hlen
    have h1 := h.addFile hm f (by rw [h.count]; omega) hadd
    have hrest := ih (done ++ [f]) g1 g' h1
      (by rw [List.length_append, List.length_singleton]; omega) hr
    rwa [List.append_assoc, List.singleton_append] at hrest

/-! ## The whole program -/

omit hm in
lemma getDinode_blank (o : Nat) : (getDinode (fun _ => 0) o).type = 0 := rfl

lemma blank_inodes {j : Nat} (hj : j < m) : (dinodeAt (table m) blank.view j).type = 0 := by
  obtain ⟨hlt, -⟩ := IBLOCK_bounds hm hj
  have hge : 32 ≤ IBLOCK j sb := Nat.le_add_left 32 _
  have hblock : blank.view (IBLOCK j sb) = fun _ => 0 := by
    rw [view_of_ne _ (by omega)]
    exact update_of_ne (show IBLOCK j sb ≠ 1 by omega) sbSector _
  show (dinodeAt sb blank.view j).type = 0
  rw [dinodeAt, hblock, getDinode_blank]

lemma blank_image : Sound m blank := by
  have hunused : ∀ j, ¬InUse (table m) (dinodeAt (table m) blank.view) j := fun j hu =>
    hu.2.2 (blank_inodes hm hu.2.1)
  have howns : ∀ q, owns (table m) (dinodeAt (table m) blank.view) blank.view q = 0 := fun q =>
    if_neg (hunused q.1)
  have hfree : blank.freeblock = nmeta := rfl
  have hmeta : nmeta = 46 := rfl
  have hsize : FSSIZE = 1000 := rfl
  refine ⟨⟨rfl, le_rfl, fun b hb => ?_⟩, ?_, le_rfl, fun j _ hj => blank_inodes hm hj⟩
  · exact update_of_ne (by omega) _ _
  · refine ⟨fun q _ h => absurd (howns q) h, fun q h => absurd (howns q) h, fun b hb => ?_,
      fun b hb => ?_, fun j hu => absurd hu (hunused j), fun j hu => absurd hu (hunused j)⟩
    · have hge := (dataBlock_bounds hb).1
      rw [bitOf_table m _ hb.2, decide_eq_true_iff]
      constructor
      · intro h
        omega
      · rintro ⟨q, hq⟩
        rw [howns] at hq
        omega
    · have hlt : b < 46 := by rwa [dataStart_table] at hb
      rw [bitOf_table m _ (by omega), decide_eq_true_iff]
      omega

/-- The records that `mkfs` writes first. -/
def rootHead : List UInt8 := dirent DOT ROOTINO ++ dirent DOTDOT ROOTINO ++ dirent MNT ROOTINO

omit hm in
lemma rootHead_eq : recordsOf rootNames = rootHead := by
  show dirent DOT ROOTINO ++ (dirent DOTDOT ROOTINO ++ (dirent MNT ROOTINO ++ [])) = rootHead
  rw [List.append_nil, ← List.append_assoc, rootHead]

lemma makeRoot_filled (hroot : ROOTINO < m) (hr : makeRoot blank = .ok g) : Filled m [] g := by
  obtain ⟨⟨rootino, g0⟩, halloc, hr⟩ := bind_eq_ok.mp hr
  obtain ⟨rfl, hinode0, himage, hself, -, hbefore, -⟩ :=
    ialloc_image hm (blank_image hm) hroot (.inl rfl) halloc
  have hr : (do
      let g ← iappend ROOTINO (dirent DOT ROOTINO) g0
      let g ← iappend ROOTINO (dirent DOTDOT ROOTINO) g
      iappend ROOTINO (dirent MNT ROOTINO) g) = .ok g := hr
  obtain ⟨g1, hdot, hr⟩ := bind_eq_ok.mp hr
  obtain ⟨g2, hdotdot, hmnt⟩ := bind_eq_ok.mp hr
  have hself : dinodeAt (table m) g0.view ROOTINO = fresh T_DIR := hself
  have hdir0 : (dinodeAt (table m) g0.view ROOTINO).type = T_DIR := by rw [hself]; rfl
  have hused : ∀ g' : Img, (dinodeAt (table m) g'.view ROOTINO).type = T_DIR →
      InUse (table m) (dinodeAt (table m) g'.view) ROOTINO :=
    fun g' hdir => ⟨le_rfl, hroot, by rw [hdir]; decide⟩
  have h1 := iappend_grew hm himage (hused g0 hdir0) (.inr hdir0) (dirent_ne_nil _ _) hdot
  have hdir1 := h1.type.trans hdir0
  have h2 := iappend_grew hm h1.image (hused g1 hdir1) (.inr hdir1) (dirent_ne_nil _ _) hdotdot
  have hdir2 := h2.type.trans hdir1
  have h3 := iappend_grew hm h2.image (hused g2 hdir2) (.inr hdir2) (dirent_ne_nil _ _) hmnt
  have hall := (h1.trans h2).trans h3
  have hdir3 := h3.type.trans hdir2
  have hsuper : g.view 1 = sbSector := by
    rw [hall.before 1 (by decide), hbefore 1 (by decide)]
    rfl
  refine ⟨h3.image, hsuper, hused g hdir3, hdir3, ?_, by rw [hall.inode, hinode0]; rfl,
    fun k f hk => ?_⟩
  · rw [hall.bytes, hself, show content (fresh T_DIR) g0.view = [] from rfl, List.nil_append]
    exact rootHead_eq.symm
  · cases hk

/-- The size of the root directory that `mkfs` leaves. -/
def fixedSize (size : Nat) : Nat := (size / BSIZE + 1) * BSIZE

/-- The image after the host files, with the size of the root directory rounded up and the
    bitmap written. -/
structure Closed (m : Nat) (files : List HostFile) (g₂ g : Img) : Prop where
  built     : Filled m files g₂
  super     : g.sect 1 = sbSector
  freeblock : g.freeblock = g₂.freeblock
  root      : dinodeAt (table m) g.sect ROOTINO = { dinodeAt (table m) g₂.view ROOTINO with
    size := fixedSize (dinodeAt (table m) g₂.view ROOTINO).size }
  others    : ∀ j, j ≠ ROOTINO → dinodeAt (table m) g.sect j = dinodeAt (table m) g₂.view j
  blocks    : ∀ b, sb.bmapstart ≤ b → g.sect b = g₂.view b

omit hm in
/-- The inodes of the image have the blocks that they had before the last two steps. -/
lemma Closed.ownBlock_eq {g₂ : Img} {j : Nat}
    (h : Closed m files g₂ g) (hu : InUse (table m) (dinodeAt (table m) g₂.view) j) {ip : Dinode}
    (hip : ip.addrs = (dinodeAt (table m) g₂.view j).addrs) (p : Nat) :
    ownBlock ip g.sect p = ownBlock (dinodeAt (table m) g₂.view j) g₂.view p := by
  rw [ownBlock, ownBlock, hip]
  by_cases hz : (dinodeAt (table m) g₂.view j).addrs NDIRECT = 0
  · have hno : ¬(p ≤ NDIRECT + NINDIRECT ∧ (dinodeAt (table m) g₂.view j).addrs NDIRECT ≠ 0) :=
      fun hc => hc.2 hz
    rw [if_neg hno, if_neg hno]
  have haddr : owns (table m) (dinodeAt (table m) g₂.view) g₂.view (j, NDIRECT) =
      (dinodeAt (table m) g₂.view j).addrs NDIRECT := by
    rw [owns_of_inUse hu]
    exact ownBlock_addr le_rfl
  have hdata := h.built.image.consistent.in_data (j, NDIRECT) (by rw [haddr]; exact hz)
  rw [haddr] at hdata
  have hge := (dataBlock_bounds hdata).1
  have hbmap : sb.bmapstart = 45 := rfl
  rw [h.blocks _ (by omega)]

/-- **What `main` leaves behind.** -/
lemma main_closed (hfiles : files.length + 1 < m)
    (hr : main files = .ok g) : ∃ g₂, Closed m files g₂ g := by
  obtain ⟨g1, hroot, hr⟩ := bind_eq_ok.mp hr
  obtain ⟨g2, hadd, hr⟩ := bind_eq_ok.mp hr
  obtain ⟨g3, hfix, hr⟩ := bind_eq_ok.mp hr
  have h2 : Filled m files g2 := Filled.addFiles hm files [] g1 g2
    (makeRoot_filled hm (by unfold ROOTINO; omega) hroot) (by rw [List.length_nil]; omega) hadd
  have hlim := size_le_max h2.image.consistent h2.inUse (.inr h2.dir)
  have hmax : MAXFILE * BSIZE = 274432 := rfl
  have hlt : ROOTINO < m := h2.inUse.2.1
  have hfits : fixedSize (dinodeAt (table m) g2.view ROOTINO).size < 2 ^ 32 := by
    unfold fixedSize BSIZE
    omega
  rw [fixRoot, rinode_eq hm h2.image.fits hlt, ok_bind] at hfix
  obtain ⟨g4, hwrite, -, -, hfree, hview⟩ := winode_eq hm h2.image.fits hlt
    { dinodeAt (table m) g2.view ROOTINO with
      size := fixedSize (dinodeAt (table m) g2.view ROOTINO).size }
  obtain rfl : g4 = g3 := ok.inj (hwrite.symm.trans hfix)
  rw [balloc] at hr
  split at hr
  · cases hr
  obtain rfl := ok.inj hr
  have hsect : (wsect sb.bmapstart (usedBits g4.freeblock) g4).sect = g4.view := rfl
  have hcanon := getDinode_canonical (g2.view (IBLOCK ROOTINO sb)) (ROOTINO % IPB * 64)
  obtain ⟨hib, -⟩ := IBLOCK_bounds hm hlt
  have hib : IBLOCK ROOTINO (table m) < sb.bmapstart := hib
  refine ⟨g2, h2, ?_, hfree, ?_, fun j hj => ?_, fun b hb => ?_⟩
  · rw [hsect, hview, updated_before _ _ _ (by decide), h2.super]
  · rw [hsect, hview]
    exact dinodeAt_updated sb g2.view ⟨hcanon.type, hcanon.major, hcanon.minor, hcanon.nlink, hfits,
      hcanon.addrs, hcanon.end_⟩
  · rw [hsect, hview]
    exact dinodeAt_updated_of_ne sb g2.view _ hj
  · rw [hsect, hview]
    exact update_of_ne (by omega) _ _

end Files

end Mkfs
