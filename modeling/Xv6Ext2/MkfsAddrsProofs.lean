import Xv6Ext2.MkfsImageProofs

/-! # The block addresses of an image

    `mkfs` rounds the size of the root directory up to the next block after its records were
    appended.  When the records fill their last block, the size grows by a block that has no
    address, and the kernel allocates it when it reads that far.

    - `Closed.block_iff` : the blocks of an inode that have an address;
    - `main_addressed_iff` : every block below the size of every inode has one exactly when the
      number of records is not a multiple of the 64 of a block. -/

namespace Mkfs

open ByteBlock BufCache Param Outcome FileIo DirName Xv6Alloc Xv6Inode Xv6Image

/-! ## What a read needs -/

/-- Each block below the size of inode `j` has an address. -/
def Addressed (v : Disk) (j : Nat) : Prop :=
  ∀ bn < blocks (dinodeAt sb v j).size, blockAt (dinodeAt sb v j) v bn ≠ 0

/-- `xv6fs_readi` of inode `j` changes neither the inode nor any block. -/
def ReadsOnly (v : Disk) (j : Nat) : Prop :=
  ∀ (devsw : Nat → Devsw) (off n : Nat) (s : Bcache), off < 2 ^ 32 → n < 2 ^ 32 → s.view = v →
    ∃ r s', xv6fsReadi sb devsw (dinodeAt sb v j) off n s = .ok (r, dinodeAt sb v j, s') ∧
      s'.view = v

lemma Addressed.readsOnly {v : Disk} {j : Nat} (h : Addressed v j) (hf : IsFile (dinodeAt sb v j))
    (hsize : (dinodeAt sb v j).size < 2 ^ 31) : ReadsOnly v j := by
  intro devsw off n s hoff hn hs
  by_cases hout : (dinodeAt sb v j).size < off ∨ (off + n) % 2 ^ 32 < off
  · exact ⟨_, s, readi_refuses hf hout, hs⟩
  have hblocks : ∀ bn, bn * BSIZE < min (off + n) (dinodeAt sb v j).size →
      blockAt (dinodeAt sb v j) s.view bn ≠ 0 := by
    intro bn hbn
    rw [hs]
    exact h bn ((lt_blocks_iff _ _).mpr (by omega))
  obtain ⟨s', hread, hview⟩ := readi_held devsw hf.not_dev (by omega) (by omega) (by omega) hblocks
  exact ⟨_, s', hread, hview.trans hs⟩

/-- The inodes that `mkfs` made for the root directory and the host files. -/
def AllAddressed (files : List HostFile) (g : Img) : Prop :=
  ∀ j, 1 ≤ j → j ≤ files.length + 1 → Addressed g.sect j ∧ ReadsOnly g.sect j

/-! ## Up to TABLE inodes -/

section Table

variable {m : Nat} {files : List HostFile} {g₂ g : Img} {j : Nat}

lemma Closed.root_eq (h : Closed m files g₂ g) : dinodeAt sb g.sect ROOTINO =
    { dinodeAt (table m) g₂.view ROOTINO with
      size := fixedSize (dinodeAt (table m) g₂.view ROOTINO).size } := h.root

/-- The addresses are those for the size before it was rounded up. -/
lemma Closed.block_iff (h : Closed m files g₂ g)
    (hu : InUse (table m) (dinodeAt (table m) g₂.view) j)
    (hf : IsFile (dinodeAt (table m) g₂.view j)) (bn : Nat) :
    blockAt (dinodeAt sb g.sect j) g.sect bn ≠ 0 ↔
      bn < Xv6Image.blocks (dinodeAt (table m) g₂.view j).size := by
  have haddrs : (dinodeAt sb g.sect j).addrs = (dinodeAt (table m) g₂.view j).addrs := by
    by_cases hj : j = ROOTINO
    · rw [hj, h.root_eq]
    · exact congrArg Dinode.addrs (h.others j hj)
  rw [← (h.built.image.consistent.covers hu hf).block bn, blockAt, blockAt, h.ownBlock_eq hu haddrs]

lemma Closed.file_addressed (h : Closed m files g₂ g) {k : Nat} (hk : k < files.length) :
    Addressed g.sect (k + 2) ∧ ReadsOnly g.sect (k + 2) := by
  obtain ⟨hu, htype, -⟩ := h.built.files k _ (List.getElem?_eq_getElem hk)
  have hsame : dinodeAt sb g.sect (k + 2) = dinodeAt (table m) g₂.view (k + 2) :=
    h.others (k + 2) (by unfold ROOTINO; omega)
  have haddr : Addressed g.sect (k + 2) := by
    intro bn hbn
    rw [hsame] at hbn
    exact (h.block_iff hu (.inl htype) bn).mpr hbn
  have hmax := size_le_max h.built.image.consistent hu (.inl htype)
  have hlim : MAXFILE * BSIZE = 274432 := rfl
  refine ⟨haddr, haddr.readsOnly ?_ ?_⟩
  · rw [hsame]
    exact .inl htype
  · rw [hsame]
    omega

lemma Filled.root_size (h : Filled m files g) :
    (dinodeAt (table m) g.view ROOTINO).size = 16 * (files.length + 3) := by
  rw [← length_content _ g.view, h.root, length_recordsOf, length_namesOf]
  rfl

lemma blocks_fixedSize (size : Nat) : blocks (fixedSize size) = size / BSIZE + 1 := by
  unfold blocks fixedSize BSIZE
  omega

lemma blocks_le_iff (n : Nat) : 16 * n / BSIZE + 1 ≤ blocks (16 * n) ↔ n % 64 ≠ 0 := by
  unfold blocks BSIZE
  omega

lemma Closed.root_addressed_iff (h : Closed m files g₂ g) :
    Addressed g.sect ROOTINO ↔ (files.length + 3) % 64 ≠ 0 := by
  have hsize : (dinodeAt sb g.sect ROOTINO).size =
      fixedSize (dinodeAt (table m) g₂.view ROOTINO).size := by rw [h.root_eq]
  rw [Addressed, hsize, blocks_fixedSize, ← blocks_le_iff, ← h.built.root_size]
  constructor
  · intro haddr
    exact (h.block_iff h.built.inUse (.inr h.built.dir) _).mp (haddr _ (Nat.lt_succ_self _))
  · intro hle bn hbn
    exact (h.block_iff h.built.inUse (.inr h.built.dir) bn).mpr (Nat.lt_of_lt_of_le hbn hle)

lemma Closed.root_readsOnly (h : Closed m files g₂ g) (haddr : Addressed g.sect ROOTINO) :
    ReadsOnly g.sect ROOTINO := by
  have hmax := size_le_max h.built.image.consistent h.built.inUse (.inr h.built.dir)
  have hlim : MAXFILE * BSIZE = 274432 := rfl
  refine haddr.readsOnly ?_ ?_
  · rw [h.root_eq]
    exact .inr h.built.dir
  rw [h.root_eq]
  show fixedSize _ < _
  unfold fixedSize BSIZE
  omega

lemma Closed.allAddressed_iff (h : Closed m files g₂ g) :
    AllAddressed files g ↔ (files.length + 3) % 64 ≠ 0 := by
  rw [← h.root_addressed_iff]
  constructor
  · intro hall
    exact (hall ROOTINO le_rfl (Nat.le_add_left _ _)).1
  · intro hroot j hj1 hj2
    by_cases hj : j = ROOTINO
    · rw [hj]
      exact ⟨hroot, h.root_readsOnly hroot⟩
    · obtain ⟨k, rfl⟩ : ∃ k, j = k + 2 := ⟨j - 2, by unfold ROOTINO at hj; omega⟩
      exact h.file_addressed (by omega)

end Table

/-! ## An inode in the bitmap -/

variable {used k : Nat}

lemma usedBits_set (h : 8 * (k + 1) ≤ used) : usedBits used k = 255 := if_pos h

lemma usedBits_clear (h : used ≤ 8 * k) : usedBits used k = 0 := by
  rw [usedBits, if_neg (by omega), if_pos h]

lemma usedBits_ne_zero (h : 8 * k < used) : usedBits used k ≠ 0 := by
  intro h0
  have hbit := blockBit_usedBits used (8 * k)
  rw [blockBit, Nat.mul_div_cancel_left _ (by decide), h0, decide_eq_true h] at hbit
  have hzero : ∀ i < 8, byteBit 0 i = false := by decide
  rw [hzero _ (Nat.mod_lt _ (by decide))] at hbit
  cases hbit

variable {g : Img}

/-- The inode `TABLE` lies in the bitmap.  Its size is in the bits of the blocks from 64 on,
    its first address in those from 96 on. -/
lemma not_addressed_of_used (hmap : g.sect sb.bmapstart = usedBits used)
    (hused : 64 < used) : ¬Addressed g.sect TABLE := by
  have hinode : dinodeAt sb g.sect TABLE = getDinode (usedBits used) 0 := by
    rw [← hmap]
    rfl
  intro haddr
  rw [Addressed, hinode] at haddr
  have hsize : (getDinode (usedBits used) 0).size = getLE (usedBits used) 4 8 := rfl
  by_cases h96 : used ≤ 96
  · have hpos : 0 < (getDinode (usedBits used) 0).size := by
      have hbyte := usedBits_ne_zero (show 8 * 8 < used from hused)
      have hne : (usedBits used 8).toNat ≠ 0 := fun h0 => hbyte (UInt8.toNat_inj.mp h0)
      rw [hsize, getLE]
      omega
    refine haddr 0 ((lt_blocks_iff _ _).mpr (by omega)) ?_
    show ownBlock _ _ 0 = 0
    rw [ownBlock_addr (Nat.zero_le _)]
    exact getLE_zero (fun k h1 _ => usedBits_clear (by omega))
  have hall : (getDinode (usedBits used) 0).size = 2 ^ 32 - 1 := by
    rw [hsize]
    simp only [getLE]
    rw [usedBits_set (by omega), usedBits_set (by omega), usedBits_set (by omega),
      usedBits_set (by omega)]
    rfl
  refine haddr MAXFILE ((lt_blocks_iff _ _).mpr ?_) ?_
  · rw [hall]
    decide
  · rw [blockAt, ownBlock, if_neg (by decide), if_neg (fun hle => absurd hle.1 (by decide))]

lemma main_bitmap {files : List HostFile} (hr : main files = .ok g) :
    g.sect sb.bmapstart = usedBits g.freeblock := by
  obtain ⟨g1, -, hr⟩ := bind_eq_ok.mp hr
  obtain ⟨g2, -, hr⟩ := bind_eq_ok.mp hr
  obtain ⟨g3, -, hr⟩ := bind_eq_ok.mp hr
  rw [balloc] at hr
  split at hr
  · cases hr
  obtain rfl := Except.ok.inj hr
  show Function.update g3.sect sb.bmapstart (usedBits g3.freeblock) sb.bmapstart = _
  exact Function.update_self _ _ _

/-- **Main result.** With at most 206 host files every inode of the image lies in the inode
    blocks, and every block below the size of every inode has an address, so that reading
    allocates nothing, exactly when the `n + 3` records of the root directory do not fill their
    last block.  With more files inode `TABLE` is overwritten by the bitmap, and once 64 blocks
    are in use it has a size without addresses. -/
theorem main_addressed_iff (files : List HostFile) (g : Img) (hmain : main files = .ok g) :
    (files.length ≤ 206 → (AllAddressed files g ↔ (files.length + 3) % 64 ≠ 0)) ∧
    (206 < files.length → 64 < g.freeblock → ¬AllAddressed files g) := by
  refine ⟨fun hfiles => ?_, fun hfiles hused hall => ?_⟩
  · obtain ⟨g2, h⟩ := main_closed (Nat.le_refl TABLE) (show files.length + 1 < 208 by omega) hmain
    exact h.allAddressed_iff
  · exact not_addressed_of_used (main_bitmap hmain) hused
      (hall TABLE (by decide) (show 208 ≤ files.length + 1 by omega)).1

/-- The image without host files. -/
theorem main_addressed_iff_empty : ∃ g, main [] = .ok g ∧ AllAddressed [] g := by
  obtain ⟨g, hg⟩ := main_empty
  exact ⟨g, hg, ((main_addressed_iff [] g hg).1 (by decide)).mpr (by decide)⟩

/-! ## Many empty files -/

lemma appendFrom_nil (fuel off : Nat) (din : Dinode) (g : Img) :
    appendFrom fuel off [] din g = .ok (off, din, g) := by
  cases fuel with
  | zero => rfl
  | succ fuel => rw [appendFrom, if_pos List.length_nil]

lemma winode_returns {inum : Nat} (ip : Dinode) (h : IBLOCK inum sb < g.size) :
    winode inum ip g = .ok (wsect (IBLOCK inum sb)
      (putDinode (g.sect (IBLOCK inum sb)) (inum % IPB * 64) ip) g) := by
  rw [winode, rsect, if_pos h, ok_bind]

lemma addrOf_room {i : Nat} {din : Dinode} (hroom : g.freeblock < FSSIZE)
    (haddr : din.addrs i < FSSIZE) :
    (addrOf i din g).1.addrs i < FSSIZE ∧ (addrOf i din g).2.freeblock ≤ g.freeblock + 1 := by
  rw [addrOf]
  split
  · refine ⟨?_, le_rfl⟩
    show Function.update din.addrs i g.freeblock i < FSSIZE
    rwa [Function.update_self]
  · exact ⟨haddr, Nat.le_succ _⟩

section Empty

variable {m : Nat} (hm : m ≤ TABLE) {g : Img} {inum : Nat}

include hm

/-- Bytes that fit into the last block, one of the direct blocks, are appended. -/
lemma iappend_returns (h : Sound m g) (hu : InUse (table m) (dinodeAt (table m) g.view) inum)
    {p : List UInt8} (hp : p ≠ [])
    (hfit : (dinodeAt (table m) g.view inum).size % BSIZE + p.length ≤ BSIZE)
    (hdirect : (dinodeAt (table m) g.view inum).size / BSIZE < NDIRECT)
    (hroom : g.freeblock < FSSIZE) :
    ∃ g', iappend inum p g = .ok g' ∧ g'.freeblock ≤ g.freeblock + 1 := by
  obtain ⟨off, hoff⟩ : ∃ off, off = (dinodeAt (table m) g.view inum).size := ⟨_, rfl⟩
  rw [← hoff] at hfit hdirect
  have hmax : ¬MAXFILE ≤ off / BSIZE := by
    have h1 : MAXFILE = 268 := rfl
    have h2 : NDIRECT = 12 := rfl
    omega
  have haddr : (dinodeAt (table m) g.view inum).addrs (off / BSIZE) < FSSIZE := by
    by_cases hz : (dinodeAt (table m) g.view inum).addrs (off / BSIZE) = 0
    · rw [hz]
      decide
    have howns := owns_of_inUse (v := g.view) hu (off / BSIZE)
    rw [ownBlock_addr hdirect.le] at howns
    have hdata := h.consistent.in_data (inum, off / BSIZE) (by rw [howns]; exact hz)
    rw [howns] at hdata
    exact (dataBlock_bounds hdata).2
  obtain ⟨hx, hfree⟩ := addrOf_room hroom haddr
  have hsize := addrOf_size (off / BSIZE) (dinodeAt (table m) g.view inum) g
  obtain ⟨⟨din1, g1⟩, hr1⟩ : ∃ r, addrOf (off / BSIZE) (dinodeAt (table m) g.view inum) g = r :=
    ⟨_, rfl⟩
  rw [hr1] at hx hfree hsize
  have hsect : sectOf (off / BSIZE) (dinodeAt (table m) g.view inum) g =
      .ok (din1.addrs (off / BSIZE), din1, g1) := by
    rw [sectOf, if_pos hdirect, hr1]
  obtain ⟨k, hk⟩ : ∃ k, p.length = k + 1 :=
    ⟨p.length - 1, by have := List.length_pos_iff.mpr hp; omega⟩
  have hchunk : min p.length ((off / BSIZE + 1) * BSIZE - off) = p.length := by
    unfold BSIZE at *
    omega
  have happend : appendFrom p.length off p (dinodeAt (table m) g.view inum) g =
      .ok (off + p.length, din1, wsect (din1.addrs (off / BSIZE))
        (blit (g1.sect (din1.addrs (off / BSIZE))) (off - off / BSIZE * BSIZE) p.length
          (cstr p)) g1) := by
    rw [hk, appendFrom, ← hk, if_neg (by omega), if_neg hmax]
    dsimp only
    rw [hsect, ok_bind]
    dsimp only
    rw [rsect, if_pos (by rw [hsize, h.fits.size]; exact hx), ok_bind, hchunk, List.drop_length,
      appendFrom_nil]
  have hib := (IBLOCK_bounds hm hu.2.1).2
  rw [iappend, rinode_eq hm h.fits hu.2.1, ok_bind, ← hoff, happend, ok_bind]
  refine ⟨_, winode_returns _ ?_, hfree⟩
  exact Nat.lt_of_lt_of_le (by rw [hsize, h.fits.size]; exact hib) (Nat.le_max_left _ _)

end Empty

/-- The root directory has `k` records, and took at most one block for each. -/
structure Rooted (k : Nat) (g : Img) : Prop where
  sound : Sound TABLE g
  inUse : InUse (table TABLE) (dinodeAt (table TABLE) g.view) ROOTINO
  dir   : (dinodeAt (table TABLE) g.view ROOTINO).type = T_DIR
  size  : (dinodeAt (table TABLE) g.view ROOTINO).size = 16 * k
  room  : g.freeblock ≤ nmeta + k

section Rooted

variable {k : Nat} {g : Img}

lemma Rooted.record (h : Rooted k g) (hk : k < 768) (name : List UInt8) (inum : Nat) :
    ∃ g', iappend ROOTINO (dirent name inum) g = .ok g' ∧ Rooted (k + 1) g' ∧
      g'.freeinode = g.freeinode := by
  have hlen : (dirent name inum).length = 16 := length_dirent name inum
  have hroom := h.room
  have hmeta : nmeta = 46 := rfl
  have hcap : FSSIZE = 1000 := rfl
  have hdirect : NDIRECT = 12 := rfl
  obtain ⟨g', happend, hfree⟩ := iappend_returns le_rfl h.sound h.inUse
    (dirent_ne_nil name inum) (by rw [h.size, hlen]; unfold BSIZE; omega)
    (by rw [h.size]; unfold BSIZE; omega) (by omega)
  have hgrew := iappend_grew le_rfl h.sound h.inUse (.inr h.dir) (dirent_ne_nil name inum) happend
  have hdir := hgrew.type.trans h.dir
  refine ⟨g', happend, ⟨hgrew.image, ⟨h.inUse.1, h.inUse.2.1, by rw [hdir]; decide⟩, hdir, ?_,
    by omega⟩, hgrew.inode⟩
  rw [← length_content _ g'.view, hgrew.bytes, List.length_append, length_content, h.size, hlen]
  omega

/-- An inode that is not the root directory is taken: in the inode blocks, or the first one
    behind them. -/
lemma Rooted.ialloc (h : Rooted k g) (hlt : g.freeinode ≤ TABLE) (hne : g.freeinode ≠ ROOTINO) :
    ∃ g', Mkfs.ialloc T_FILE g = .ok (g.freeinode, g') ∧ Rooted k g' ∧
      g'.freeinode = g.freeinode + 1 := by
  have hfits := h.sound.fits
  have hib : IBLOCK g.freeinode sb ≤ sb.bmapstart := by
    have hbmap : IBLOCK TABLE sb = sb.bmapstart := rfl
    rw [← hbmap]
    exact Nat.add_le_add_right (Nat.div_le_div_right hlt) _
  have hsize : IBLOCK g.freeinode sb < g.size := by
    rw [hfits.size]
    exact Nat.lt_of_le_of_lt hib (by decide)
  have hwrite := winode_returns (fresh T_FILE) (g := { g with freeinode := g.freeinode + 1 }) hsize
  obtain ⟨g', hg'⟩ : ∃ g', g' = wsect (IBLOCK g.freeinode sb) (putDinode
    (g.sect (IBLOCK g.freeinode sb)) (g.freeinode % IPB * 64) (fresh T_FILE))
    { g with freeinode := g.freeinode + 1 } := ⟨_, rfl⟩
  have halloc : Mkfs.ialloc T_FILE g = .ok (g.freeinode, g') := by
    rw [Mkfs.ialloc, hg']
    show (winode g.freeinode (fresh T_FILE) { g with freeinode := g.freeinode + 1 } >>= _) = _
    rw [hwrite, ok_bind]
  have hfree : g'.freeblock = g.freeblock := by rw [hg']; rfl
  have hinode : g'.freeinode = g.freeinode + 1 := by rw [hg']; rfl
  refine ⟨g', halloc, ?_, hinode⟩
  by_cases hin : g.freeinode < TABLE
  · obtain ⟨-, -, hsound, -, hothers, -, -⟩ := ialloc_image le_rfl h.sound hin (.inr rfl) halloc
    have hroot := hothers ROOTINO hne.symm
    exact ⟨hsound, (inUse_congr hroot).mpr h.inUse, by rw [hroot]; exact h.dir,
      by rw [hroot]; exact h.size, by rw [hfree]; exact h.room⟩
  -- the inode lies in the bitmap block, which the view does not show
  obtain ⟨i, hi⟩ : ∃ i, i = g.freeinode := ⟨_, rfl⟩
  have htable : i = TABLE := by omega
  have hblock : IBLOCK g.freeinode sb = sb.bmapstart := by rw [← hi, htable]; rfl
  have hview : g'.view = g.view := by
    rw [hg', hblock]
    exact Function.update_idem _ _ _
  have hstart : 46 ≤ g.freeblock := hfits.start
  have hbmap : sb.bmapstart = 45 := rfl
  have hfits' : Fits g' := by
    have hfits1 : Fits { g with freeinode := g.freeinode + 1 } :=
      ⟨hfits.size, hfits.start, hfits.fresh⟩
    rw [hg', hblock]
    exact hfits1.wsect _ (show sb.bmapstart < g.freeblock by omega) (by decide)
  refine ⟨⟨hfits', by rw [hview]; exact h.sound.consistent, ?_, fun j hj hjlt => ?_⟩,
    by rw [hview]; exact h.inUse, by rw [hview]; exact h.dir, by rw [hview]; exact h.size,
    by rw [hfree]; exact h.room⟩
  · rw [hinode]
    exact Nat.le_add_left _ _
  · omega

def emptyFile : HostFile := ⟨[97], []⟩

lemma Rooted.addFile (h : Rooted k g) (hk : k < 768) (hlt : g.freeinode ≤ TABLE)
    (hne : g.freeinode ≠ ROOTINO) : ∃ g', Mkfs.addFile emptyFile g = .ok g' ∧ Rooted (k + 1) g' ∧
      g'.freeinode = g.freeinode + 1 := by
  obtain ⟨g1, halloc, h1, hinode1⟩ := h.ialloc hlt hne
  obtain ⟨g2, happend, h2, hinode2⟩ := h1.record hk (hostName emptyFile.name) g.freeinode
  refine ⟨g2, ?_, h2, hinode2.trans hinode1⟩
  rw [Mkfs.addFile, if_neg (by decide), halloc, ok_bind]
  dsimp only
  rw [happend, ok_bind]
  rfl

/-- **The loop over empty host files** returns as long as the inodes reach at most `TABLE`. -/
lemma Rooted.addFiles (n : Nat) : ∀ (k : Nat) (g : Img), Rooted k g → k + n ≤ 768 →
    ROOTINO < g.freeinode → g.freeinode + n ≤ TABLE + 1 →
    ∃ g', Mkfs.addFiles (List.replicate n emptyFile) g = .ok g' ∧ Rooted (k + n) g' := by
  induction n with
  | zero =>
    intro k g h _ _ _
    exact ⟨g, rfl, h⟩
  | succ n ih =>
    intro k g h hk hroot hlt
    obtain ⟨g1, hadd, h1, hinode⟩ := h.addFile (by omega) (by omega) (by omega)
    obtain ⟨g2, hrest, h2⟩ := ih (k + 1) g1 h1 (by omega) (by omega) (by omega)
    refine ⟨g2, ?_, ?_⟩
    · rw [List.replicate_succ, Mkfs.addFiles, hadd, ok_bind, hrest]
    · rwa [show k + (n + 1) = k + 1 + n by omega]

end Rooted

lemma makeRoot_rooted : ∃ g, makeRoot blank = .ok g ∧ Rooted 3 g ∧ g.freeinode = 2 := by
  have hrun : (makeRoot blank).map (fun g => g.freeblock) = .ok 47 := by decide +kernel
  obtain ⟨g, hg, hfree⟩ := exists_ok_of_map hrun
  have h := makeRoot_filled (Nat.le_refl TABLE) (by decide) hg
  refine ⟨g, hg, ⟨h.image, h.inUse, h.dir, h.root_size, ?_⟩, h.count⟩
  rw [hfree]
  decide

lemma main_returns {n : Nat} (hn : n ≤ 207) : ∃ g, main (List.replicate n emptyFile) = .ok g := by
  have htable : TABLE = 208 := rfl
  have hroot : ROOTINO = 1 := rfl
  have hcap : FSSIZE = 1000 := rfl
  have hmeta : nmeta = 46 := rfl
  obtain ⟨g1, hmake, h1, hinode⟩ := makeRoot_rooted
  obtain ⟨g2, hadd, h2⟩ := Rooted.addFiles n 3 g1 h1 (by omega) (by omega) (by omega)
  have hroom := h2.room
  obtain ⟨g3, hwrite, -, -, hfree, -⟩ := winode_eq (Nat.le_refl TABLE) h2.sound.fits
    h2.inUse.2.1 { dinodeAt (table TABLE) g2.view ROOTINO with
      size := ((dinodeAt (table TABLE) g2.view ROOTINO).size / BSIZE + 1) * BSIZE }
  refine ⟨wsect sb.bmapstart (usedBits g3.freeblock) g3, ?_⟩
  rw [main, hmake, ok_bind, hadd, ok_bind, fixRoot, rinode_eq (Nat.le_refl TABLE) h2.sound.fits
    h2.inUse.2.1, ok_bind, hwrite, ok_bind, balloc, if_neg (by rw [hfree]; unfold BSIZE; omega)]

/-- With 61 empty files the 64 records fill one block; the size says two, and the second one
    has no address. -/
theorem main_root_unaddressed : ∃ g, main (List.replicate 61 emptyFile) = .ok g ∧
    ¬Addressed g.sect ROOTINO ∧ ¬AllAddressed (List.replicate 61 emptyFile) g := by
  obtain ⟨g, hg⟩ := main_returns (show 61 ≤ 207 by decide)
  obtain ⟨g2, h⟩ := main_closed (Nat.le_refl TABLE)
    (show (List.replicate 61 emptyFile).length + 1 < TABLE by decide) hg
  have hroot : ¬Addressed g.sect ROOTINO := by
    rw [h.root_addressed_iff]
    decide
  exact ⟨g, hg, hroot, fun hall => hroot (hall ROOTINO (by decide) (by decide)).1⟩

end Mkfs
