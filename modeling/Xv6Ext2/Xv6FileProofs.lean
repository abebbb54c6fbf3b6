import Xv6Ext2.Xv6BmapProofs

/-! # Files of the root device as byte strings

    On a consistent image the bytes of a file are those of its blocks, in order. `Wrote` says what
    the loop of `xv6fs_writei` has done so far; one turn does it for the bytes of one block
    (`write_turn`), and two stretches that follow each other are one (`Wrote.trans`).

    - `writei_sat` : how a call of `xv6fs_writei` within the limits ends;
    - `readi_refines` : `xv6fs_readi` as an operation on the content. -/

namespace Xv6Image

open ByteBlock BufCache Outcome Ownership FileIo Xv6Alloc Xv6Inode

open Function (update update_of_ne update_self)

def fileByte (ip : Dinode) (v : Disk) (k : Nat) : UInt8 :=
  v (blockAt ip v (k / BSIZE)) (k % BSIZE)

def content (ip : Dinode) (v : Disk) : List UInt8 :=
  (List.range ip.size).map (fileByte ip v)

section Loops

variable {sb : Superblock} {D : Nat → Dinode} {inum nb : Nat}

/-! ## Writing -/

lemma need_self (nb : Nat) : need nb nb = 0 := by
  unfold need
  rw [if_neg (by omega)]
  omega

lemma need_trans {nb' nb'' : Nat} (h : nb ≤ nb') (h' : nb' ≤ nb'') :
    need nb nb'' = need nb nb' + need nb' nb'' := by
  unfold need
  split <;> split <;> split <;> omega

/-- `xv6fs_bmap` of a number up to the next one. -/
lemma bmap_reach (hl : Layout sb) {s : Bcache} (h : Working sb D inum nb s.view) {bn : Nat}
    (hbn : bn ≤ nb) (hmax : bn < MAXFILE) : Sat (xv6fsBmap sb (D inum) bn s)
      (fun r => ∃ D', r.2.1 = D' inum ∧ Working sb D' inum (max nb (bn + 1)) r.2.2.view ∧
        Grown sb inum D s.view D' r.2.2.view ∧ r.1 = blockAt (D' inum) r.2.2.view bn ∧
        freeBlocks sb s.view = freeBlocks sb r.2.2.view + need nb (max nb (bn + 1)))
      (Short sb s.view (need nb (max nb (bn + 1)))) := by
  by_cases hlt : bn < nb
  · obtain ⟨s', hmap, hview⟩ := bmap_old h hlt
    rw [hmap, show max nb (bn + 1) = nb by omega, need_self]
    refine Sat.ok ⟨D, rfl, ?_, ?_, ?_, ?_⟩
    · rw [hview]; exact h
    · rw [hview]; exact Grown.refl _ _ _ _
    · rw [hview]
    · rw [hview, Nat.add_zero]
  · obtain rfl : bn = nb := by omega
    rw [show max bn (bn + 1) = bn + 1 by omega]
    exact bmap_new hl h hmax

/-- Between two states of `xv6fs_writei`: the `n` bytes from `off` on are those of `src`,
    the other bytes of the first `nb` blocks and the other files are as before. -/
structure Wrote (sb : Superblock) (inum : Nat) (D : Nat → Dinode) (v : Disk)
    (D' : Nat → Dinode) (v' : Disk) (nb off n : Nat) (src : Nat → UInt8) : Prop where
  inodes : ∀ j, j ≠ inum → D' j = D j
  fields : { D inum with addrs := (D' inum).addrs } = D' inum
  disk   : ∀ c < sb.bmapstart, v' c = v c
  keeps  : ∀ q, owns sb D v q ≠ 0 → owns sb D' v' q = owns sb D v q
  data   : ∀ q, owns sb D v q ≠ 0 → q.1 ≠ inum → v' (owns sb D v q) = v (owns sb D v q)
  bytes  : ∀ k, k < nb * BSIZE ∨ k < off + n → fileByte (D' inum) v' k =
    if off ≤ k ∧ k < off + n then src (k - off) else fileByte (D inum) v k

variable {D' : Nat → Dinode} {v v' : Disk}

variable {v'' : Disk} {off m : Nat} {src : Nat → UInt8}

lemma Wrote.trans {D'' : Nat → Dinode} {nb' n : Nat} (h : Wrote sb inum D v D' v' nb off m src)
    (h' : Wrote sb inum D' v' D'' v'' nb' (off + m) n (fun k => src (m + k))) (hnb : nb ≤ nb') :
    Wrote sb inum D v D'' v'' nb off (m + n) src := by
  have hheld : ∀ q, owns sb D v q ≠ 0 → owns sb D' v' q ≠ 0 := by
    intro q hq
    rwa [h.keeps q hq]
  refine ⟨fun j hj => (h'.inodes j hj).trans (h.inodes j hj), ?_,
    fun c hc => (h'.disk c hc).trans (h.disk c hc),
    fun q hq => (h'.keeps q (hheld q hq)).trans (h.keeps q hq), fun q hq hne => ?_, fun k hk => ?_⟩
  · rw [← h'.fields, ← h.fields]
  · have hd := h'.data q (hheld q hq) hne
    rw [h.keeps q hq] at hd
    exact hd.trans (h.data q hq hne)
  · have hle : nb * BSIZE ≤ nb' * BSIZE := Nat.mul_le_mul_right _ hnb
    rw [h'.bytes k (by omega)]
    by_cases hnew : off + m ≤ k ∧ k < off + m + n
    · rw [if_pos hnew, if_pos (by omega), show m + (k - (off + m)) = k - off by omega]
    rw [if_neg hnew, h.bytes k (by omega)]
    by_cases hin : off ≤ k ∧ k < off + m
    · rw [if_pos hin, if_pos (by omega)]
    · rw [if_neg hin, if_neg (by omega)]

/-- Growing alone writes nothing. -/
lemma Grown.fileByte (h : Grown sb inum D v D' v')
    (hw : Working sb D inum nb v) (hc : Core sb D' inum v') {k : Nat} (hk : k < nb * BSIZE) :
    fileByte (D' inum) v' k = fileByte (D inum) v k := by
  have hlt : k / BSIZE < nb := by unfold BSIZE at *; omega
  have hne : owns sb D v (inum, slotOf (k / BSIZE)) ≠ 0 := by
    rw [← hw.core.blockAt_eq]
    exact (hw.covers.block _).mpr hlt
  have hslot : (inum, slotOf (k / BSIZE)) ≠ (inum, NDIRECT) :=
    fun e => slotOf_ne _ (Prod.mk.inj e).2
  rw [Xv6Image.fileByte, Xv6Image.fileByte, hc.blockAt_eq, hw.core.blockAt_eq, h.keeps _ hne,
    h.data _ hne hslot]

lemma Working.store_block (hl : Areas sb) (h : Working sb D inum nb v) {bn : Nat}
    (hbn : bn < nb) (d : Block) : Working sb D inum nb (update v (blockAt (D inum) v bn) d) ∧
    owns sb D (update v (blockAt (D inum) v bn) d) = owns sb D v ∧
    (∀ c < dataStart sb, update v (blockAt (D inum) v bn) d c = v c) ∧
    freeBlocks sb (update v (blockAt (D inum) v bn) d) = freeBlocks sb v ∧
    ∀ q, owns sb D v q ≠ 0 → q ≠ (inum, slotOf bn) →
      update v (blockAt (D inum) v bn) d (owns sb D v q) = v (owns sb D v q) := by
  have hne := (h.covers.block bn).mpr hbn
  rw [h.core.blockAt_eq] at hne ⊢
  have hdata := h.core.tracked.in_data _ hne
  have hmeta : ∀ b < dataStart sb, update v (owns sb D v (inum, slotOf bn)) d b = v b := by
    intro b hb
    have hge := hdata.1
    exact update_of_ne (by omega) _ _
  have hother : ∀ q, owns sb D v q ≠ 0 → q ≠ (inum, slotOf bn) →
      update v (owns sb D v (inum, slotOf bn)) d (owns sb D v q) = v (owns sb D v q) :=
    fun q hq hqne =>
      update_of_ne (fun e => hqne (h.core.tracked.distinct q _ hq e)) _ _
  have hind : ∀ j, owns sb D v (j, NDIRECT) ≠ 0 →
      update v (owns sb D v (inum, slotOf bn)) d (owns sb D v (j, NDIRECT)) =
        v (owns sb D v (j, NDIRECT)) :=
    fun j hj => hother _ hj (fun e => slotOf_ne bn (Prod.mk.inj e).2.symm)
  have howns := owns_congr hind
  refine ⟨⟨h.core.frame hl hmeta hind, h.covers.congr (fun p => ?_)⟩, howns, hmeta,
    freeBlocks_congr (fun c hc => bitOf_congr (hmeta _ (BBLOCK_lt hc))), hother⟩
  rw [← owns_of_inUse h.core.inUse, ← owns_of_inUse h.core.inUse, howns]

lemma write_turn (hl : Areas sb) (h : Working sb D inum nb v) (hoff : off ≤ nb * BSIZE)
    (hm : off % BSIZE + m ≤ BSIZE)
    (h' : Working sb D' inum (max nb (off / BSIZE + 1)) v') (hg : Grown sb inum D v D' v')
    (hv'' : v'' = update v' (blockAt (D' inum) v' (off / BSIZE))
      (fillBlock (v' (blockAt (D' inum) v' (off / BSIZE)))
        (blit (v' (blockAt (D' inum) v' (off / BSIZE))) (off % BSIZE) m src))) :
    Working sb D' inum (max nb (off / BSIZE + 1)) v'' ∧ freeBlocks sb v'' = freeBlocks sb v' ∧
    Wrote sb inum D v D' v'' nb off m src := by
  have hbn : off / BSIZE < max nb (off / BSIZE + 1) := by omega
  have hstore := h'.store_block hl hbn (fillBlock (v' (blockAt (D' inum) v' (off / BSIZE)))
    (blit (v' (blockAt (D' inum) v' (off / BSIZE))) (off % BSIZE) m src))
  rw [← hv''] at hstore
  obtain ⟨hw, howns, hmeta, hfree, hother⟩ := hstore
  have hlow := bmapstart_lt_dataStart sb
  have hblock : ∀ bn, blockAt (D' inum) v'' bn = blockAt (D' inum) v' bn := by
    intro bn
    rw [hw.core.blockAt_eq, h'.core.blockAt_eq, howns]
  refine ⟨hw, hfree, hg.inodes, hg.fields, fun c hc => (hmeta c (by omega)).trans (hg.disk c hc),
    fun q hq => by rw [howns, hg.keeps q hq], fun q hq hne => ?_, fun k hk => ?_⟩
  · have hq' : q ≠ (inum, NDIRECT) := fun e => hne (by rw [e])
    have hq'' : q ≠ (inum, slotOf (off / BSIZE)) := fun e => hne (by rw [e])
    have hkeep := hg.keeps q hq
    have hdata := hother q (by rw [hkeep]; exact hq) hq''
    rw [hkeep] at hdata
    exact hdata.trans (hg.data q hq hq')
  · by_cases hkb : k / BSIZE = off / BSIZE
    · -- a byte of the block that is stored
      have hbyte : fileByte (D' inum) v'' k =
          blit (v' (blockAt (D' inum) v' (off / BSIZE))) (off % BSIZE) m src (k % BSIZE) := by
        rw [fileByte, hblock, hkb, hv'', update_self, fillBlock_in (Nat.mod_lt _ (by decide))]
      rw [hbyte]
      by_cases hin : off ≤ k ∧ k < off + m
      · rw [if_pos hin, blit_in (by unfold BSIZE at *; omega)]
        congr 1
        unfold BSIZE at *
        omega
      · rw [if_neg hin, blit_out (by unfold BSIZE at *; omega), ← hkb,
          ← hg.fileByte h h'.core (by omega), fileByte]
    · -- a byte of another block
      have hlt : k < nb * BSIZE := by unfold BSIZE at *; omega
      have hne : owns sb D' v' (inum, slotOf (k / BSIZE)) ≠ 0 := by
        rw [← h'.core.blockAt_eq]
        exact (h'.covers.block _).mpr (by unfold BSIZE at *; omega)
      have hslot : (inum, slotOf (k / BSIZE)) ≠ (inum, slotOf (off / BSIZE)) :=
        fun e => hkb (slotOf_inj (Prod.mk.inj e).2)
      have hbyte : fileByte (D' inum) v'' k = fileByte (D' inum) v' k := by
        rw [fileByte, fileByte, hblock, h'.core.blockAt_eq, hother _ hne hslot]
      rw [if_neg (by unfold BSIZE at *; omega), hbyte, hg.fileByte h h'.core hlt]

/-- **The loop of `xv6fs_writei`** stores the bytes, or the disk is full. -/
lemma writeLoop_sat (hl : Layout sb) (fuel : Nat) :
    ∀ (D : Nat → Dinode) (nb off r : Nat) (src : Nat → UInt8) (s : Bcache), r ≤ fuel →
    Working sb D inum nb s.view → off ≤ nb * BSIZE → off + r ≤ MAXFILE * BSIZE →
    Sat (writeLoop (xv6fsBmap sb) logWrite fuel (D inum) src off r s)
      (fun p => ∃ D', p.1 = D' inum ∧ Working sb D' inum (max nb (blocks (off + r))) p.2.view ∧
        Wrote sb inum D s.view D' p.2.view nb off r src ∧
        freeBlocks sb s.view = freeBlocks sb p.2.view + need nb (max nb (blocks (off + r))))
      (Short sb s.view (need nb (max nb (blocks (off + r))))) := by
  -- nothing is left to write: the blocks before `off` are there
  have hdone : ∀ (D : Nat → Dinode) (nb off : Nat) (src : Nat → UInt8) (s : Bcache),
      Working sb D inum nb s.view → off ≤ nb * BSIZE →
      ∃ D', D inum = D' inum ∧ Working sb D' inum (max nb (blocks (off + 0))) s.view ∧
        Wrote sb inum D s.view D' s.view nb off 0 src ∧ freeBlocks sb s.view =
          freeBlocks sb s.view + need nb (max nb (blocks (off + 0))) := by
    intro D nb off src s h hoff
    have hnb : max nb (blocks (off + 0)) = nb := by unfold blocks BSIZE at *; omega
    rw [hnb, need_self]
    exact ⟨D, rfl, h, ⟨fun _ _ => rfl, rfl, fun _ _ => rfl, fun _ _ => rfl, fun _ _ _ => rfl,
      fun k _ => (if_neg (by omega)).symm⟩, rfl⟩
  induction fuel with
  | zero =>
    intro D nb off r src s hr h hoff _
    obtain rfl : r = 0 := by omega
    exact Sat.ok (hdone D nb off src s h hoff)
  | succ fuel ih =>
    intro D nb off r src s hr h hoff hmax
    rw [writeLoop]
    by_cases hr0 : r = 0
    · subst hr0
      rw [if_pos rfl]
      exact Sat.ok (hdone D nb off src s h hoff)
    rw [if_neg hr0]
    obtain ⟨m, hm⟩ : ∃ m, m = min r (BSIZE - off % BSIZE) := ⟨_, rfl⟩
    rw [← hm]
    have hpos : 0 < m := by unfold BSIZE at *; omega
    have hbn : off / BSIZE ≤ nb := by unfold BSIZE at *; omega
    have hbmax : off / BSIZE < MAXFILE := by unfold BSIZE at *; omega
    have hblk : off % BSIZE + m ≤ BSIZE := by unfold BSIZE at *; omega
    have hoff' : off + m ≤ max nb (off / BSIZE + 1) * BSIZE := by unfold BSIZE at *; omega
    have hlast : max (max nb (off / BSIZE + 1)) (blocks (off + m + (r - m))) =
        max nb (blocks (off + r)) := by unfold blocks BSIZE at *; omega
    have hneed : need nb (max nb (blocks (off + r))) = need nb (max nb (off / BSIZE + 1)) +
        need (max nb (off / BSIZE + 1)) (max nb (blocks (off + r))) :=
      need_trans (by omega) (by omega)
    refine ((bmap_reach hl h hbn hbmax).mono (fun p hp => hp) ?_).bind ?_
    · rintro e ⟨he, hlt⟩
      exact ⟨he, by omega⟩
    · rintro ⟨b, ip, s1⟩ ⟨D', hip, h', hg, hb, hcount⟩
      dsimp only at hip h' hg hb hcount ⊢
      rw [bread_nil]
      dsimp only
      subst hip hb
      obtain ⟨hw, hfree, hwrote⟩ := write_turn hl h hoff hblk h' hg
        (show (logWrite (blockAt (D' inum) s1.view (off / BSIZE))
          (blit (s1.view (blockAt (D' inum) s1.view (off / BSIZE))) (off % BSIZE) m src)
          (s1.touch (blockAt (D' inum) s1.view (off / BSIZE)))).view = _ by
            rw [logWrite, bput_view, touch_view])
      refine (ih D' _ (off + m) (r - m) (fun k => src (m + k)) _ (by omega) hw
        hoff' (by omega)).mono ?_ ?_
      · rintro ⟨ip, s2⟩ ⟨D'', hip, hw'', hwrote', hcount'⟩
        dsimp only at hip hw'' hwrote' hcount' ⊢
        rw [hlast] at hw'' hcount'
        have hall := hwrote.trans hwrote' (by omega)
        rw [show m + (r - m) = r by omega] at hall
        exact ⟨D'', hip, hw'', hall, by omega⟩
      · rintro e ⟨he, hlt⟩
        rw [hlast] at hlt
        exact ⟨he, by omega⟩

end Loops

/-! ## Whole calls -/

section Calls

variable {sb : Superblock} {inum : Nat}

variable {v : Disk}

lemma Consistent.working (h : Consistent sb v) (hu : InUse sb (dinodeAt sb v) inum)
    (hf : IsFile (dinodeAt sb v inum)) :
    Working sb (dinodeAt sb v) inum (blocks (dinodeAt sb v inum).size) v :=
  ⟨h.core hu, h.covers hu hf⟩

variable {ip : Dinode}

variable {nb : Nat}

lemma Covers.le_max (h : Covers ip v nb) : nb ≤ MAXFILE := by
  by_contra hlt
  refine (h.block MAXFILE).mpr (by omega) (ownBlock_none ?_ (.inl ?_))
  · unfold slotOf MAXFILE
    rw [if_neg (by omega)]
    omega
  · unfold slotOf MAXFILE
    rw [if_neg (by omega)]
    omega

lemma size_le_max (h : Consistent sb v) (hu : InUse sb (dinodeAt sb v) inum)
    (hf : IsFile (dinodeAt sb v inum)) : (dinodeAt sb v inum).size ≤ MAXFILE * BSIZE := by
  have hle := (h.covers hu hf).le_max
  unfold blocks BSIZE at *
  omega

variable {ip' : Dinode} {v' : Disk}

lemma Covers.addrs_eq (h : Covers ip v nb) (h' : Covers ip' v' nb) (hc : Canonical ip)
    (hc' : Canonical ip') (hkeep : ∀ p, ownBlock ip v p ≠ 0 → ownBlock ip' v' p = ownBlock ip v p) :
    ip'.addrs = ip.addrs := by
  funext p
  by_cases hp : NDIRECT < p
  · rw [hc.end_ p hp, hc'.end_ p hp]
  have hle : p ≤ NDIRECT := by omega
  by_cases h0 : ip.addrs p = 0
  · rw [h0]
    by_contra hne
    by_cases hpi : p = NDIRECT
    · rw [hpi] at h0 hne
      exact h.indirect.mpr (h'.indirect.mp hne) h0
    have hslot : slotOf p = p := slotOf_direct (by omega)
    have hb : ∀ (ip : Dinode) (v : Disk), blockAt ip v p = ip.addrs p := by
      intro ip v
      rw [blockAt, hslot, ownBlock_addr hle]
    rw [← hb ip' v', ← Ne, h'.block, ← h.block, hb] at hne
    exact hne h0
  · have := hkeep p (by rw [ownBlock_addr hle]; exact h0)
    rwa [ownBlock_addr hle, ownBlock_addr hle] at this

/-- A call of `xv6fs_writei` within the limits has stored the `n` bytes of `src` at `off`. -/
structure Written (sb : Superblock) (inum : Nat) (v : Disk) (ip' : Dinode) (v' : Disk)
    (off n : Nat) (src : Nat → UInt8) : Prop where
  consistent : Consistent sb v'
  stored     : dinodeAt sb v' inum = ip'
  fields     : { dinodeAt sb v inum with
    size := max (dinodeAt sb v inum).size (off + n), addrs := ip'.addrs } = ip'
  bytes      : ∀ k < max (dinodeAt sb v inum).size (off + n), fileByte ip' v' k =
    if off ≤ k ∧ k < off + n then src (k - off) else fileByte (dinodeAt sb v inum) v k
  others     : ∀ j, j ≠ inum → j < sb.ninodes → dinodeAt sb v' j = dinodeAt sb v j
  contents   : ∀ j, j ≠ inum → InUse sb (dinodeAt sb v) j → IsFile (dinodeAt sb v j) →
    content (dinodeAt sb v' j) v' = content (dinodeAt sb v j) v

/-- Another file, whose inode and blocks are as before. -/
lemma content_congr {j : Nat} (h : Consistent sb v)
    (hu : InUse sb (dinodeAt sb v) j) (hf : IsFile (dinodeAt sb v j))
    (hinode : dinodeAt sb v' j = dinodeAt sb v j)
    (hkeep : ∀ p, owns sb (dinodeAt sb v) v (j, p) ≠ 0 →
      ownBlock (dinodeAt sb v j) v' p = owns sb (dinodeAt sb v) v (j, p) ∧
      v' (owns sb (dinodeAt sb v) v (j, p)) = v (owns sb (dinodeAt sb v) v (j, p))) :
    content (dinodeAt sb v' j) v' = content (dinodeAt sb v j) v := by
  rw [hinode, content, content]
  refine List.map_congr_left (fun k hk => ?_)
  have hk' := List.mem_range.mp hk
  have hcov := h.covers hu hf
  have hne : owns sb (dinodeAt sb v) v (j, slotOf (k / BSIZE)) ≠ 0 := by
    rw [owns_of_inUse hu]
    exact (hcov.block _).mpr ((lt_blocks_iff _ _).mpr (by unfold BSIZE; omega))
  obtain ⟨ho, hd⟩ := hkeep _ hne
  rw [fileByte, fileByte, blockAt, ho, hd, owns_of_inUse hu, blockAt]

variable {D' : Nat → Dinode}

lemma Covers.of_core {D : Nat → Dinode} (h : Covers (D inum) v nb) (hc : Core sb D inum v)
    (hc' : Core sb D' inum v') (howns : owns sb D' v' = owns sb D v) : Covers (D' inum) v' nb := by
  have hi : (D' inum).addrs NDIRECT = (D inum).addrs NDIRECT := by
    have := congrFun howns (inum, NDIRECT)
    rwa [owns_of_inUse hc'.inUse, owns_of_inUse hc.inUse, ownBlock_addr le_rfl,
      ownBlock_addr le_rfl] at this
  refine ⟨fun bn => ?_, by rw [hi]; exact h.indirect⟩
  rw [hc'.blockAt_eq, howns, ← hc.blockAt_eq]
  exact h.block bn

variable {off n : Nat} {src : Nat → UInt8}

/-- The end of `xv6fs_writei`: the loop has ended in `D'`, `v'`, and the inode with its new
    size is on disk in `v''`. -/
lemma Wrote.written {v'' : Disk} {D'' : Nat → Dinode} (h : Consistent sb v)
    (hwrote : Wrote sb inum (dinodeAt sb v) v D' v' (blocks (dinodeAt sb v inum).size) off n src)
    (hc' : Core sb D' inum v') (hc : Core sb D'' inum v'') (hinodes : ∀ j, j ≠ inum → D'' j = D' j)
    (hfields : { dinodeAt sb v inum with
      size := max (dinodeAt sb v inum).size (off + n), addrs := (D'' inum).addrs } = D'' inum)
    (howns : owns sb D'' v'' = owns sb D' v') (hdata : ∀ b, dataStart sb ≤ b → v'' b = v' b)
    (hdisk : dinodeAt sb v'' inum = D'' inum)
    (hcov : Covers (D'' inum) v'' (blocks (D'' inum).size)) :
    Written sb inum v (D'' inum) v'' off n src := by
  have hothers : ∀ j, j ≠ inum → j < sb.ninodes → dinodeAt sb v'' j = dinodeAt sb v j := by
    intro j hj hlt
    rw [hc.disk j hj hlt, hinodes j hj, hwrote.inodes j hj]
  have hblock : ∀ q, owns sb D' v' q ≠ 0 → v'' (owns sb D' v' q) = v' (owns sb D' v' q) :=
    fun q hq => hdata _ (hc'.tracked.in_data q hq).1
  refine ⟨hc.consistent hdisk (fun _ => hcov), hdisk, hfields, fun k hk => ?_, hothers,
    fun j hj hu hf => ?_⟩
  · have hsize : (D'' inum).size = max (dinodeAt sb v inum).size (off + n) := by
      rw [← hfields]
    have hne : owns sb D'' v'' (inum, slotOf (k / BSIZE)) ≠ 0 := by
      rw [← hc.blockAt_eq]
      exact (hcov.block _).mpr ((lt_blocks_iff _ _).mpr (by rw [hsize]; unfold BSIZE; omega))
    have hbyte : fileByte (D'' inum) v'' k = fileByte (D' inum) v' k := by
      rw [howns] at hne
      rw [fileByte, fileByte, hc.blockAt_eq, hc'.blockAt_eq, howns, hblock _ hne]
    rw [hbyte]
    exact hwrote.bytes k (by unfold blocks BSIZE at *; omega)
  · have hlt := hu.2.1
    refine content_congr h hu hf (hothers j hj hlt) (fun p hp => ?_)
    have hkeep := hwrote.keeps _ hp
    have hu'' : InUse sb D'' j := by
      rwa [inUse_congr (hinodes j hj), inUse_congr (hwrote.inodes j hj)]
    have hown : ownBlock (dinodeAt sb v j) v'' p = owns sb D' v' (j, p) := by
      rw [← howns, owns_of_inUse hu'', hinodes j hj, hwrote.inodes j hj]
    have hd := hblock (j, p) (by rw [hkeep]; exact hp)
    rw [hkeep] at hd
    exact ⟨hown.trans hkeep, hd.trans (hwrote.data _ hp hj)⟩

lemma Wrote.written_grown (hl : Areas sb) (h : Consistent sb v)
    (hwrote : Wrote sb inum (dinodeAt sb v) v D' v' (blocks (dinodeAt sb v inum).size) off n src)
    (hw' : Working sb D' inum (blocks (off + n)) v') (hgrow : (dinodeAt sb v inum).size < off + n)
    (hlim : off + n < 2 ^ 32) (hip' : ip' = { D' inum with size := off + n }) :
    Written sb inum v ip' (updated sb v' inum ip') off n src := by
  have hcanon : Canonical ip' := by
    have hc := hw'.core.canon
    rw [hip']
    exact ⟨hc.type, hc.major, hc.minor, hc.nlink, hlim, hc.addrs, hc.end_⟩
  obtain ⟨hc, howns, hother⟩ := hw'.core.store hl hcanon (by rw [hip']) (by rw [hip'])
  have hself : update D' inum ip' inum = ip' := update_self _ _ _
  have hsize : ip'.size = off + n := by rw [hip']
  have hib := IBLOCK_lt_dataStart hl hw'.core.inUse.2.1
  have hend : Written sb inum v (update D' inum ip' inum) (updated sb v' inum ip') off n src := by
    refine hwrote.written h hw'.core hc (fun j hj => update_of_ne hj _ _) ?_ howns
      (fun b hb => hother b (by omega)) ?_ ?_
    · rw [hself, hip', ← hwrote.fields, Nat.max_eq_right hgrow.le]
    · rw [hself]
      exact dinodeAt_updated sb v' hcanon
    · have hcov := hw'.covers.of_core hw'.core hc howns
      rw [hself] at hcov ⊢
      rwa [hsize]
  rwa [hself] at hend

/-- No new block: the inode on disk is still the one in memory. -/
lemma Wrote.written_same (hl : Layout sb) (h : Consistent sb v)
    (hw : Working sb (dinodeAt sb v) inum (blocks (dinodeAt sb v inum).size) v)
    (hwrote : Wrote sb inum (dinodeAt sb v) v D' v' (blocks (dinodeAt sb v inum).size) off n src)
    (hw' : Working sb D' inum (blocks (dinodeAt sb v inum).size) v')
    (hin : off + n ≤ (dinodeAt sb v inum).size) : Written sb inum v (D' inum) v' off n src := by
  have haddrs : (D' inum).addrs = (dinodeAt sb v inum).addrs := by
    refine hw.covers.addrs_eq hw'.covers hw.core.canon hw'.core.canon (fun p hp => ?_)
    rw [← owns_of_inUse hw'.core.inUse, ← owns_of_inUse hw.core.inUse]
    rw [← owns_of_inUse hw.core.inUse] at hp
    exact hwrote.keeps _ hp
  have hinode : D' inum = dinodeAt sb v inum := by rw [← hwrote.fields, haddrs]
  refine hwrote.written h hw'.core hw'.core (fun _ _ => rfl) ?_ rfl (fun _ _ => rfl) ?_ ?_
  · rw [Nat.max_eq_left hin, hinode]
  · rw [dinodeAt_congr (hwrote.disk _ (IBLOCK_lt hl hw.core.inUse.2.1)), hinode]
  · have hcov := hw'.covers
    rw [hinode] at hcov ⊢
    exact hcov

variable {s : Bcache}

/-- **`xv6fs_writei` within the limits** stores the bytes, in as many free blocks as the new
    size needs, or the disk is full. -/
lemma writei_counts (hl : Layout sb) (devsw : Nat → Devsw) (src : Nat → UInt8)
    (h : Consistent sb s.view) (hu : InUse sb (dinodeAt sb s.view) inum)
    (hf : IsFile (dinodeAt sb s.view inum)) (hoff : off ≤ (dinodeAt sb s.view inum).size)
    (hmax : off + n ≤ MAXFILE * BSIZE) :
    Sat (xv6fsWritei sb inum devsw (dinodeAt sb s.view inum) src off n s)
      (fun r => r.1 = n ∧ Written sb inum s.view r.2.1 r.2.2.view off n src ∧
        freeBlocks sb s.view = freeBlocks sb r.2.2.view +
          need (blocks (dinodeAt sb s.view inum).size)
            (blocks (max (dinodeAt sb s.view inum).size (off + n))))
      (Short sb s.view (need (blocks (dinodeAt sb s.view inum).size)
        (blocks (max (dinodeAt sb s.view inum).size (off + n))))) := by
  have hw := h.working hu hf
  have hlim : MAXFILE * BSIZE = 274432 := rfl
  obtain ⟨size, hsize⟩ : ∃ size, size = (dinodeAt sb s.view inum).size := ⟨_, rfl⟩
  have hmod : (off + n) % 2 ^ 32 = off + n := Nat.mod_eq_of_lt (by omega)
  have hdev : (dinodeAt sb s.view inum).type ≠ T_DEV := by
    rcases hf with ht | ht <;> rw [ht] <;> decide
  have hint : asInt n = n := if_pos (by omega)
  have hlast : max (blocks size) (blocks (off + n)) = blocks (max size (off + n)) := by
    unfold blocks BSIZE
    omega
  have hstart : off ≤ blocks size * BSIZE := by unfold blocks BSIZE; omega
  rw [xv6fsWritei, writei, if_neg hdev, hmod, if_neg (by omega), if_neg (by omega), ← hsize,
    ← hlast, hint]
  rw [← hsize] at hw
  refine (writeLoop_sat hl n _ _ off n src s (Nat.le_refl n) hw hstart hmax).bind ?_
  rintro ⟨ip, s1⟩ ⟨D', hip, hw', hwrote, hcount⟩
  dsimp only at hip hw' hwrote hcount ⊢
  subst hip
  have hsame : (D' inum).size = size := by rw [← hwrote.fields, hsize]
  rw [hlast] at hw'
  rw [hsame]
  split
  · next hgrow =>
    obtain ⟨ip', hip'⟩ : ∃ ip', ip' = { D' inum with size := off + n } := ⟨_, rfl⟩
    rw [← hip']
    obtain ⟨s2, hupd, hview⟩ := xv6fsIupdate_eq sb inum ip' s1
    rw [hupd, ok_bind]
    rw [Nat.max_eq_right (Nat.le_of_lt hgrow.2)] at hw'
    have hbits : freeBlocks sb s2.view = freeBlocks sb s1.view := by
      rw [hview]
      refine freeBlocks_congr (fun c _ => bitOf_congr (update_of_ne ?_ _ _))
      have := IBLOCK_lt hl hu.2.1
      have := bmapstart_le_BBLOCK sb c
      omega
    refine Sat.ok ⟨rfl, ?_, by rw [hbits]; exact hcount⟩
    dsimp only
    rw [hview]
    rw [hsize] at hwrote hgrow
    exact hwrote.written_grown hl h hw' hgrow.2 (by omega) hip'
  · next hgrow =>
    rw [Nat.max_eq_left (by omega), hsize] at hw'
    rw [hsize] at hwrote hw hgrow
    exact Sat.ok ⟨rfl, hwrote.written_same hl h hw hw' (by omega), hcount⟩

lemma writei_sat (hl : Layout sb) (devsw : Nat → Devsw) (src : Nat → UInt8)
    (h : Consistent sb s.view) (hu : InUse sb (dinodeAt sb s.view) inum)
    (hf : IsFile (dinodeAt sb s.view inum)) (hoff : off ≤ (dinodeAt sb s.view inum).size)
    (hmax : off + n ≤ MAXFILE * BSIZE) :
    Sat (xv6fsWritei sb inum devsw (dinodeAt sb s.view inum) src off n s)
      (fun r => r.1 = n ∧ Written sb inum s.view r.2.1 r.2.2.view off n src)
      (Short sb s.view (need (blocks (dinodeAt sb s.view inum).size)
        (blocks (max (dinodeAt sb s.view inum).size (off + n))))) :=
  (writei_counts hl devsw src h hu hf hoff hmax).mono (fun _ hr => ⟨hr.1, hr.2.1⟩) (fun _ he => he)

lemma content_slice (ip : Dinode) (v : Disk) (off n : Nat) :
    (List.range (min n (ip.size - off))).map (fun k => fileByte ip v (off + k)) =
      ((content ip v).drop off).take n := by
  refine List.ext_getElem ?_ (fun k h1 h2 => ?_)
  · rw [List.length_map, List.length_range, List.length_take, List.length_drop, content,
      List.length_map, List.length_range]
  · rw [List.getElem_take, List.getElem_drop]
    simp only [content, List.getElem_map, List.getElem_range]

lemma IsFile.not_dev (h : IsFile ip) : ip.type ≠ T_DEV := by
  rcases h with ht | ht <;> rw [ht] <;> decide

lemma wraps_iff (hoff : off < 2 ^ 32) (hn : n < 2 ^ 32) :
    (off + n) % 2 ^ 32 < off ↔ 2 ^ 32 ≤ off + n := by
  omega

lemma readi_held (devsw : Nat → Devsw) (hdev : ip.type ≠ T_DEV) (hoff : off ≤ ip.size)
    (hn : off + n < 2 ^ 32) (hint : min n (ip.size - off) < 2 ^ 31)
    (hblocks : ∀ bn, bn * BSIZE < min (off + n) ip.size → blockAt ip s.view bn ≠ 0) :
    ∃ s', xv6fsReadi sb devsw ip off n s =
        .ok (((min n (ip.size - off) : Nat), ((content ip s.view).drop off).take n), ip, s') ∧
      s'.view = s.view := by
  have hmod : (off + n) % 2 ^ 32 = off + n := Nat.mod_eq_of_lt hn
  have hcount : (if ip.size < off + n then ip.size - off else n) = min n (ip.size - off) := by
    split <;> omega
  rw [xv6fsReadi, readi, if_neg hdev, hmod, if_neg (by omega), hcount, ← content_slice]
  obtain ⟨m, hm⟩ : ∃ m, m = min n (ip.size - off) := ⟨_, rfl⟩
  rw [← hm]
  have hbmap : ∀ bn t, off / BSIZE ≤ bn → bn * BSIZE < off + m → Bcache.view t = s.view →
      ∃ t', xv6fsBmap sb ip bn t = .ok (blockAt ip s.view bn, ip, t') ∧ t'.view = s.view := by
    intro bn t _ hbn ht
    have hheld := hblocks bn (by omega)
    rw [← ht] at hheld ⊢
    exact bmap_held hheld
  obtain ⟨s', hloop, hview⟩ := readLoop_bytes m off m s (Nat.le_refl m) rfl hbmap
  dsimp only
  rw [hloop, ok_bind, show asInt m = m from if_pos (by omega)]
  exact ⟨s', rfl, hview⟩

/-- **`xv6fs_readi` of a file** within the limits returns a part of the content and changes
    no contents. -/
lemma readi_reads (devsw : Nat → Devsw) (h : Consistent sb s.view)
    (hu : InUse sb (dinodeAt sb s.view) inum) (hf : IsFile (dinodeAt sb s.view inum))
    (hoff : off ≤ (dinodeAt sb s.view inum).size) (hn : off + n < 2 ^ 32) :
    ∃ s', xv6fsReadi sb devsw (dinodeAt sb s.view inum) off n s =
        .ok (((min n ((dinodeAt sb s.view inum).size - off) : Nat),
          ((content (dinodeAt sb s.view inum) s.view).drop off).take n),
          dinodeAt sb s.view inum, s') ∧ s'.view = s.view := by
  have hle := size_le_max h hu hf
  have hlim : MAXFILE * BSIZE = 274432 := rfl
  refine readi_held devsw hf.not_dev hoff hn (by omega) (fun bn hbn => ?_)
  exact ((h.covers hu hf).block bn).mpr ((lt_blocks_iff _ _).mpr (by omega))

variable {devsw : Nat → Devsw}

lemma readi_refuses (hf : IsFile ip) (h : ip.size < off ∨ (off + n) % 2 ^ 32 < off) :
    xv6fsReadi sb devsw ip off n s = .ok ((-1, []), ip, s) := by
  rw [xv6fsReadi, readi, if_neg hf.not_dev, if_pos h]

lemma writei_refuses (hf : IsFile ip) (h : ip.size < off ∨ (off + n) % 2 ^ 32 < off ∨
      MAXFILE * BSIZE < (off + n) % 2 ^ 32) :
    xv6fsWritei sb inum devsw ip src off n s = .ok (-1, ip, s) := by
  rw [xv6fsWritei, writei, if_neg hf.not_dev]
  by_cases h1 : ip.size < off ∨ (off + n) % 2 ^ 32 < off
  · rw [if_pos h1]
  · rw [if_neg h1, if_pos (by omega)]

/-- What a call on inode `inum` leaves behind: a consistent image that holds the inode as
    the call has it in memory, and the other inodes as they were. -/
structure Kept (sb : Superblock) (inum : Nat) (v : Disk) (ip' : Dinode) (v' : Disk) : Prop where
  consistent : Consistent sb v'
  stored     : dinodeAt sb v' inum = ip'
  type       : ip'.type = (dinodeAt sb v inum).type
  others     : ∀ j, j ≠ inum → j < sb.ninodes → dinodeAt sb v' j = dinodeAt sb v j

lemma Kept.of_view (h : Consistent sb v) (hview : v' = v) :
    Kept sb inum v (dinodeAt sb v inum) v' := by
  rw [hview]
  exact ⟨h, rfl, rfl, fun _ _ _ => rfl⟩

lemma Written.kept (h : Written sb inum v ip' v' off n src) : Kept sb inum v ip' v' :=
  ⟨h.consistent, h.stored, by rw [← h.fields], h.others⟩

/-- Every call of `xv6fs_writei` on an allocated inode, of whatever type. -/
lemma writei_kept (hl : Layout sb) (devsw : Nat → Devsw) (src : Nat → UInt8)
    (h : Consistent sb s.view) (hu : InUse sb (dinodeAt sb s.view) inum) (hn : n < 2 ^ 32) :
    Sat (xv6fsWritei sb inum devsw (dinodeAt sb s.view inum) src off n s)
      (fun r => Kept sb inum s.view r.2.1 r.2.2.view)
      (fun e => e = .panic "balloc: out of blocks") := by
  have hsame : Kept sb inum s.view (dinodeAt sb s.view inum) s.view := Kept.of_view h rfl
  rcases h.types inum hu with hf | hdev
  · by_cases hout : (dinodeAt sb s.view inum).size < off ∨ (off + n) % 2 ^ 32 < off ∨
        MAXFILE * BSIZE < (off + n) % 2 ^ 32
    · rw [writei_refuses hf hout]
      exact Sat.ok hsame
    have hle := size_le_max h hu hf
    have hlim : MAXFILE * BSIZE = 274432 := rfl
    exact (writei_sat hl devsw src h hu hf (show off ≤ _ by omega)
      (show off + n ≤ MAXFILE * BSIZE by omega)).mono (fun r hr => hr.2.kept) (fun e he => he.1)
  · rw [xv6fsWritei, writei, if_pos hdev]
    split
    · exact Sat.ok hsame
    split
    · exact Sat.ok hsame
    · exact Sat.ok hsame

/-- Every call of `xv6fs_readi` on an allocated inode returns and changes no contents; in
    particular it allocates no block. -/
lemma readi_kept (devsw : Nat → Devsw) (off : Nat)
    (h : Consistent sb s.view) (hu : InUse sb (dinodeAt sb s.view) inum) (hn : n < 2 ^ 32) :
    Sat (xv6fsReadi sb devsw (dinodeAt sb s.view inum) off n s)
      (fun r => r.2.1 = dinodeAt sb s.view inum ∧ r.2.2.view = s.view) (fun _ => False) := by
  rcases h.types inum hu with hf | hdev
  · by_cases hout : (dinodeAt sb s.view inum).size < off ∨ (off + n) % 2 ^ 32 < off
    · rw [readi_refuses hf hout]
      exact Sat.ok ⟨rfl, rfl⟩
    have hle := size_le_max h hu hf
    have hlim : MAXFILE * BSIZE = 274432 := rfl
    obtain ⟨s', hread, hview⟩ := readi_reads devsw h hu hf (show off ≤ _ by omega)
      (show off + n < 2 ^ 32 by omega)
    rw [hread]
    exact Sat.ok ⟨rfl, hview⟩
  · rw [xv6fsReadi, readi, if_pos hdev]
    split
    · exact Sat.ok ⟨rfl, rfl⟩
    split
    · exact Sat.ok ⟨rfl, rfl⟩
    · exact Sat.ok ⟨rfl, rfl⟩

/-- `xv6fs_iupdate` after a change of fields other than the type, the size and the addresses. -/
lemma iupdate_fields (hl : Layout sb) (h : Consistent sb s.view)
    (hu : InUse sb (dinodeAt sb s.view) inum) {major minor nlink : Nat}
    (hmajor : major < 2 ^ 16) (hminor : minor < 2 ^ 16) (hnlink : nlink < 2 ^ 16) :
    ∃ s', xv6fsIupdate sb inum { dinodeAt sb s.view inum with
        major := major, minor := minor, nlink := nlink } s = .ok s' ∧
      Kept sb inum s.view { dinodeAt sb s.view inum with
        major := major, minor := minor, nlink := nlink } s'.view := by
  obtain ⟨ip, hip⟩ : ∃ ip, ip = { dinodeAt sb s.view inum with
      major := major, minor := minor, nlink := nlink } := ⟨_, rfl⟩
  rw [← hip]
  have hc := dinodeAt_canonical sb s.view inum
  have hcanon : Canonical ip := by
    rw [hip]
    exact ⟨hc.type, hmajor, hminor, hnlink, hc.size, hc.addrs, hc.end_⟩
  have htype : ip.type = (dinodeAt sb s.view inum).type := by rw [hip]
  have hsize : ip.size = (dinodeAt sb s.view inum).size := by rw [hip]
  obtain ⟨s', hupd, hview⟩ := xv6fsIupdate_eq sb inum ip s
  obtain ⟨hcore, howns, -⟩ := (h.core hu).store hl hcanon htype (by rw [hip])
  have hself : update (dinodeAt sb s.view) inum ip inum = ip := update_self _ _ _
  have hstored : dinodeAt sb (updated sb s.view inum ip) inum = ip :=
    dinodeAt_updated sb s.view hcanon
  refine ⟨s', hupd, ?_⟩
  rw [hview]
  refine ⟨hcore.consistent (hstored.trans hself.symm) (fun hf => ?_), hstored, htype,
    fun j hj _ => dinodeAt_updated_of_ne sb s.view ip hj⟩
  have hf' : IsFile (dinodeAt sb s.view inum) := by
    unfold IsFile at *
    rwa [hself, htype] at hf
  have hcov := (h.covers hu hf').of_core (h.core hu) hcore howns
  rw [hself] at hcov ⊢
  rwa [hsize]

end Calls

/-! ## Operations on byte strings -/

/-- `c` with `d` in place of what it has from `off` on; longer if `d` ends behind it. -/
def splice (c : List UInt8) (off : Nat) (d : List UInt8) : List UInt8 :=
  c.take off ++ d ++ c.drop (off + d.length)

variable {d : List UInt8} {off : Nat}

lemma length_splice {c : List UInt8} (h : off ≤ c.length) :
    (splice c off d).length = max c.length (off + d.length) := by
  rw [splice, List.length_append, List.length_append, List.length_take, List.length_drop]
  omega

lemma getElem_splice {c : List UInt8} {k : Nat} (h : off ≤ c.length)
    (hk : k < (splice c off d).length) : (splice c off d)[k] =
      if off ≤ k ∧ k < off + d.length then d.getD (k - off) 0 else c.getD k 0 := by
  have hlen := length_splice (d := d) h
  have htake : (c.take off).length = off := List.length_take_of_le h
  simp only [splice, List.getElem_append, List.getElem_take, List.getElem_drop, htake,
    List.length_append]
  by_cases h1 : k < off
  · rw [dif_pos (by omega), dif_pos h1, if_neg (by omega), List.getD_eq_getElem]
  by_cases h2 : k < off + d.length
  · rw [dif_pos h2, dif_neg h1, if_pos (by omega), List.getD_eq_getElem]
  rw [dif_neg h2, if_neg (by omega)]
  rw [List.getD_eq_getElem c 0 (by omega)]
  congr 1
  omega

lemma length_content (ip : Dinode) (v : Disk) : (content ip v).length = ip.size := by
  rw [content, List.length_map, List.length_range]

lemma getD_content {ip : Dinode} {v : Disk} {k : Nat} (h : k < ip.size) :
    (content ip v).getD k 0 = fileByte ip v k := by
  rw [List.getD_eq_getElem _ 0 (by rw [length_content]; exact h)]
  simp only [content, List.getElem_map, List.getElem_range]

variable {sb : Superblock} {inum : Nat}

/-- What a call of `xv6fs_writei` has stored, as content. -/
lemma Written.content_eq {v v' : Disk} {ip' : Dinode}
    (h : Written sb inum v ip' v' off d.length (fun k => d.getD k 0))
    (hoff : off ≤ (dinodeAt sb v inum).size) :
    content ip' v' = splice (content (dinodeAt sb v inum) v) off d := by
  have hoff' : off ≤ (content (dinodeAt sb v inum) v).length := by
    rwa [length_content]
  have hsize : ip'.size = max (dinodeAt sb v inum).size (off + d.length) := by
    rw [← h.fields]
  refine List.ext_getElem ?_ (fun k h1 h2 => ?_)
  · rw [length_splice hoff', length_content, length_content, hsize]
  · rw [length_content, hsize] at h1
    rw [getElem_splice hoff' h2]
    simp only [content, List.getElem_map, List.getElem_range]
    rw [h.bytes k h1]
    by_cases hin : off ≤ k ∧ k < off + d.length
    · rw [if_pos hin, if_pos hin]
    · rw [if_neg hin, if_neg hin, ← getD_content (by omega), content]

/-- A call of `xv6fs_readi` as an operation on the content of the file. -/
structure ReadRefines (sb : Superblock) (inum : Nat) (devsw : Nat → Devsw) (s : Bcache)
    (off n : Nat) : Prop where
  reads   : off ≤ (content (dinodeAt sb s.view inum) s.view).length → off + n < 2 ^ 32 →
    ∃ s', xv6fsReadi sb devsw (dinodeAt sb s.view inum) off n s =
        .ok (((((content (dinodeAt sb s.view inum) s.view).drop off).take n).length,
          ((content (dinodeAt sb s.view inum) s.view).drop off).take n),
          dinodeAt sb s.view inum, s') ∧ s'.view = s.view
  refuses : (∃ bytes ip' s', xv6fsReadi sb devsw (dinodeAt sb s.view inum) off n s =
      .ok ((-1, bytes), ip', s')) ↔
    (content (dinodeAt sb s.view inum) s.view).length < off ∨ 2 ^ 32 ≤ off + n

lemma readi_refines {s : Bcache} (h : Consistent sb s.view)
    (hu : InUse sb (dinodeAt sb s.view) inum) (hf : IsFile (dinodeAt sb s.view inum))
    (devsw : Nat → Devsw) {n : Nat} (hoff : off < 2 ^ 32) (hn : n < 2 ^ 32) :
    ReadRefines sb inum devsw s off n := by
  have hwrap := wraps_iff hoff hn
  have hreads : off ≤ (content (dinodeAt sb s.view inum) s.view).length → off + n < 2 ^ 32 →
      ∃ s', xv6fsReadi sb devsw (dinodeAt sb s.view inum) off n s =
        .ok (((((content (dinodeAt sb s.view inum) s.view).drop off).take n).length,
          ((content (dinodeAt sb s.view inum) s.view).drop off).take n),
          dinodeAt sb s.view inum, s') ∧ s'.view = s.view := by
    rw [length_content]
    intro hle hlt
    have hlen : (((content (dinodeAt sb s.view inum) s.view).drop off).take n).length =
        min n ((dinodeAt sb s.view inum).size - off) := by
      rw [List.length_take, List.length_drop, length_content]
    rw [hlen]
    exact readi_reads devsw h hu hf hle hlt
  refine ⟨hreads, ⟨?_, fun hcond => ?_⟩⟩
  · rintro ⟨bytes, ip', s', hcall⟩
    by_contra hcond
    obtain ⟨s'', hcall', -⟩ := hreads (by omega) (by omega)
    rw [hcall'] at hcall
    have := (Prod.mk.inj (ok_pair_inj hcall).1).1
    omega
  · rw [length_content] at hcond
    exact ⟨_, _, _, readi_refuses hf (by omega)⟩

/-! ## A small image -/

/-- Eighty blocks: the log from block 2 on, inodes in block 32, the bitmap in block 33, data from
    block 34 on. -/
def smallDisk : Superblock where
  size       := 80
  nblocks    := 46
  ninodes    := 3
  nlog       := 30
  logstart   := 2
  inodestart := 32
  bmapstart  := 33

def emptyDir : Dinode := ⟨T_DIR, 0, 0, 1, 0, fun _ => 0⟩

/-- Five bytes, in block 34. -/
def fiveBytes : Dinode := ⟨T_FILE, 0, 0, 0, 5, fun i => if i = 0 then 34 else 0⟩

/-- The directory is inode 1, the file inode 2; blocks 0 to 34 are marked in the bitmap. -/
def smallImage : Disk :=
  updated smallDisk (updated smallDisk
    (fun b k => if b = 33 then if k < 4 then 255 else if k = 4 then 7 else 0 else 0) 1 emptyDir)
    2 fiveBytes

lemma smallImage_dir : dinodeAt smallDisk smallImage 1 = emptyDir := by
  have hc : Canonical emptyDir :=
    ⟨by decide, by decide, by decide, by decide, by decide, fun _ => Nat.two_pow_pos 32,
      fun _ _ => rfl⟩
  rw [smallImage, dinodeAt_updated_of_ne _ _ _ (by decide), dinodeAt_updated _ _ hc]

lemma smallImage_file : dinodeAt smallDisk smallImage 2 = fiveBytes := by
  refine dinodeAt_updated _ _ ⟨by decide, by decide, by decide, by decide, by decide,
    fun i => ?_, fun i hi => if_neg (by omega)⟩
  show (if i = 0 then 34 else 0) < 2 ^ 32
  split <;> omega

lemma smallImage_inUse {j : Nat} (h : InUse smallDisk (dinodeAt smallDisk smallImage) j) :
    j = 1 ∨ j = 2 := by
  have h1 := h.1
  have h2 : j < 3 := h.2.1
  omega

/-- Block 34 is the only block of a file. -/
lemma smallImage_owns :
    owns smallDisk (dinodeAt smallDisk smallImage) smallImage = update (fun _ => 0) (2, 0) 34 := by
  funext q
  obtain ⟨j, p⟩ := q
  by_cases hu : InUse smallDisk (dinodeAt smallDisk smallImage) j
  · rw [owns_of_inUse hu]
    rcases smallImage_inUse hu with rfl | rfl
    · have hne : (1, p) ≠ ((2, 0) : Nat × Nat) := fun e => nomatch (Prod.mk.inj e).1
      rw [smallImage_dir, update_of_ne hne]
      by_cases hp : p ≤ NDIRECT
      · rw [ownBlock_addr hp]; rfl
      · exact ownBlock_none (by omega) (.inr rfl)
    rw [smallImage_file]
    by_cases hp : p = 0
    · subst hp
      rfl
    have hne : (2, p) ≠ ((2, 0) : Nat × Nat) := fun e => hp (Prod.mk.inj e).2
    rw [update_of_ne hne]
    by_cases hp' : p ≤ NDIRECT
    · rw [ownBlock_addr hp']
      exact if_neg hp
    · exact ownBlock_none (by omega) (.inr rfl)
  · have hj : j ≠ 2 := by
      rintro rfl
      exact hu ⟨by decide, by decide, by rw [smallImage_file]; decide⟩
    rw [owns, if_neg hu, update_of_ne (fun e => hj (Prod.mk.inj e).1)]

lemma smallDisk_layout : Layout smallDisk := ⟨by decide, by decide, by decide⟩

lemma smallImage_bits : ∀ b < 80, bitOf smallDisk smallImage b = decide (b < 35) := by
  decide +kernel

lemma smallImage_consistent : Consistent smallDisk smallImage := by
  have hheld : ∀ q, owns smallDisk (dinodeAt smallDisk smallImage) smallImage q ≠ 0 →
      q = (2, 0) := by
    intro q hq
    by_contra hne
    rw [smallImage_owns, update_of_ne hne] at hq
    exact hq rfl
  have hblock : owns smallDisk (dinodeAt smallDisk smallImage) smallImage (2, 0) = 34 := by
    rw [smallImage_owns, update_self]
  refine ⟨fun p q hp hpq => ?_, fun q hq => ?_, fun b hb => ?_, fun b hb => ?_,
    fun j hj => ?_, fun j hj _ => ?_⟩
  · rw [hheld p hp, hheld q (by rw [← hpq]; exact hp)]
  · rw [hheld q hq, hblock]
    exact ⟨by decide, by decide⟩
  · have h34 : 34 ≤ b := hb.1
    rw [smallImage_bits b hb.2, decide_eq_true_iff]
    constructor
    · intro hlt
      exact ⟨(2, 0), by rw [hblock]; omega⟩
    · rintro ⟨q, hq⟩
      rw [hheld q (by omega), hblock] at hq
      omega
  · have h34 : b < 34 := hb
    rw [smallImage_bits b (by omega), decide_eq_true_iff]
    omega
  · rcases smallImage_inUse hj with rfl | rfl
    · rw [smallImage_dir]; exact .inl (.inr rfl)
    · rw [smallImage_file]; exact .inl (.inl rfl)
  · have hb : ∀ bn, blockAt (dinodeAt smallDisk smallImage j) smallImage bn =
        owns smallDisk (dinodeAt smallDisk smallImage) smallImage (j, slotOf bn) :=
      fun bn => (owns_of_inUse hj _).symm
    have hslot : ∀ bn, slotOf bn = 0 ↔ bn = 0 := by
      intro bn
      unfold slotOf NDIRECT
      split <;> omega
    refine ⟨fun bn => ?_, ?_⟩
    · rw [hb, smallImage_owns]
      rcases smallImage_inUse hj with rfl | rfl
      · have hne : (1, slotOf bn) ≠ ((2, 0) : Nat × Nat) := fun e => nomatch (Prod.mk.inj e).1
        rw [smallImage_dir, update_of_ne hne]
        exact ⟨fun hne => absurd rfl hne, fun hlt => absurd hlt (Nat.not_lt_zero bn)⟩
      rw [smallImage_file]
      have h1 : blocks fiveBytes.size = 1 := rfl
      rw [h1]
      by_cases h0 : bn = 0
      · subst h0
        rw [show slotOf 0 = 0 from rfl, update_self]
        decide
      · rw [update_of_ne (fun e => h0 ((hslot bn).mp (Prod.mk.inj e).2))]
        exact ⟨fun hne => absurd rfl hne, fun hlt => by omega⟩
    · rcases smallImage_inUse hj with rfl | rfl
      · rw [smallImage_dir]; decide
      · rw [smallImage_file]; decide

end Xv6Image
