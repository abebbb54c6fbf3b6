import Xv6Ext2.Xv6ImageProofs

/-! # `xv6fs_bmap` on a consistent image

    `Working` is the state of an operation on inode `inum` that has blocks for the first
    `nb` block numbers.  `xv6fs_bmap` of one of these numbers changes nothing; of the
    next number it adds one block, and the indirect block before its first entry. -/

namespace Xv6Image

open ByteBlock BufCache Outcome Ownership FileIo Xv6Alloc Xv6Inode

open Function (update update_of_ne update_self)

/-- An operation on inode `inum`, with blocks for `nb` block numbers. -/
structure Working (sb : Superblock) (D : Nat → Dinode) (inum nb : Nat) (v : Disk) : Prop where
  core   : Core sb D inum v
  covers : Covers (D inum) v nb

/-- The free blocks it takes to go from `nb` blocks to `nb'`. -/
def need (nb nb' : Nat) : Nat :=
  (nb' - nb) + if nb ≤ NDIRECT ∧ NDIRECT < nb' then 1 else 0

/-- One more block. -/
lemma Covers.grow {ip ip' : Dinode} {v v' : Disk} {nb : Nat} (h : Covers ip v nb)
    (hnew : blockAt ip' v' nb ≠ 0) (hold : ∀ bn, bn ≠ nb → blockAt ip' v' bn = blockAt ip v bn)
    (hind : ip'.addrs NDIRECT ≠ 0 ↔ NDIRECT < nb + 1) : Covers ip' v' (nb + 1) := by
  refine ⟨fun bn => ?_, hind⟩
  by_cases hbn : bn = nb
  · rw [hbn]
    exact ⟨fun _ => Nat.lt_succ_self nb, fun _ => hnew⟩
  · rw [hold bn hbn, h.block bn]
    omega

section Bmap

variable {sb : Superblock} {D : Nat → Dinode} {inum nb : Nat} {s : Bcache}

lemma Core.blockAt_eq {v : Disk} (h : Core sb D inum v) (bn : Nat) :
    blockAt (D inum) v bn = owns sb D v (inum, slotOf bn) := (owns_of_inUse h.inUse _).symm

lemma slotOf_direct {bn : Nat} (h : bn < NDIRECT) : slotOf bn = bn := if_pos h

lemma slotOf_indirect (k : Nat) : slotOf (NDIRECT + k) = NDIRECT + 1 + k := by
  unfold slotOf
  rw [if_neg (by omega)]
  omega

lemma data_ne_zero {b : Nat} (h : DataBlock sb b) : b ≠ 0 := by
  rintro rfl
  exact zero_not_data sb h

lemma Core.held_ok (h : Core sb D inum s.view) (hi : (D inum).addrs NDIRECT ≠ 0) :
    ∀ x ∈ [(D inum).addrs NDIRECT], dataStart sb ≤ x ∧
      (x < sb.size → bitOf sb s.view x = true) := by
  intro x hx
  obtain rfl := List.mem_singleton.mp hx
  have hown : owns sb D s.view (inum, NDIRECT) = (D inum).addrs NDIRECT := by
    rw [owns_of_inUse h.inUse, ownBlock_addr le_rfl]
  rw [← hown] at hi ⊢
  exact ⟨(h.tracked.in_data _ hi).1, fun _ => h.tracked.used_of_held hi⟩

lemma addrSlot_sat (hl : Layout sb) (h : Core sb D inum s.view) {p : Nat} (hp : p ≤ NDIRECT) :
    Sat (addrSlot sb (D inum) p s)
      (fun r => ((D inum).addrs p ≠ 0 ∧ r = ((D inum).addrs p, D inum, s)) ∨
        ((D inum).addrs p = 0 ∧ r.1 ≠ 0 ∧ r.2.1 = setAddr (D inum) p r.1 ∧
          Core sb (update D inum r.2.1) inum r.2.2.view ∧
          owns sb (update D inum r.2.1) r.2.2.view = update (owns sb D s.view) (inum, p) r.1 ∧
          Grown sb inum D s.view (update D inum r.2.1) r.2.2.view ∧
          freeBlocks sb s.view = freeBlocks sb r.2.2.view + 1))
      (fun e => e = .panic "balloc: out of blocks" ∧ freeBlocks sb s.view = 0 ∧
        (D inum).addrs p = 0) := by
  rw [addrSlot]
  split
  · next hempty =>
    have hcall := xv6fsBalloc_sat sb [] s (fun x hx => nomatch hx)
    refine (hcall.mono (fun r hr => hr) (fun e he => ⟨he.1, he.2, hempty⟩)).bind ?_
    rintro ⟨b, s'⟩ ⟨hlt, hfree, hview⟩
    dsimp only at hlt hfree hview ⊢
    have htake := h.take_addr hl hlt hfree hp hempty
    rw [← hview] at htake
    exact Sat.ok (.inr ⟨hempty, data_ne_zero (h.taken hlt hfree).1, rfl, htake⟩)
  · next hempty =>
    exact Sat.ok (.inl ⟨hempty, rfl⟩)

lemma entrySlot_sat (hl : Layout sb) (h : Core sb D inum s.view)
    (hi : (D inum).addrs NDIRECT ≠ 0) {k : Nat} (hk : k < NINDIRECT) :
    Sat (entrySlot sb ((D inum).addrs NDIRECT) k s)
      (fun r => (owns sb D s.view (inum, NDIRECT + 1 + k) ≠ 0 ∧ r.2.view = s.view ∧
            r.1 = owns sb D s.view (inum, NDIRECT + 1 + k)) ∨
          (owns sb D s.view (inum, NDIRECT + 1 + k) = 0 ∧ r.1 ≠ 0 ∧ Core sb D inum r.2.view ∧
            owns sb D r.2.view = update (owns sb D s.view) (inum, NDIRECT + 1 + k) r.1 ∧
            Grown sb inum D s.view D r.2.view ∧ freeBlocks sb s.view = freeBlocks sb r.2.view + 1))
      (fun e => e = .panic "balloc: out of blocks" ∧ freeBlocks sb s.view = 0 ∧
        owns sb D s.view (inum, NDIRECT + 1 + k) = 0) := by
  have hslot : owns sb D s.view (inum, NDIRECT + 1 + k) =
      getLE (s.view ((D inum).addrs NDIRECT)) 4 (4 * k) := by
    rw [owns_of_inUse h.inUse, ownBlock_entry hk hi]
  rw [entrySlot, bread_nil]
  dsimp only
  split
  · next hz =>
    rw [hz] at hslot
    have hcall := xv6fsBalloc_sat sb [(D inum).addrs NDIRECT]
      (s.touch ((D inum).addrs NDIRECT)) (by rw [touch_view]; exact h.held_ok hi)
    rw [touch_view] at hcall
    refine (hcall.mono (fun r hr => hr) (fun e he => ⟨he.1, he.2, hslot⟩)).bind ?_
    rintro ⟨b, s'⟩ ⟨hlt, hfree, hview⟩
    dsimp only at hlt hfree hview ⊢
    rw [touch_view] at hfree hview
    have htake := h.take_entry hl hlt hfree hk hi hslot rfl rfl
    refine Sat.ok (.inr ⟨hslot, data_ne_zero (h.taken hlt hfree).1, ?_⟩)
    rwa [logWrite, bput_view, hview]
  · next hz =>
    exact Sat.ok (.inl ⟨by rw [hslot]; exact hz, touch_view _ _, hslot.symm⟩)

lemma bmap_held {ip : Dinode} {bn : Nat} (hne : blockAt ip s.view bn ≠ 0) :
    ∃ s', xv6fsBmap sb ip bn s = .ok (blockAt ip s.view bn, ip, s') ∧ s'.view = s.view := by
  rw [xv6fsBmap]
  by_cases hd : bn < NDIRECT
  · have hb : blockAt ip s.view bn = ip.addrs bn := by
      rw [blockAt, slotOf_direct hd, ownBlock_addr hd.le]
    rw [hb] at hne ⊢
    rw [if_pos hd, addrSlot, if_neg hne]
    exact ⟨s, rfl, rfl⟩
  obtain ⟨k, rfl⟩ : ∃ k, bn = NDIRECT + k := ⟨bn - NDIRECT, by omega⟩
  have hslot : NDIRECT < slotOf (NDIRECT + k) := by rw [slotOf_indirect]; omega
  have hi : ip.addrs NDIRECT ≠ 0 := fun h0 => hne (ownBlock_none hslot (.inr h0))
  have hk : k < NINDIRECT := by
    by_contra hge
    exact hne (ownBlock_none hslot (.inl (by rw [slotOf_indirect]; omega)))
  have hb : blockAt ip s.view (NDIRECT + k) = getLE (s.view (ip.addrs NDIRECT)) 4 (4 * k) := by
    rw [blockAt, slotOf_indirect, ownBlock_entry hk hi]
  rw [hb] at hne ⊢
  rw [if_neg hd, Nat.add_sub_cancel_left, if_pos hk, addrSlot, if_neg hi, ok_bind]
  dsimp only
  rw [entrySlot, bread_nil]
  dsimp only
  rw [if_neg hne, ok_bind]
  exact ⟨_, rfl, touch_view _ _⟩

lemma bmap_old (h : Working sb D inum nb s.view) {bn : Nat} (hbn : bn < nb) :
    ∃ s', xv6fsBmap sb (D inum) bn s = .ok (blockAt (D inum) s.view bn, D inum, s') ∧
      s'.view = s.view := bmap_held ((h.covers.block bn).mpr hbn)

/-- What `xv6fs_bmap` of the next block number returns. -/
def NewBlock (sb : Superblock) (D : Nat → Dinode) (inum nb : Nat) (s : Bcache)
    (r : Nat × Dinode × Bcache) : Prop :=
  ∃ D', r.2.1 = D' inum ∧ Working sb D' inum (nb + 1) r.2.2.view ∧
    Grown sb inum D s.view D' r.2.2.view ∧ r.1 = blockAt (D' inum) r.2.2.view nb ∧
    freeBlocks sb s.view = freeBlocks sb r.2.2.view + need nb (nb + 1)

/-- The pointers after one more block, from the slots that were filled. -/
lemma Covers.of_owns {D' : Nat → Dinode} {v v' : Disk} {b : Nat} (h : Covers (D inum) v nb)
    (hc : Core sb D inum v) (hc' : Core sb D' inum v') (hb : b ≠ 0)
    (hnew : owns sb D' v' (inum, slotOf nb) = b)
    (hold : ∀ p, p ≠ NDIRECT → p ≠ slotOf nb → owns sb D' v' (inum, p) = owns sb D v (inum, p))
    (hind : (D' inum).addrs NDIRECT ≠ 0 ↔ NDIRECT < nb + 1) : Covers (D' inum) v' (nb + 1) := by
  refine h.grow ?_ (fun bn hbn => ?_) hind
  · rwa [hc'.blockAt_eq, hnew]
  · rw [hc'.blockAt_eq, hc.blockAt_eq]
    exact hold _ (slotOf_ne bn) (fun e => hbn (slotOf_inj e))

lemma bmap_new_direct (hl : Layout sb) (h : Working sb D inum nb s.view) (hnb : nb < NDIRECT) :
    Sat (xv6fsBmap sb (D inum) nb s) (NewBlock sb D inum nb s)
      (Short sb s.view (need nb (nb + 1))) := by
  have hneed : need nb (nb + 1) = 1 := by
    unfold need
    rw [if_neg (by omega)]
    omega
  have hempty : (D inum).addrs nb = 0 := by
    by_contra hne
    have hb : blockAt (D inum) s.view nb = (D inum).addrs nb := by
      rw [blockAt, slotOf_direct hnb, ownBlock_addr hnb.le]
    exact Nat.lt_irrefl nb ((h.covers.block nb).mp (by rw [hb]; exact hne))
  rw [xv6fsBmap, if_pos hnb]
  refine (addrSlot_sat hl h.core hnb.le).mono ?_ ?_
  · rintro ⟨b, ip, s'⟩ (⟨hne, -⟩ | ⟨-, hb0, hip, hcore, howns, hgrown, hcount⟩)
    · exact absurd hempty hne
    dsimp only at hb0 hip hcore howns hgrown hcount ⊢
    refine ⟨update D inum ip, (update_self inum ip D).symm, ⟨hcore, ?_⟩, hgrown, ?_, ?_⟩
    · refine h.covers.of_owns h.core hcore hb0 ?_ (fun p hp hne => ?_) ?_
      · rw [howns, slotOf_direct hnb, update_self]
      · rw [slotOf_direct hnb] at hne
        have hself : (inum, p) ≠ (inum, nb) := fun e => hne (Prod.mk.inj e).2
        rw [howns, update_of_ne hself]
      · rw [update_self, hip, setAddr_addrs, update_of_ne (by omega), h.covers.indirect]
        omega
    · dsimp only
      rw [hcore.blockAt_eq, howns, slotOf_direct hnb, update_self]
    · rwa [hneed]
  · rintro e ⟨he, hzero, -⟩
    exact ⟨he, by omega⟩

lemma indirect_sat (hl : Layout sb) (h : Working sb D inum nb s.view) (hnb : NDIRECT ≤ nb) :
    Sat (addrSlot sb (D inum) NDIRECT s)
      (fun r => ∃ D', r.2.1 = D' inum ∧ r.1 = (D' inum).addrs NDIRECT ∧ r.1 ≠ 0 ∧
        Core sb D' inum r.2.2.view ∧ Grown sb inum D s.view D' r.2.2.view ∧
        (∀ p, p ≠ NDIRECT → owns sb D' r.2.2.view (inum, p) = owns sb D s.view (inum, p)) ∧
        freeBlocks sb s.view + 1 = freeBlocks sb r.2.2.view + need nb (nb + 1))
      (Short sb s.view (need nb (nb + 1))) := by
  refine (addrSlot_sat hl h.core le_rfl).mono ?_ ?_
  · rintro ⟨b, ip, s'⟩ (⟨hne, hr⟩ | ⟨hempty, hb0, hip, hcore, howns, hgrown, hcount⟩)
    · obtain ⟨rfl, hr'⟩ := Prod.mk.inj hr
      obtain ⟨rfl, rfl⟩ := Prod.mk.inj hr'
      have hneed : need nb (nb + 1) = 1 := by
        have := h.covers.indirect.mp hne
        unfold need
        rw [if_neg (by omega)]
        omega
      exact ⟨D, rfl, rfl, hne, h.core, Grown.refl _ _ _ _, fun _ _ => rfl, by rw [hneed]⟩
    · dsimp only at hb0 hip hcore howns hgrown hcount ⊢
      have hneed : need nb (nb + 1) = 2 := by
        have : ¬NDIRECT < nb := fun hlt => h.covers.indirect.mpr hlt hempty
        unfold need
        rw [if_pos (by omega)]
        omega
      refine ⟨update D inum ip, (update_self inum ip D).symm, ?_, hb0, hcore, hgrown,
        fun p hp => ?_, by rw [hneed, hcount]⟩
      · rw [update_self, hip, setAddr_addrs, update_self]
      · have hself : (inum, p) ≠ (inum, NDIRECT) := fun e => hp (Prod.mk.inj e).2
        rw [howns, update_of_ne hself]
  · rintro e ⟨he, hzero, -⟩
    have hneed : 0 < need nb (nb + 1) := by unfold need; omega
    exact ⟨he, by omega⟩

lemma bmap_new_indirect (hl : Layout sb) (h : Working sb D inum nb s.view)
    (hnb : NDIRECT ≤ nb) (hmax : nb < MAXFILE) :
    Sat (xv6fsBmap sb (D inum) nb s) (NewBlock sb D inum nb s)
      (Short sb s.view (need nb (nb + 1))) := by
  obtain ⟨k, rfl⟩ : ∃ k, nb = NDIRECT + k := ⟨nb - NDIRECT, by omega⟩
  have hk : k < NINDIRECT := by unfold MAXFILE at hmax; omega
  have hneed : 0 < need (NDIRECT + k) (NDIRECT + k + 1) := by unfold need; omega
  have hempty : owns sb D s.view (inum, NDIRECT + 1 + k) = 0 := by
    by_contra hne
    rw [← slotOf_indirect, ← h.core.blockAt_eq] at hne
    exact Nat.lt_irrefl _ ((h.covers.block _).mp hne)
  rw [xv6fsBmap, if_neg (by omega), Nat.add_sub_cancel_left, if_pos hk]
  refine (indirect_sat hl h hnb).bind ?_
  rintro ⟨addr, ip, s1⟩ ⟨D', hip, haddr, hi, hcore, hgrown, hslots, hcount⟩
  dsimp only at hip haddr hi hcore hgrown hslots hcount ⊢
  subst hip haddr
  have hempty' : owns sb D' s1.view (inum, NDIRECT + 1 + k) = 0 := by
    rw [hslots _ (by omega), hempty]
  refine ((entrySlot_sat hl hcore hi hk).mono (fun r hr => hr) ?_).bind ?_
  · rintro e ⟨he, hzero, -⟩
    exact ⟨he, by omega⟩
  · rintro ⟨b, s2⟩ (⟨hne, -⟩ | ⟨-, hb0, hcore2, howns2, hgrown2, hcount2⟩)
    · exact absurd hempty' hne
    dsimp only at hb0 hcore2 howns2 hgrown2 hcount2 ⊢
    refine Sat.ok ⟨D', rfl, ⟨hcore2, ?_⟩, hgrown.trans hgrown2, ?_, by dsimp only; omega⟩
    · refine h.covers.of_owns h.core hcore2 hb0 ?_ (fun p hp hne => ?_) ?_
      · rw [howns2, slotOf_indirect, update_self]
      · rw [slotOf_indirect] at hne
        have hself : (inum, p) ≠ (inum, NDIRECT + 1 + k) := fun e => hne (Prod.mk.inj e).2
        rw [howns2, update_of_ne hself, hslots p hp]
      · exact ⟨fun _ => by omega, fun _ => hi⟩
    · dsimp only
      rw [hcore2.blockAt_eq, howns2, slotOf_indirect, update_self]

/-- **`xv6fs_bmap` of the next block number** adds a block, or the disk is full. -/
lemma bmap_new (hl : Layout sb) (h : Working sb D inum nb s.view) (hmax : nb < MAXFILE) :
    Sat (xv6fsBmap sb (D inum) nb s) (NewBlock sb D inum nb s)
      (Short sb s.view (need nb (nb + 1))) := by
  by_cases hnb : nb < NDIRECT
  · exact bmap_new_direct hl h hnb
  · exact bmap_new_indirect hl h (by omega) hmax

end Bmap

end Xv6Image
