import Xv6Ext2.Xv6ImageProofs

/-! # `xv6fs_itrunc` on a consistent image

    The loops of `xv6fs_itrunc` free the blocks of an inode one after the other.  The
    entries of the indirect block are freed without being cleared, so the pointers on
    disk are not the pointers that count: `Freeing` ties the bitmap to the pointers `O`
    that are left, and each turn empties one slot of `O`.

    - `itrunc_eq` : `xv6fs_itrunc` returns, whatever the inode's addresses are;
    - `Consistent.replace` : an inode without content is freed, or allocated. -/

namespace Xv6Image

open ByteBlock BufCache Outcome Ownership FileIo Xv6Alloc Xv6Inode

open Function (update update_eq_self update_of_ne update_self)

/-- The bitmap agrees with the pointers `O`; the other blocks are those of `v₀`. -/
structure Freeing (sb : Superblock) (O : Nat × Nat → Nat) (v₀ v : Disk) : Prop where
  tracked  : Tracked O (fun b => bitOf sb v b = true) (DataBlock sb)
  reserved : ∀ b < dataStart sb, bitOf sb v b = true
  same     : ∀ c, c < sb.bmapstart ∨ dataStart sb ≤ c → v c = v₀ c

/-- The pointers without those of inode `inum` in the slots from `lo` to `hi`. -/
def cleared (O : Nat × Nat → Nat) (inum lo hi : Nat) (q : Nat × Nat) : Nat :=
  if q.1 = inum ∧ lo ≤ q.2 ∧ q.2 < hi then 0 else O q

section Trunc

variable {sb : Superblock} {O : Nat × Nat → Nat} {v₀ : Disk} {inum : Nat}

lemma cleared_self (O : Nat × Nat → Nat) (inum lo : Nat) : cleared O inum lo lo = O := by
  funext q
  exact if_neg (by omega)

variable {lo hi : Nat}

/-- The first slot, then the rest. -/
lemma cleared_cons (O : Nat × Nat → Nat) (h : lo < hi) :
    cleared (update O (inum, lo) 0) inum (lo + 1) hi = cleared O inum lo hi := by
  funext q
  unfold cleared
  by_cases hq : q = (inum, lo)
  · subst hq
    rw [if_neg (by dsimp only; omega), if_pos ⟨rfl, le_rfl, h⟩, update_self]
  have hne : ¬(q.1 = inum ∧ q.2 = lo) := fun e => hq (Prod.ext e.1 e.2)
  rw [update_of_ne hq]
  by_cases hin : q.1 = inum ∧ lo ≤ q.2 ∧ q.2 < hi
  · rw [if_pos hin, if_pos (by omega)]
  · rw [if_neg hin, if_neg (by omega)]

lemma cleared_skip (h : lo < hi)
    (h0 : O (inum, lo) = 0) : cleared O inum (lo + 1) hi = cleared O inum lo hi := by
  rw [← cleared_cons O h, ← h0, update_eq_self]

lemma update_cleared (O : Nat × Nat → Nat) (h : lo < hi) :
    update (cleared O inum (lo + 1) hi) (inum, lo) 0 = cleared O inum lo hi := by
  funext q
  by_cases hq : q = (inum, lo)
  · subst hq
    rw [update_self, cleared, if_pos ⟨rfl, le_rfl, h⟩]
  · rw [update_of_ne hq, ← cleared_cons O h, cleared, cleared, update_of_ne hq]

lemma Freeing.bfree {s : Bcache} (h : Freeing sb O v₀ s.view) {q : Nat × Nat} {b : Nat}
    (hq : O q = b) (hb : b ≠ 0) {held : List Nat} (hheld : ∀ x ∈ held, dataStart sb ≤ x) :
    ∃ s', xv6fsBfree sb held b s = .ok s' ∧ Freeing sb (update O q 0) v₀ s'.view := by
  subst hq
  have hdata := h.tracked.in_data q hb
  have hbb := BBLOCK_lt hdata.2
  have hbb' := bmapstart_le_BBLOCK sb (O q)
  have hout : BBLOCK (O q) sb ∉ held := by
    intro hmem
    have := hheld _ hmem
    omega
  obtain ⟨s', hcall, hview⟩ :=
    (xv6fsBfree_sat sb held (O q) s hout (h.tracked.used_of_held hb)).exists_ok
  have hbits : ∀ c, bitOf sb s'.view c = (bitOf sb s.view c && !decide (c = O q)) := by
    intro c
    rw [hview]
    exact bitOf_unmarked sb s.view (O q) c
  refine ⟨s', hcall, ?_, fun c hc => ?_, fun c hc => ?_⟩
  · refine h.tracked.remove rfl (zero_not_data sb) hb (fun c _ => ?_)
    rw [hbits c, Bool.and_eq_true, Bool.not_eq_true', decide_eq_false_iff_not]
  · have hne : c ≠ O q := by have := hdata.1; omega
    rw [hbits c, h.reserved c hc, decide_eq_false hne]
    rfl
  · rw [hview, unmarked, update_of_ne (by omega)]
    exact h.same c hc

/-- The inode without the addresses from `lo` to `hi`. -/
def clearAddrs (ip : Dinode) (lo hi : Nat) : Dinode :=
  { ip with addrs := fun p => if lo ≤ p ∧ p < hi then 0 else ip.addrs p }

lemma clearAddrs_self (ip : Dinode) (lo : Nat) : clearAddrs ip lo lo = ip := by
  unfold clearAddrs
  congr 1
  funext p
  exact if_neg (by omega)

lemma clearAddrs_cons (ip : Dinode) (h : lo < hi) :
    clearAddrs (setAddr ip lo 0) (lo + 1) hi = clearAddrs ip lo hi := by
  unfold clearAddrs
  rw [setAddr_addrs]
  congr 1
  funext p
  by_cases hp : p = lo
  · rw [hp, if_neg (by omega), if_pos (by omega), update_self]
  rw [update_of_ne hp]
  by_cases hin : lo ≤ p ∧ p < hi
  · rw [if_pos hin, if_pos (by omega)]
  · rw [if_neg hin, if_neg (by omega)]

lemma clearAddrs_skip {ip : Dinode} (h : lo < hi) (h0 : ip.addrs lo = 0) :
    clearAddrs ip (lo + 1) hi = clearAddrs ip lo hi := by
  have hset : setAddr ip lo 0 = ip := by
    unfold setAddr
    rw [← h0, update_eq_self]
  rw [← clearAddrs_cons ip h, hset]

/-- The loop over the direct addresses. -/
lemma truncDirect_eq (n : Nat) : ∀ (i : Nat) (O : Nat × Nat → Nat) (ip : Dinode)
    (s : Bcache), Freeing sb O v₀ s.view → (∀ p, i ≤ p → p < i + n → O (inum, p) = ip.addrs p) →
    ∃ s', truncDirect sb n i ip s = .ok (clearAddrs ip i (i + n), s') ∧
      Freeing sb (cleared O inum i (i + n)) v₀ s'.view := by
  induction n with
  | zero =>
    intro i O ip s h _
    rw [Nat.add_zero, clearAddrs_self, cleared_self]
    exact ⟨s, rfl, h⟩
  | succ n ih =>
    intro i O ip s h hagree
    have hslot := hagree i (Nat.le_refl i) (by omega)
    have hend : i + (n + 1) = i + 1 + n := by omega
    rw [truncDirect, hend]
    by_cases h0 : ip.addrs i = 0
    · rw [if_pos h0, ← clearAddrs_skip (by omega) h0, ← cleared_skip (by omega) (hslot.trans h0)]
      exact ih (i + 1) O ip s h (fun p h1 h2 => hagree p (by omega) (by omega))
    have hnone : ∀ x ∈ ([] : List Nat), dataStart sb ≤ x := fun x hx => nomatch hx
    obtain ⟨s1, hfree, hf1⟩ := h.bfree hslot h0 hnone
    rw [if_neg h0, hfree, ok_bind, ← clearAddrs_cons ip (by omega), ← cleared_cons O (by omega)]
    refine ih (i + 1) (update O (inum, i) 0) (setAddr ip i 0) s1 hf1 (fun p h1 h2 => ?_)
    have hpi : p ≠ i := by omega
    have hne : (inum, p) ≠ (inum, i) := fun e => hpi (Prod.mk.inj e).2
    rw [update_of_ne hne, hagree p (by omega) (by omega), setAddr_addrs, update_of_ne hpi]

lemma truncIndirect_eq {blk : Nat} (hblk : dataStart sb ≤ blk) (n : Nat) :
    ∀ (j : Nat) (O : Nat × Nat → Nat) (s : Bcache), Freeing sb O v₀ s.view →
    (∀ k, j ≤ k → k < j + n → O (inum, NDIRECT + 1 + k) = getLE (v₀ blk) 4 (4 * k)) →
    ∃ s', truncIndirect sb blk n j s = .ok s' ∧
      Freeing sb (cleared O inum (NDIRECT + 1 + j) (NDIRECT + 1 + j + n)) v₀ s'.view := by
  induction n with
  | zero =>
    intro j O s h _
    refine ⟨s, rfl, ?_⟩
    rwa [show NDIRECT + 1 + j + 0 = NDIRECT + 1 + j from rfl, cleared_self]
  | succ n ih =>
    intro j O s h hagree
    have hslot := hagree j (Nat.le_refl j) (by omega)
    rw [← h.same blk (.inr hblk)] at hslot
    have hend : NDIRECT + 1 + (j + 1) + n = NDIRECT + 1 + j + (n + 1) := by omega
    rw [truncIndirect]
    split
    · next h0 =>
      obtain ⟨s', hrest, hf⟩ := ih (j + 1) O s h (fun k h1 h2 => hagree k (by omega) (by omega))
      rw [hend, ← Nat.add_assoc, cleared_skip (by omega) (hslot.trans h0)] at hf
      exact ⟨s', hrest, hf⟩
    · next h0 =>
      have hheld : ∀ x ∈ [blk], dataStart sb ≤ x := by
        intro x hx
        rwa [List.mem_singleton.mp hx]
      obtain ⟨s1, hfree, hf1⟩ := h.bfree hslot h0 hheld
      rw [hfree, ok_bind]
      obtain ⟨s', hrest, hf⟩ := ih (j + 1) (update O (inum, NDIRECT + 1 + j) 0) s1 hf1
        (fun k h1 h2 => by
          have hne : (inum, NDIRECT + 1 + k) ≠ (inum, NDIRECT + 1 + j) := fun e => by
            have := (Prod.mk.inj e).2
            omega
          rw [update_of_ne hne, hagree k (by omega) (by omega)])
      rw [hend, ← Nat.add_assoc, cleared_cons O (by omega)] at hf
      exact ⟨s', hrest, hf⟩

lemma truncRest_eq {ip : Dinode} {s : Bcache} (h : Freeing sb O v₀ s.view)
    (hind : O (inum, NDIRECT) = ip.addrs NDIRECT)
    (hentry : ∀ k < NINDIRECT, O (inum, NDIRECT + 1 + k) =
      if ip.addrs NDIRECT = 0 then 0 else getLE (v₀ (ip.addrs NDIRECT)) 4 (4 * k)) :
    ∃ s', truncRest sb ip s = .ok (setAddr ip NDIRECT 0, s') ∧
      Freeing sb (cleared O inum NDIRECT (NDIRECT + 1 + NINDIRECT)) v₀ s'.view := by
  rw [truncRest]
  by_cases h0 : ip.addrs NDIRECT = 0
  · have hset : setAddr ip NDIRECT 0 = ip := by
      unfold setAddr
      rw [← h0, update_eq_self]
    have hsame : cleared O inum NDIRECT (NDIRECT + 1 + NINDIRECT) = O := by
      funext q
      unfold cleared
      by_cases hq : q.1 = inum ∧ NDIRECT ≤ q.2 ∧ q.2 < NDIRECT + 1 + NINDIRECT
      · rw [if_pos hq]
        obtain ⟨j, p⟩ := q
        obtain ⟨rfl, h1, h2⟩ := hq
        dsimp only at h1 h2
        by_cases hp : p = NDIRECT
        · rw [hp, hind, h0]
        · obtain ⟨k, rfl⟩ : ∃ k, p = NDIRECT + 1 + k := ⟨p - (NDIRECT + 1), by omega⟩
          rw [hentry k (by omega), if_pos h0]
      · rw [if_neg hq]
    rw [if_pos h0, hset, hsame]
    exact ⟨s, rfl, h⟩
  · have hblk : dataStart sb ≤ ip.addrs NDIRECT := by
      rw [← hind] at h0 ⊢
      exact (h.tracked.in_data _ h0).1
    rw [if_neg h0, bread_nil]
    dsimp only
    obtain ⟨s1, hloop, hf1⟩ := truncIndirect_eq hblk NINDIRECT 0 O
      (s.touch (ip.addrs NDIRECT)) (by rw [touch_view]; exact h)
      (fun k _ hk => by rw [hentry k (by omega), if_neg h0])
    have hslot : cleared O inum (NDIRECT + 1 + 0) (NDIRECT + 1 + 0 + NINDIRECT)
        (inum, NDIRECT) = ip.addrs NDIRECT := by
      rw [cleared, if_neg (by dsimp only; omega), hind]
    have hnone : ∀ x ∈ ([] : List Nat), dataStart sb ≤ x := fun x hx => nomatch hx
    obtain ⟨s2, hfree, hf2⟩ := hf1.bfree hslot h0 hnone
    rw [hloop, ok_bind, hfree, ok_bind, ← update_cleared O (by omega)]
    exact ⟨s2, rfl, hf2⟩

end Trunc

/-! ## The whole call -/

section Call

variable {sb : Superblock} {D : Nat → Dinode} {inum : Nat}

def emptied (ip : Dinode) : Dinode := { ip with size := 0, addrs := fun _ => 0 }

lemma ownBlock_emptied (ip : Dinode) (v : Disk) (p : Nat) : ownBlock (emptied ip) v p = 0 := by
  by_cases hp : p ≤ NDIRECT
  · rw [ownBlock_addr hp]
    rfl
  · exact ownBlock_none (by omega) (.inr rfl)

lemma covers_emptied (ip : Dinode) (v : Disk) :
    Covers (emptied ip) v (blocks (emptied ip).size) := by
  have h0 : blocks (emptied ip).size = 0 := show blocks 0 = 0 by decide
  rw [h0]
  refine ⟨fun bn => ?_, ?_⟩
  · rw [blockAt, ownBlock_emptied]
    exact ⟨fun hbad => absurd rfl hbad, fun hbad => absurd hbad (Nat.not_lt_zero bn)⟩
  · exact ⟨fun hbad => absurd rfl hbad, fun hbad => absurd hbad (Nat.not_lt_zero _)⟩

variable {ip : Dinode}

lemma emptied_canonical (h : Canonical ip) : Canonical (emptied ip) :=
  ⟨h.type, h.major, h.minor, h.nlink, Nat.two_pow_pos 32, fun _ => Nat.two_pow_pos 32,
    fun _ _ => rfl⟩

/-- Both loops together clear all addresses. -/
lemma clearAddrs_all (h : Canonical ip) (p : Nat) :
    (setAddr (clearAddrs ip 0 (0 + NDIRECT)) NDIRECT 0).addrs p = 0 := by
  rw [setAddr_addrs]
  by_cases hp : p = NDIRECT
  · rw [hp, update_self]
  rw [update_of_ne hp]
  show (if 0 ≤ p ∧ p < 0 + NDIRECT then 0 else ip.addrs p) = 0
  by_cases hlt : p < NDIRECT
  · rw [if_pos (by omega)]
  · rw [if_neg (by omega), h.end_ p (by omega)]

lemma cleared_all {v : Disk} (hu : InUse sb D inum) :
    cleared (cleared (owns sb D v) inum 0 (0 + NDIRECT)) inum NDIRECT
      (NDIRECT + 1 + NINDIRECT) = fun q => if q.1 = inum then 0 else owns sb D v q := by
  funext q
  obtain ⟨j, p⟩ := q
  unfold cleared
  dsimp only
  by_cases hj : j = inum
  · rw [if_pos hj]
    by_cases h1 : j = inum ∧ NDIRECT ≤ p ∧ p < NDIRECT + 1 + NINDIRECT
    · rw [if_pos h1]
    rw [if_neg h1]
    by_cases h2 : j = inum ∧ 0 ≤ p ∧ p < 0 + NDIRECT
    · rw [if_pos h2]
    · rw [if_neg h2, hj, owns_of_inUse hu]
      exact ownBlock_none (by omega) (.inl (by omega))
  · rw [if_neg hj, if_neg (fun e => hj e.1), if_neg (fun e => hj e.1)]

/-- All pointers of the inode are freed: the state before the inode goes to disk. -/
lemma Core.emptied (hl : Layout sb) {v₀ v : Disk} (h : Core sb D inum v₀)
    (hf : Freeing sb (fun q => if q.1 = inum then 0 else owns sb D v₀ q) v₀ v) :
    Core sb (update D inum (emptied (D inum))) inum v ∧
    owns sb (update D inum (emptied (D inum))) v =
      fun q => if q.1 = inum then 0 else owns sb D v₀ q := by
  have htype : (Xv6Image.emptied (D inum)).type = (D inum).type := rfl
  have hv : owns sb D v = owns sb D v₀ :=
    owns_congr (fun j hj => hf.same _ (.inr (h.tracked.in_data _ hj).1))
  have howns : owns sb (update D inum (Xv6Image.emptied (D inum))) v =
      fun q => if q.1 = inum then 0 else owns sb D v₀ q := by
    funext q
    obtain ⟨j, p⟩ := q
    dsimp only
    by_cases hj : j = inum
    · rw [if_pos hj, hj, owns_of_inUse ((inUse_update htype inum).mpr h.inUse),
        update_self, ownBlock_emptied]
    · rw [if_neg hj, owns_congr_inode (update_of_ne hj _ _), hv]
  refine ⟨h.change htype (emptied_canonical h.canon)
    (fun j _ hlt => dinodeAt_congr (hf.same _ (.inl (IBLOCK_lt hl hlt)))) ?_ hf.reserved
    (fun j p hj => ?_), howns⟩
  · rw [howns]
    exact hf.tracked
  · rw [howns]
    exact if_neg hj

/-- **`xv6fs_itrunc` returns**: no block that it frees is free already. -/
lemma itrunc_eq (hl : Layout sb) {s : Bcache} (h : Core sb D inum s.view) :
    ∃ s', xv6fsItrunc sb inum (D inum) s = .ok (emptied (D inum), s') ∧
      Core sb (update D inum (emptied (D inum))) inum s'.view ∧
      dinodeAt sb s'.view inum = emptied (D inum) := by
  have hfreeing : Freeing sb (owns sb D s.view) s.view s.view :=
    ⟨h.tracked, h.reserved, fun _ _ => rfl⟩
  have hagree : ∀ p, 0 ≤ p → p < 0 + NDIRECT → owns sb D s.view (inum, p) = (D inum).addrs p :=
    fun p _ hp => by rw [owns_of_inUse h.inUse, ownBlock_addr (by omega)]
  obtain ⟨s1, hdirect, hf1⟩ := truncDirect_eq NDIRECT 0 _ (D inum) s hfreeing hagree
  have hsame : (clearAddrs (D inum) 0 (0 + NDIRECT)).addrs NDIRECT = (D inum).addrs NDIRECT := by
    show (if 0 ≤ NDIRECT ∧ NDIRECT < 0 + NDIRECT then 0 else (D inum).addrs NDIRECT) = _
    rw [if_neg (by omega)]
  have hind : cleared (owns sb D s.view) inum 0 (0 + NDIRECT) (inum, NDIRECT) =
      (clearAddrs (D inum) 0 (0 + NDIRECT)).addrs NDIRECT := by
    rw [cleared, if_neg (by dsimp only; omega), owns_of_inUse h.inUse, ownBlock_addr le_rfl, hsame]
  obtain ⟨s2, hrest, hf2⟩ := truncRest_eq hf1 hind (fun k hk => by
    rw [cleared, if_neg (by dsimp only; omega), owns_of_inUse h.inUse, hsame]
    by_cases h0 : (D inum).addrs NDIRECT = 0
    · rw [if_pos h0, ownBlock_none (by omega) (.inr h0)]
    · rw [if_neg h0, ownBlock_entry hk h0])
  rw [cleared_all h.inUse] at hf2
  obtain ⟨hcore, -⟩ := h.emptied hl hf2
  obtain ⟨ip, hip⟩ : ∃ ip, ip = setAddr (clearAddrs (D inum) 0 (0 + NDIRECT)) NDIRECT 0 := ⟨_, rfl⟩
  have hend : { ip with size := 0 } = emptied (D inum) := by
    have haddrs : ip.addrs = fun _ => 0 := funext (fun p => hip ▸ clearAddrs_all h.canon p)
    rw [emptied, ← haddrs, hip]
    rfl
  obtain ⟨s3, hupd, hview⟩ := xv6fsIupdate_eq sb inum (emptied (D inum)) s2
  have hcanon := emptied_canonical h.canon
  refine ⟨s3, ?_, ?_, ?_⟩
  · rw [xv6fsItrunc, hdirect, ok_bind]
    dsimp only
    rw [hrest, ok_bind, ← hip]
    dsimp only
    rw [hend, hupd, ok_bind]
  · rw [hview]
    have hself : update D inum (emptied (D inum)) inum = emptied (D inum) := update_self _ _ _
    have := (hcore.store hl hcanon (by rw [hself]) (by rw [hself])).1
    rwa [Function.update_idem] at this
  · rw [hview]
    exact dinodeAt_updated sb s2.view hcanon

lemma Consistent.replace {v v' : Disk} (h : Consistent sb v)
    (hinode : dinodeAt sb v' inum = ip) (hne : ∀ j, j ≠ inum → dinodeAt sb v' j = dinodeAt sb v j)
    (hother : ∀ b, sb.bmapstart ≤ b → v' b = v b)
    (hold : ∀ p, owns sb (dinodeAt sb v) v (inum, p) = 0) (haddrs : ∀ p, ip.addrs p = 0)
    (hsize : ip.size = 0) (htype : ip.type ≠ 0 → IsFile ip ∨ ip.type = T_DEV) :
    Consistent sb v' := by
  have hlow := bmapstart_lt_dataStart sb
  have hbits : ∀ b, bitOf sb v' b = bitOf sb v b :=
    fun b => bitOf_congr (hother _ (bmapstart_le_BBLOCK sb b))
  have hempty : ∀ w p, ownBlock ip w p = 0 := by
    intro w p
    by_cases hp : p ≤ NDIRECT
    · rw [ownBlock_addr hp, haddrs]
    · exact ownBlock_none (by omega) (.inr (haddrs NDIRECT))
  have hv : owns sb (dinodeAt sb v) v' = owns sb (dinodeAt sb v) v := by
    refine owns_congr (fun j hj => hother _ ?_)
    have := (h.in_data _ hj).1
    omega
  have howns : owns sb (dinodeAt sb v') v' = owns sb (dinodeAt sb v) v := by
    funext q
    obtain ⟨j, p⟩ := q
    by_cases hj : j = inum
    · rw [hj, hold, owns]
      by_cases hu : InUse sb (dinodeAt sb v') inum
      · rw [if_pos hu, hinode]
        exact hempty _ p
      · rw [if_neg hu]
    · rw [owns_congr_inode (hne j hj), hv]
  refine ⟨?_, ?_, fun b hb => ?_, fun b hb => ?_, fun j hu => ?_, fun j hu hf => ?_⟩
  · rw [howns]; exact h.distinct
  · rw [howns]; exact h.in_data
  · rw [howns, hbits]; exact h.bits b hb
  · rw [hbits]; exact h.reserved b hb
  · by_cases hj : j = inum
    · have ht := hu.2.2
      rw [hj, hinode] at ht ⊢
      exact htype ht
    · rw [hne j hj]
      exact h.types j ((inUse_congr (hne j hj)).mp hu)
  · by_cases hj : j = inum
    · rw [hj, hinode, hsize]
      refine ⟨fun bn => ?_, ?_⟩
      · rw [blockAt, hempty]
        exact ⟨fun hbad => absurd rfl hbad, fun hbad => absurd hbad (Nat.not_lt_zero bn)⟩
      · rw [haddrs]
        exact ⟨fun hbad => absurd rfl hbad, fun hbad => absurd hbad (Nat.not_lt_zero _)⟩
    · have hu' := (inUse_congr (hne j hj)).mp hu
      rw [hne j hj] at hf ⊢
      refine ⟨fun bn => ?_, (h.covered j hu' hf).2⟩
      rw [← (h.covered j hu' hf).1 bn, blockAt, blockAt, ← owns_of_inUse hu',
        ← owns_of_inUse hu', hv]

end Call

end Xv6Image
