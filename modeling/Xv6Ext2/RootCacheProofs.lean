import Xv6Ext2.PathWalkProofs

/-! # The root device in a cache of both devices

    The inode cache holds entries of the root device and of the ext2 device side by side. `RootSync`
    is what holds of the entries of the root device, whatever the others are: no two of them stand
    for one inode, no two share a slot, and a valid one is the inode on disk.

    A call is `Quiet` when it leaves the contents of the root device as they are.  Every call on an
    entry of the ext2 device is (`RootSync.ext2_change`); on the root device `iget`, `ilock` and the
    calls that only read are, and `iput` unless it frees the inode. -/

namespace Kernel

open BufCache Param Outcome FileIo Xv6Alloc Xv6Inode Xv6Image Ext2Alloc SlotTable Icache

open Function (comp_update update update_of_ne update_self)

/-- An entry in use belongs to the file system of its device. -/
def OnDevice (ip : Icache.Inode) : Prop :=
  (ip.dev = ROOTDEV ∧ ip.iops = some .xv6fs ∧ ∃ i, ip.addrs = some (.xv6fs i)) ∨
  (ip.dev ≠ ROOTDEV ∧ ip.iops = some .ext2fs ∧ ∃ j, ip.addrs = some (.ext2fs j))

/-- Entry `a` is in use. -/
def InCache (st : Cache) (a : Nat) : Prop := a < NINODE ∧ 0 < (st.inode a).ref

/-- Entry `a` is in use for an inode of the root device. -/
def OnRoot (st : Cache) (a : Nat) : Prop := InCache st a ∧ (st.inode a).dev = ROOTDEV

/-- The slots of `xv6fs_addrs` are handed out one to an entry. -/
def SlotsOk (st : Cache) : Prop :=
  Ok NINODE (Inode.xv6Slot ∘ st.inode) (AddrSlot.busy ∘ st.xv6fsAddrs)

/-- The entries of the root device are in step with its contents. -/
structure RootSync (sb : Superblock) (st : Cache) : Prop where
  slots  : SlotsOk st
  kind   : ∀ a, InCache st a → OnDevice (st.inode a)
  range  : ∀ a, OnRoot st a → 1 ≤ (st.inode a).inum ∧ (st.inode a).inum < sb.ninodes
  unique : ∀ a b, OnRoot st a → OnRoot st b → (st.inode a).inum = (st.inode b).inum → a = b
  synced : ∀ a, OnRoot st a → (st.inode a).valid = true → ∀ p, (st.inode a).addrs = some p →
    (st.inode a).copy (st.slot p).addrs = dinodeAt sb st.root.view (st.inode a).inum ∧
    (st.inode a).type ≠ 0

/-- Entries that stay in use stand for the same inodes, and stay valid. -/
def Later (st st' : Cache) : Prop :=
  ∀ b, 0 < (st.inode b).ref → 0 < (st'.inode b).ref →
    Inode.id (st'.inode b) = Inode.id (st.inode b) ∧
    ((st.inode b).valid = true → (st'.inode b).valid = true)

/-- A call that changes nothing on the root device. -/
structure Quiet (sb : Superblock) (st st' : Cache) : Prop where
  sync  : RootSync sb st'
  view  : st'.root.view = st.root.view
  later : Later st st'

section Slots

variable {st : Cache} {a : Nat}

lemma SlotsOk.setInode (h : SlotsOk st) {ip : Icache.Inode}
    (hslot : ip.xv6Slot = (st.inode a).xv6Slot) : SlotsOk (st.setInode a ip) := by
  rw [SlotsOk, setInode_inode, comp_update]
  exact h.keep hslot.symm

lemma SlotsOk.setDevice (h : SlotsOk st) (f : Iops) (bc : Bcache) :
    SlotsOk (st.setDevice f bc) := by
  cases f with
  | xv6fs => exact h
  | ext2fs => exact h

/-- A store of addresses into a slot. -/
lemma SlotsOk.setAddrs (h : SlotsOk st) (p : AddrPtr) (addrs : Nat → Nat) :
    SlotsOk (st.setSlot p { st.slot p with addrs := addrs }) := by
  cases p with
  | ext2fs j => exact h
  | xv6fs i =>
    show Ok NINODE _ (AddrSlot.busy ∘ update st.xv6fsAddrs i _)
    rw [comp_update]
    have hsame : update (AddrSlot.busy ∘ st.xv6fsAddrs) i
        (AddrSlot.busy { st.slot (.xv6fs i) with addrs := addrs })
          = AddrSlot.busy ∘ st.xv6fsAddrs := Function.update_eq_self i _
    rwa [hsame]

lemma SlotsOk.freeXv6 (h : SlotsOk st) (ha : a < NINODE) (hr : (st.inode a).ref = 0) :
    st.freeXv6 < NINODE ∧ (st.xv6fsAddrs st.freeXv6).busy = 0 := by
  rw [Cache.freeXv6]
  cases hf : firstFrom (fun i => decide ((st.xv6fsAddrs i).busy = 0)) NINODE 0 with
  | some i =>
    obtain ⟨-, h2, h3⟩ := firstFrom_some hf
    exact ⟨by simpa using h2, of_decide_eq_true h3⟩
  | none =>
    obtain ⟨i, hi, hbusy⟩ := Ok.exists_idle h ha (xv6Slot_of_unused hr)
    have := firstFrom_none hf i (Nat.zero_le i) (by omega)
    exact absurd hbusy (of_decide_eq_false this)

lemma SlotsOk.recycle (h : SlotsOk st) (ha : a < NINODE) (hr : (st.inode a).ref = 0)
    (inum : Nat) : SlotsOk (st.recycle a ROOTDEV inum .xv6fs (.xv6fs st.freeXv6)) := by
  obtain ⟨hi, hbusy⟩ := h.freeXv6 ha hr
  show Ok NINODE (Inode.xv6Slot ∘ update st.inode a _)
    (AddrSlot.busy ∘ update st.xv6fsAddrs st.freeXv6 _)
  rw [comp_update, comp_update]
  exact Ok.acquire h ha (xv6Slot_of_unused hr) hi hbusy

lemma SlotsOk.recycleExt2 (h : SlotsOk st) (hr : (st.inode a).ref = 0) (dev inum j : Nat) :
    SlotsOk (st.recycle a dev inum .ext2fs (.ext2fs j)) := by
  show Ok NINODE (Inode.xv6Slot ∘ update st.inode a _) _
  rw [comp_update]
  exact Ok.keep h (xv6Slot_of_unused hr)

end Slots

section RootSync

variable {sb : Superblock} {st st' : Cache} {a : Nat}

/-- An entry of the root device has the operations of xv6fs and a slot of their table. -/
lemma RootSync.entry (h : RootSync sb st) (ha : OnRoot st a) :
    (st.inode a).iops = some .xv6fs ∧ ∃ i, (st.inode a).addrs = some (.xv6fs i) := by
  rcases h.kind a ha.1 with ⟨-, hi, hp⟩ | ⟨hd, -, -⟩
  · exact ⟨hi, hp⟩
  · exact absurd ha.2 hd

lemma RootSync.entryExt2 (h : RootSync sb st) (ha : InCache st a)
    (hd : (st.inode a).dev ≠ ROOTDEV) :
    (st.inode a).iops = some .ext2fs ∧ ∃ j, (st.inode a).addrs = some (.ext2fs j) := by
  rcases h.kind a ha with ⟨hd', -, -⟩ | ⟨-, hi, hp⟩
  · exact absurd hd' hd
  · exact ⟨hi, hp⟩

variable {p : AddrPtr}

lemma RootSync.slot_ne (h : RootSync sb st) (ha : OnRoot st a) {b : Nat} (hb : OnRoot st b)
    (hba : b ≠ a) {q : AddrPtr} (hp : (st.inode a).addrs = some p)
    (hq : (st.inode b).addrs = some q) : q ≠ p := by
  rintro rfl
  obtain ⟨-, i, hi⟩ := h.entry ha
  obtain rfl := Option.some.inj (hp.symm.trans hi)
  refine hba (Ok.inj h.slots b hb.1.1 a ha.1.1 i ?_ ?_)
  · show (st.inode b).xv6Slot = some i
    rw [Inode.xv6Slot, if_pos hb.1.2, hq]
  · show (st.inode a).xv6Slot = some i
    rw [Inode.xv6Slot, if_pos ha.1.2, hp]

/-- A change of entry `a`, of its slot, and of the contents of the root device. -/
lemma RootSync.of_change (h : RootSync sb st) (a : Nat) (hslots : SlotsOk st')
    (hinode : ∀ b, b ≠ a → st'.inode b = st.inode b)
    (hkind : 0 < (st'.inode a).ref → OnDevice (st'.inode a))
    (hslot : ∀ b, OnRoot st b → b ≠ a → ∀ p, (st.inode b).addrs = some p →
      st'.slot p = st.slot p) (hothers : ∀ b, OnRoot st b → b ≠ a → (st.inode b).valid = true →
      dinodeAt sb st'.root.view (st.inode b).inum = dinodeAt sb st.root.view (st.inode b).inum)
    (hrange : OnRoot st' a → 1 ≤ (st'.inode a).inum ∧ (st'.inode a).inum < sb.ninodes)
    (hunique : OnRoot st' a → ∀ b, OnRoot st b → b ≠ a → (st.inode b).inum ≠ (st'.inode a).inum)
    (hsync : OnRoot st' a → (st'.inode a).valid = true → ∀ p, (st'.inode a).addrs = some p →
      (st'.inode a).copy (st'.slot p).addrs = dinodeAt sb st'.root.view (st'.inode a).inum ∧
      (st'.inode a).type ≠ 0) : RootSync sb st' := by
  have hback : ∀ b, b ≠ a → OnRoot st' b → OnRoot st b := by
    intro b hba hb
    rwa [OnRoot, InCache, hinode b hba] at hb
  refine ⟨hslots, fun b hb => ?_, fun b hb => ?_, fun b c hb hc heq => ?_, fun b hb hv p hp => ?_⟩
  · by_cases hba : b = a
    · rw [hba] at hb ⊢
      exact hkind hb.2
    rw [InCache, hinode b hba] at hb
    rw [hinode b hba]
    exact h.kind b hb
  · by_cases hba : b = a
    · rw [hba] at hb ⊢
      exact hrange hb
    have hb' := hback b hba hb
    rw [hinode b hba]
    exact h.range b hb'
  · by_cases hba : b = a
    · by_cases hca : c = a
      · rw [hba, hca]
      rw [hba] at hb heq
      rw [hinode c hca] at heq
      exact absurd heq.symm (hunique hb c (hback c hca hc) hca)
    by_cases hca : c = a
    · rw [hca] at hc heq
      rw [hinode b hba] at heq
      exact absurd heq (hunique hc b (hback b hba hb) hba)
    · rw [hinode b hba, hinode c hca] at heq
      exact h.unique b c (hback b hba hb) (hback c hca hc) heq
  · by_cases hba : b = a
    · rw [hba] at hb hv hp ⊢
      exact hsync hb hv p hp
    have hb' := hback b hba hb
    rw [hinode b hba] at hv hp ⊢
    rw [hslot b hb' hba p hp, hothers b hb' hba hv]
    exact h.synced b hb' hv p hp

/-- A change of an entry that is not of the root device, and of no slot of its table. -/
lemma RootSync.ext2_change (h : RootSync sb st) (a : Nat) (hslots : SlotsOk st')
    (hinode : ∀ b, b ≠ a → st'.inode b = st.inode b)
    (hkind : 0 < (st'.inode a).ref → OnDevice (st'.inode a)) (hdev : (st'.inode a).dev ≠ ROOTDEV)
    (hslot : ∀ i, st'.slot (.xv6fs i) = st.slot (.xv6fs i))
    (hroot : st'.root = st.root) : RootSync sb st' := by
  refine h.of_change a hslots hinode hkind (fun b hb _ p hp => ?_) (fun b _ _ _ => ?_)
    (fun ha => absurd ha.2 hdev) (fun ha => absurd ha.2 hdev) (fun ha => absurd ha.2 hdev)
  · obtain ⟨-, i, hi⟩ := h.entry hb
    obtain rfl := Option.some.inj (hp.symm.trans hi)
    exact hslot i
  · rw [hroot]

lemma Later.refl (st : Cache) : Later st st := fun _ _ _ => ⟨rfl, id⟩

lemma Later.of_change (a : Nat) (hinode : ∀ b, b ≠ a → st'.inode b = st.inode b)
    (ha : 0 < (st.inode a).ref → 0 < (st'.inode a).ref →
      Inode.id (st'.inode a) = Inode.id (st.inode a) ∧
      ((st.inode a).valid = true → (st'.inode a).valid = true)) : Later st st' := by
  intro b hr hr'
  by_cases hba : b = a
  · subst hba
    exact ha hr hr'
  · rw [hinode b hba]
    exact ⟨rfl, id⟩

lemma RootSync.quiet (h : RootSync sb st) : Quiet sb st st := ⟨h, rfl, Later.refl st⟩

/-! ## References -/

variable {ip : Icache.Inode}

lemma xv6Slot_setRef {n : Nat} (hr : 0 < ip.ref) (hn : 0 < n) :
    Inode.xv6Slot { ip with ref := n } = ip.xv6Slot := by
  unfold Inode.xv6Slot
  rw [if_pos hr, if_pos hn]

lemma RootSync.setRef (h : RootSync sb st) (ha : InCache st a) {n : Nat} (hn : 0 < n) :
    Quiet sb st (st.setInode a { st.inode a with ref := n }) := by
  have hself : (st.setInode a { st.inode a with ref := n }).inode a
      = { st.inode a with ref := n } := update_self _ _ _
  have hother : ∀ b, b ≠ a → (st.setInode a { st.inode a with ref := n }).inode b = st.inode b :=
    fun b hb => update_of_ne hb _ _
  have hroot : OnRoot (st.setInode a { st.inode a with ref := n }) a → OnRoot st a := by
    intro hb
    rw [OnRoot, hself] at hb
    exact ⟨ha, hb.2⟩
  refine ⟨h.of_change a (h.slots.setInode (xv6Slot_setRef ha.2 hn)) hother (fun _ => ?_)
    (fun b _ _ p _ => setInode_slot st p a _) (fun b _ _ _ => rfl) (fun hb => ?_)
    (fun hb b hb' hba => ?_) (fun hb hv p hp => ?_), rfl, Later.of_change a hother (fun _ _ => ?_)⟩
  · rw [hself]
    exact h.kind a ha
  · rw [hself]
    exact h.range a (hroot hb)
  · rw [hself]
    exact fun e => hba (h.unique b a hb' (hroot hb) e)
  · rw [hself] at hv hp ⊢
    rw [setInode_slot]
    exact h.synced a (hroot hb) hv p hp
  · rw [hself]
    exact ⟨rfl, id⟩

/-- The slot that `iget` chooses belongs to no entry of the root device. -/
lemma RootSync.freeXv6_ne (h : RootSync sb st) (ha : a < NINODE) (hunused : (st.inode a).ref = 0)
    {b : Nat} (hb : OnRoot st b) (hp : (st.inode b).addrs = some p) : p ≠ .xv6fs st.freeXv6 := by
  rintro rfl
  have hbusy := (h.slots.freeXv6 ha hunused).2
  have howned := Ok.owned h.slots b hb.1.1 st.freeXv6 (by
    show (st.inode b).xv6Slot = some st.freeXv6
    rw [Inode.xv6Slot, if_pos hb.1.2, hp])
  rw [Function.comp_apply, hbusy] at howned
  cases howned

lemma RootSync.iget (h : RootSync sb st) {dev inum : Nat}
    (hinum : dev = ROOTDEV → 1 ≤ inum ∧ inum < sb.ninodes)
    (hcall : Icache.iget dev inum st = .ok (a, st')) : Quiet sb st st' := by
  obtain ⟨ha, ⟨hr, -, -, rfl⟩ | ⟨hmiss, hunused, ⟨rfl, rfl⟩ | ⟨hdev, rfl⟩⟩⟩ := iget_ok hcall
  · exact h.setRef ⟨ha, hr⟩ (Nat.succ_pos _)
  · -- an unused entry, for an inode that no entry stands for
    have hother : ∀ b, b ≠ a →
        (st.recycle a ROOTDEV inum .xv6fs (.xv6fs st.freeXv6)).inode b = st.inode b := by
      intro b hb
      rw [recycle_inode, update_of_ne hb]
    refine ⟨h.of_change a (h.slots.recycle ha hunused inum) hother (fun _ => ?_)
      (fun b hb _ p hp => ?_) (fun b _ _ _ => rfl) (fun _ => ?_) (fun _ b hb hba => ?_)
      (fun _ hv => ?_), rfl, Later.of_change a hother (fun hr _ => ?_)⟩
    · rw [recycle_self]
      exact .inl ⟨rfl, rfl, _, rfl⟩
    · rw [Cache.recycle, setSlot_slot_of_ne _ _ _ (h.freeXv6_ne ha hunused hb hp), setInode_slot]
    · rw [recycle_self]
      exact hinum rfl
    · rw [recycle_self]
      intro e
      have hno := of_decide_eq_false (hmiss b hb.1.1)
      exact hno ⟨hb.1.2, hb.2, e⟩
    · rw [recycle_self] at hv
      cases hv
    · rw [hunused] at hr
      exact absurd hr (Nat.lt_irrefl 0)
  · have hother : ∀ b, b ≠ a →
        (st.recycle a dev inum .ext2fs (.ext2fs st.freeExt2)).inode b = st.inode b := by
      intro b hb
      rw [recycle_inode, update_of_ne hb]
    refine ⟨h.ext2_change a (h.slots.recycleExt2 hunused dev inum _) hother (fun _ => ?_) ?_
      (fun _ => rfl) rfl, rfl, Later.of_change a hother (fun hr _ => ?_)⟩
    · rw [recycle_self]
      exact .inr ⟨hdev, rfl, _, rfl⟩
    · rwa [recycle_self]
    · rw [hunused] at hr
      exact absurd hr (Nat.lt_irrefl 0)

/-! ## Calls on an entry -/

/-- What a call on an entry keeps of it. -/
def Inode.key (ip : Icache.Inode) : Nat × Nat × Nat × Option Iops × Option AddrPtr :=
  (ip.dev, ip.inum, ip.ref, ip.iops, ip.addrs)

lemma Inode.key_inj {ip' : Icache.Inode} (h : Inode.key ip' = Inode.key ip) :
    ip'.dev = ip.dev ∧ ip'.inum = ip.inum ∧ ip'.ref = ip.ref ∧ ip'.iops = ip.iops ∧
      ip'.addrs = ip.addrs := by
  simpa only [Inode.key, Prod.mk.injEq] using h

/-- The state after a call of file system `f` on entry `a`. -/
abbrev afterCall (st : Cache) (f : Iops) (bc : Bcache) (p : AddrPtr) (addrs : Nat → Nat) (a : Nat)
    (ip : Icache.Inode) : Cache :=
  ((st.setDevice f bc).setSlot p { st.slot p with addrs := addrs }).setInode a ip

lemma afterCall_inode (st : Cache) (f : Iops) (bc : Bcache) (p : AddrPtr) (addrs : Nat → Nat)
    (a : Nat) (ip : Icache.Inode) :
    (afterCall st f bc p addrs a ip).inode = update st.inode a ip := by
  rw [setInode_inode, setSlot_inode, setDevice_inode]

variable {bc : Bcache} {addrs : Nat → Nat}

lemma SlotsOk.afterCall (h : SlotsOk st) {f : Iops} (hkey : Inode.key ip = Inode.key (st.inode a)) :
    SlotsOk (afterCall st f bc p addrs a ip) := by
  obtain ⟨-, -, hr, -, haddrs⟩ := Inode.key_inj hkey
  have h1 := (h.setDevice f bc).setAddrs p addrs
  rw [setDevice_slot] at h1
  refine h1.setInode ?_
  rw [setSlot_inode, setDevice_inode]
  unfold Inode.xv6Slot
  rw [hr, haddrs]

lemma Later.afterCall {f : Iops} (hkey : Inode.key ip = Inode.key (st.inode a))
    (hv : (st.inode a).valid = true → ip.valid = true) :
    Later st (afterCall st f bc p addrs a ip) := by
  obtain ⟨hdev, hinum, -⟩ := Inode.key_inj hkey
  refine Later.of_change a (fun b hb => ?_) (fun _ _ => ?_)
  · rw [afterCall_inode, update_of_ne hb]
  · rw [afterCall_inode, update_self, Inode.id, Inode.id, hdev, hinum]
    exact ⟨rfl, hv⟩

lemma OnDevice.of_key {ip' : Icache.Inode} (h : OnDevice ip)
    (hkey : Inode.key ip' = Inode.key ip) : OnDevice ip' := by
  obtain ⟨hdev, -, -, hiops, haddrs⟩ := Inode.key_inj hkey
  rwa [OnDevice, hdev, hiops, haddrs]

/-- A call on an entry of the root device. -/
lemma RootSync.afterRoot (h : RootSync sb st) (ha : OnRoot st a) (hp : (st.inode a).addrs = some p)
    (hkey : Inode.key ip = Inode.key (st.inode a))
    (hcopy : ip.copy addrs = dinodeAt sb bc.view (st.inode a).inum) (htype : ip.type ≠ 0)
    (hothers : ∀ j, j ≠ (st.inode a).inum → j < sb.ninodes →
      dinodeAt sb bc.view j = dinodeAt sb st.root.view j) :
    RootSync sb (afterCall st .xv6fs bc p addrs a ip) := by
  obtain ⟨hdev, hinum, hr, hiops, haddrs⟩ := Inode.key_inj hkey
  have hself : (afterCall st .xv6fs bc p addrs a ip).inode a = ip := by
    rw [afterCall_inode, update_self]
  have hother : ∀ b, b ≠ a → (afterCall st .xv6fs bc p addrs a ip).inode b = st.inode b := by
    intro b hb
    rw [afterCall_inode, update_of_ne hb]
  have hroot : (afterCall st .xv6fs bc p addrs a ip).root = bc := by
    cases p <;> rfl
  refine h.of_change a (h.slots.afterCall hkey) hother (fun _ => ?_) (fun b hb hba q hq => ?_)
    (fun b hb hba _ => ?_) (fun _ => ?_) (fun _ b hb hba => ?_) (fun _ _ q hq => ?_)
  · rw [hself]
    exact (h.kind a ha.1).of_key hkey
  · rw [setInode_slot, setSlot_slot_of_ne _ _ _ (h.slot_ne ha hb hba hp hq), setDevice_slot]
  · rw [hroot]
    exact hothers _ (fun e => hba (h.unique b a hb ha e)) (h.range b hb).2
  · rw [hself, hinum]
    exact h.range a ha
  · rw [hself, hinum]
    exact fun e => hba (h.unique b a hb ha e)
  · rw [hself, haddrs] at hq
    obtain rfl : p = q := Option.some.inj (hp.symm.trans hq)
    rw [hself, hroot, setInode_slot, setSlot_slot_self, hinum]
    exact ⟨hcopy, htype⟩

lemma RootSync.afterExt2 (h : RootSync sb st) (ha : InCache st a)
    (hd : (st.inode a).dev ≠ ROOTDEV) (hp : (st.inode a).addrs = some p)
    (hkey : Inode.key ip = Inode.key (st.inode a))
    (hv : (st.inode a).valid = true → ip.valid = true) :
    Quiet sb st (afterCall st .ext2fs bc p addrs a ip) := by
  obtain ⟨hdev, -⟩ := Inode.key_inj hkey
  obtain ⟨-, j, hj⟩ := h.entryExt2 ha hd
  obtain rfl : p = .ext2fs j := Option.some.inj (hp.symm.trans hj)
  refine ⟨h.ext2_change a (h.slots.afterCall hkey) (fun b hb => ?_) (fun _ => ?_) ?_ (fun _ => rfl)
    rfl, rfl, Later.afterCall hkey hv⟩
  · rw [afterCall_inode, update_of_ne hb]
  · rw [afterCall_inode, update_self]
    exact (h.kind a ha).of_key hkey
  · rwa [afterCall_inode, update_self, hdev]

lemma RootSync.ilock {esb : Ext2Super} (h : RootSync sb st) (ha : InCache st a)
    (hcall : Icache.ilock sb esb a st = .ok st') :
    Quiet sb st st' ∧ (st'.inode a).valid = true := by
  by_cases hd : (st.inode a).dev = ROOTDEV
  · obtain ⟨hiops, -⟩ := h.entry ⟨ha, hd⟩
    rw [Icache.ilock, hiops] at hcall
    rcases ilockWith_ok hcall with ⟨hv, rfl⟩ | ⟨p, d, bc, hp, -, hread, htype, rfl⟩
    · exact ⟨h.quiet, hv⟩
    have hread : xv6fsIread sb (st.inode a).inum st.root = .ok (d, bc) := hread
    have hval : xv6fsIread sb (st.inode a).inum st.root = .ok
        (dinodeAt sb st.root.view (st.inode a).inum,
          st.root.touch (IBLOCK (st.inode a).inum sb)) := rfl
    rw [hval] at hread
    obtain ⟨rfl, rfl⟩ := ok_pair_inj hread
    have hkey : Inode.key { (st.inode a).load
        (dinodeAt sb st.root.view (st.inode a).inum) with iops := some .xv6fs, valid := true }
          = Inode.key (st.inode a) := by
      rw [Inode.key, Inode.key, hiops]
      rfl
    refine ⟨⟨h.afterRoot ⟨ha, hd⟩ hp hkey ?_ htype (fun j _ _ => ?_), ?_,
      Later.afterCall hkey (fun _ => rfl)⟩, ?_⟩
    · rw [touch_view]
      rfl
    · rw [touch_view]
    · cases p <;> exact touch_view _ _
    · rw [afterCall_inode, update_self]
  · obtain ⟨hiops, -⟩ := h.entryExt2 ha hd
    rw [Icache.ilock, hiops] at hcall
    rcases ilockWith_ok hcall with ⟨hv, rfl⟩ | ⟨p, d, bc, hp, -, -, -, rfl⟩
    · exact ⟨h.quiet, hv⟩
    have hkey : Inode.key { (st.inode a).load d with iops := some .ext2fs, valid := true }
        = Inode.key (st.inode a) := by
      rw [Inode.key, Inode.key, hiops]
      rfl
    refine ⟨h.afterExt2 ha hd hp hkey (fun _ => rfl), ?_⟩
    rw [afterCall_inode, update_self]

end RootSync

end Kernel
