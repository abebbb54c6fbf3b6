import Xv6Ext2.IcacheProofs

/-! # Who owns the address slots

    An entry with references owns the slot that its `addrs` points to.  For the root
    device the slots are handed out one to an entry in every run.  For the ext2 device
    this holds as long as an inode that is not cached is only fetched while no other
    ext2 inode is in use, and fails at the first call of `iget` that breaks this rule:
    the slot it chooses is slot 0 again, or the one past the end of the table.

    - `CacheInv` : the invariant, with one `SlotTable.Ok` for each table;
    - `ext2_slots_exclusive` : its consequences for runs of `iget`, `idup`, `ilock` and
      `iput`. -/

namespace Icache

open BufCache Param Outcome Runs FileIo Xv6Alloc Ext2Alloc SlotTable

open Function (comp_update update update_of_ne update_self)

inductive CacheAct where
  | iget (dev inum : Nat)
  | idup (a : Nat)
  | ilock (a : Nat)
  | iput (a : Nat)

def cacheStep (sb : Superblock) (esb : Ext2Super) (st : Cache) : CacheAct → Except Err Cache
  | .iget dev inum => do
      let (_, st) ← iget dev inum st
      .ok st
  | .idup a => .ok (idup a st)
  | .ilock a => ilock sb esb a st
  | .iput a => iput sb esb a st

/-- The calls that occur: `iget` on one of the two devices, the others by a caller
    that has a reference. -/
def Called (st : Cache) : CacheAct → Prop
  | .iget dev _ => dev = ROOTDEV ∨ dev = EXT2DEV
  | .idup a => a < NINODE ∧ 0 < (st.inode a).ref
  | .ilock a => a < NINODE ∧ 0 < (st.inode a).ref
  | .iput a => a < NINODE ∧ 0 < (st.inode a).ref

/-- An entry of the ext2 device with references. -/
def LiveExt2 (ip : Inode) : Prop := 0 < ip.ref ∧ ip.dev = EXT2DEV

/-- An ext2 inode is fetched only if it is cached or no ext2 inode is in use. -/
def OneExt2 (st : Cache) : CacheAct → Prop
  | .iget dev inum => dev = EXT2DEV →
      (∃ a < NINODE, (st.inode a).is dev inum = true) ∨ ∀ a < NINODE, ¬LiveExt2 (st.inode a)
  | _ => True

instance (ip : Inode) : Decidable (LiveExt2 ip) := inferInstanceAs (Decidable (_ ∧ _))

instance (st : Cache) : (act : CacheAct) → Decidable (Called st act)
  | .iget _ _ => inferInstanceAs (Decidable (_ ∨ _))
  | .idup _ => inferInstanceAs (Decidable (_ ∧ _))
  | .ilock _ => inferInstanceAs (Decidable (_ ∧ _))
  | .iput _ => inferInstanceAs (Decidable (_ ∧ _))

instance (st : Cache) : (act : CacheAct) → Decidable (OneExt2 st act)
  | .iget dev inum => inferInstanceAs (Decidable (dev = EXT2DEV →
      (∃ a < NINODE, (st.inode a).is dev inum = true) ∨ ∀ a < NINODE, ¬LiveExt2 (st.inode a)))
  | .idup _ => isTrue trivial
  | .ilock _ => isTrue trivial
  | .iput _ => isTrue trivial

/-- Live ext2 entries point to different slots, all of the table, and the flags say
    which slots are in use. -/
structure SlotsExclusive (st : Cache) : Prop where
  distinct : ∀ a < NINODE, ∀ b < NINODE, LiveExt2 (st.inode a) → LiveExt2 (st.inode b) →
    a ≠ b → (st.inode a).addrs ≠ (st.inode b).addrs
  in_table : ∀ a < NINODE, LiveExt2 (st.inode a) →
    ∃ j < NINODE, (st.inode a).addrs = some (.ext2fs j)
  busy_iff : ∀ j < NINODE, (st.ext2fsAddrs j).busy = 1 ↔
    ∃ a < NINODE, LiveExt2 (st.inode a) ∧ (st.inode a).addrs = some (.ext2fs j)

/-! ## The invariant -/

/-- The slot of `xv6fs_addrs` that an entry owns. -/
def Inode.xv6Slot (ip : Inode) : Option Nat :=
  if 0 < ip.ref then
    match ip.addrs with
    | some (.xv6fs i) => some i
    | _ => none
  else none

/-- The slot of `ext2fs_addrs` that an entry owns. -/
def Inode.ext2Slot (ip : Inode) : Option Nat :=
  if 0 < ip.ref then
    match ip.addrs with
    | some (.ext2fs j) => some j
    | _ => none
  else none

/-- An entry in use belongs to the file system of its device; on the ext2 device it has slot 0. -/
def Kind (ip : Inode) : Prop :=
  (ip.dev = ROOTDEV ∧ ip.iops = some .xv6fs ∧ ∃ i, ip.addrs = some (.xv6fs i)) ∨
  (ip.dev = EXT2DEV ∧ ip.iops = some .ext2fs ∧ ip.addrs = some (.ext2fs 0))

structure CacheInv (st : Cache) : Prop where
  xv6  : Ok NINODE (Inode.xv6Slot ∘ st.inode) (AddrSlot.busy ∘ st.xv6fsAddrs)
  ext2 : Ok NINODE (Inode.ext2Slot ∘ st.inode) (AddrSlot.busy ∘ st.ext2fsAddrs)
  kind : ∀ a < NINODE, 0 < (st.inode a).ref → Kind (st.inode a)

variable {ip : Inode}

lemma xv6Slot_of_unused (h : ip.ref = 0) : ip.xv6Slot = none := if_neg (by omega)

lemma ext2Slot_of_unused (h : ip.ref = 0) : ip.ext2Slot = none := if_neg (by omega)

lemma slots_congr {ip' : Inode} (haddrs : ip'.addrs = ip.addrs) (hr : 0 < ip.ref)
    (hr' : 0 < ip'.ref) : ip'.xv6Slot = ip.xv6Slot ∧ ip'.ext2Slot = ip.ext2Slot := by
  unfold Inode.xv6Slot Inode.ext2Slot
  rw [if_pos hr, if_pos hr, if_pos hr', if_pos hr', haddrs]
  exact ⟨rfl, rfl⟩

variable {st : Cache} {a : Nat}

/-- A change of an entry in use that keeps its device, operations and slot. -/
lemma CacheInv.setInode (h : CacheInv st) (ha : a < NINODE) (hr : 0 < (st.inode a).ref)
    (hr' : 0 < ip.ref) (hdev : ip.dev = (st.inode a).dev) (hiops : ip.iops = (st.inode a).iops)
    (haddrs : ip.addrs = (st.inode a).addrs) : CacheInv (st.setInode a ip) := by
  obtain ⟨hx, he⟩ := slots_congr haddrs hr hr'
  refine ⟨?_, ?_, fun b hb hbr => ?_⟩
  · rw [setInode_inode, comp_update]
    exact h.xv6.keep hx.symm
  · rw [setInode_inode, comp_update]
    exact h.ext2.keep he.symm
  · rw [setInode_inode] at hbr ⊢
    by_cases hba : b = a
    · rw [hba, update_self]
      unfold Kind
      rw [hdev, hiops, haddrs]
      exact h.kind a ha hr
    · rw [update_of_ne hba] at hbr ⊢
      exact h.kind b hb hbr

lemma CacheInv.setAddrs (h : CacheInv st) (f : Iops) (bc : Bcache)
    (p : AddrPtr) (addrs : Nat → Nat) :
    CacheInv ((st.setDevice f bc).setSlot p { st.slot p with addrs := addrs }) := by
  obtain ⟨hx, he, hk⟩ := h
  have hsame : ∀ (t : Nat → AddrSlot) (i : Nat),
      AddrSlot.busy ∘ update t i { t i with addrs := addrs } = AddrSlot.busy ∘ t := by
    intro t i
    rw [comp_update]
    exact Function.update_eq_self i (AddrSlot.busy ∘ t)
  cases f <;> cases p with
  | xv6fs i => exact ⟨(hsame st.xv6fsAddrs i).symm ▸ hx, he, hk⟩
  | ext2fs i => exact ⟨hx, (hsame st.ext2fsAddrs i).symm ▸ he, hk⟩

variable {p : AddrPtr}

lemma CacheInv.release (h : CacheInv st) {v : AddrSlot} (ha : a < NINODE)
    (hr : 0 < (st.inode a).ref) (hp : (st.inode a).addrs = some p) (hr' : ip.ref = 0)
    (hv : v.busy = 0) : CacheInv ((st.setSlot p v).setInode a ip) := by
  have hkind : ∀ b < NINODE, 0 < (((st.setSlot p v).setInode a ip).inode b).ref →
      Kind (((st.setSlot p v).setInode a ip).inode b) := by
    intro b hb hbr
    rw [setInode_inode, setSlot_inode] at hbr ⊢
    by_cases hba : b = a
    · rw [hba, update_self, hr'] at hbr
      exact absurd hbr (Nat.lt_irrefl 0)
    · rw [update_of_ne hba] at hbr ⊢
      exact h.kind b hb hbr
  cases p with
  | xv6fs i =>
    have hx : (Inode.xv6Slot ∘ st.inode) a = some i := by
      show (st.inode a).xv6Slot = some i
      rw [Inode.xv6Slot, if_pos hr, hp]
    have he : (Inode.ext2Slot ∘ st.inode) a = none := by
      show (st.inode a).ext2Slot = none
      rw [Inode.ext2Slot, if_pos hr, hp]
    refine ⟨?_, ?_, hkind⟩
    · show Ok NINODE (Inode.xv6Slot ∘ update st.inode a ip)
        (AddrSlot.busy ∘ update st.xv6fsAddrs i v)
      rw [comp_update, comp_update, hv, xv6Slot_of_unused hr']
      exact h.xv6.release ha hx
    · show Ok NINODE (Inode.ext2Slot ∘ update st.inode a ip) _
      rw [comp_update, ext2Slot_of_unused hr']
      exact h.ext2.keep he
  | ext2fs j =>
    have he : (Inode.ext2Slot ∘ st.inode) a = some j := by
      show (st.inode a).ext2Slot = some j
      rw [Inode.ext2Slot, if_pos hr, hp]
    have hx : (Inode.xv6Slot ∘ st.inode) a = none := by
      show (st.inode a).xv6Slot = none
      rw [Inode.xv6Slot, if_pos hr, hp]
    refine ⟨?_, ?_, hkind⟩
    · show Ok NINODE (Inode.xv6Slot ∘ update st.inode a ip) _
      rw [comp_update, xv6Slot_of_unused hr']
      exact h.xv6.keep hx
    · show Ok NINODE (Inode.ext2Slot ∘ update st.inode a ip)
        (AddrSlot.busy ∘ update st.ext2fsAddrs j v)
      rw [comp_update, comp_update, hv, ext2Slot_of_unused hr']
      exact h.ext2.release ha he

variable {inum : Nat} {f : Iops}

lemma recycle_kind {dev : Nat} (h : CacheInv st) (hnew : Kind { st.inode a with
      dev := dev, inum := inum, ref := 1, valid := false, iops := some f, addrs := some p }) :
    ∀ b < NINODE, 0 < ((st.recycle a dev inum f p).inode b).ref →
      Kind ((st.recycle a dev inum f p).inode b) := by
  intro b hb hbr
  rw [recycle_inode] at hbr ⊢
  by_cases hba : b = a
  · rwa [hba, update_self]
  · rw [update_of_ne hba] at hbr ⊢
    exact h.kind b hb hbr

/-- While there is an unused entry, `xv6fs_addrs` has a free slot, and `iget` finds one. -/
lemma freeXv6_spec (h : CacheInv st) (ha : a < NINODE) (hr : (st.inode a).ref = 0) :
    st.freeXv6 < NINODE ∧ (st.xv6fsAddrs st.freeXv6).busy = 0 := by
  rw [Cache.freeXv6]
  cases hf : firstFrom (fun i => decide ((st.xv6fsAddrs i).busy = 0)) NINODE 0 with
  | some i =>
    obtain ⟨-, h2, h3⟩ := firstFrom_some hf
    exact ⟨by simpa using h2, of_decide_eq_true h3⟩
  | none =>
    obtain ⟨i, hi, hbusy⟩ := h.xv6.exists_idle ha (xv6Slot_of_unused hr)
    have := firstFrom_none hf i (Nat.zero_le i) (by omega)
    exact absurd hbusy (of_decide_eq_false this)

lemma freeExt2_eq (st : Cache) : ((st.ext2fsAddrs st.freeXv6).busy = 0 ∧ st.freeExt2 = 0) ∨
    ((st.ext2fsAddrs st.freeXv6).busy ≠ 0 ∧ st.freeExt2 = NINODE) := by
  by_cases hb : (st.ext2fsAddrs st.freeXv6).busy = 0
  · refine .inl ⟨hb, ?_⟩
    rw [Cache.freeExt2, show NINODE = 49 + 1 from rfl, firstFrom, if_pos (decide_eq_true hb)]
    rfl
  refine .inr ⟨hb, ?_⟩
  rw [Cache.freeExt2]
  cases hf : firstFrom (fun _ => decide ((st.ext2fsAddrs st.freeXv6).busy = 0)) NINODE 0 with
  | none => rfl
  | some j => exact absurd (of_decide_eq_true (firstFrom_some hf).2.2) hb

lemma CacheInv.recycle_root (h : CacheInv st) (ha : a < NINODE) (hunused : (st.inode a).ref = 0)
    (inum : Nat) : CacheInv (st.recycle a ROOTDEV inum .xv6fs (.xv6fs st.freeXv6)) := by
  obtain ⟨hi, hbusy⟩ := freeXv6_spec h ha hunused
  refine ⟨?_, ?_, recycle_kind h (.inl ⟨rfl, rfl, _, rfl⟩)⟩
  · show Ok NINODE (Inode.xv6Slot ∘ update st.inode a _)
      (AddrSlot.busy ∘ update st.xv6fsAddrs st.freeXv6 _)
    rw [comp_update, comp_update]
    exact h.xv6.acquire ha (xv6Slot_of_unused hunused) hi hbusy
  · show Ok NINODE (Inode.ext2Slot ∘ update st.inode a _) _
    rw [comp_update]
    exact h.ext2.keep (ext2Slot_of_unused hunused)

variable {st' : Cache}

lemma cacheInv_iget {dev : Nat} (h : CacheInv st) (hc : Called st (.iget dev inum))
    (hone : OneExt2 st (.iget dev inum)) (hr : iget dev inum st = .ok (a, st')) : CacheInv st' := by
  obtain ⟨ha, ⟨hpos, -, -, rfl⟩ | ⟨hmiss, hunused, ⟨hdev, rfl⟩ | ⟨hdev, rfl⟩⟩⟩ := iget_ok hr
  · exact h.setInode ha hpos (Nat.succ_pos _) rfl rfl rfl
  · rw [hdev]
    exact h.recycle_root ha hunused inum
  · have hext : dev = EXT2DEV := hc.resolve_left hdev
    -- no ext2 inode is in use, so no slot of the table is, and `j` is slot 0
    have hnone : ∀ b < NINODE, ¬LiveExt2 (st.inode b) := by
      rcases hone hext with ⟨b, hb, hcached⟩ | hno
      · rw [hmiss b hb] at hcached; exact nomatch hcached
      · exact hno
    have hidle : ∀ j < NINODE, (st.ext2fsAddrs j).busy = 0 := by
      intro j hj
      refine h.ext2.idle j hj (fun b hb e => ?_)
      have hbr : 0 < (st.inode b).ref := by
        by_contra h0
        rw [Function.comp_apply, ext2Slot_of_unused (Nat.eq_zero_of_not_pos h0)] at e
        exact nomatch e
      rcases h.kind b hb hbr with ⟨-, -, i, hi⟩ | ⟨hd, -, -⟩
      · rw [Function.comp_apply, Inode.ext2Slot, if_pos hbr, hi] at e
        exact nomatch e
      · exact hnone b hb ⟨hbr, hd⟩
    obtain ⟨hi, -⟩ := freeXv6_spec h ha hunused
    have hj : st.freeExt2 = 0 := by
      rcases freeExt2_eq st with ⟨-, hj⟩ | ⟨hb, -⟩
      · exact hj
      · exact absurd (hidle _ hi) hb
    rw [hj]
    refine ⟨?_, ?_, recycle_kind h (.inr ⟨hext, rfl, rfl⟩)⟩
    · show Ok NINODE (Inode.xv6Slot ∘ update st.inode a _) _
      rw [comp_update]
      exact h.xv6.keep (xv6Slot_of_unused hunused)
    · show Ok NINODE (Inode.ext2Slot ∘ update st.inode a _)
        (AddrSlot.busy ∘ update st.ext2fsAddrs 0 _)
      rw [comp_update, comp_update]
      exact h.ext2.acquire ha (ext2Slot_of_unused hunused) (by decide) (hidle 0 (by decide))

lemma Kind.iops_some (h : Kind ip) : ∃ f, ip.iops = some f := by
  rcases h with ⟨-, h, -⟩ | ⟨-, h, -⟩
  · exact ⟨_, h⟩
  · exact ⟨_, h⟩

lemma cacheInv_ilockWith
    {read : Nat → Bcache → Except Err (Dinode × Bcache)}
    (h : CacheInv st) (ha : a < NINODE) (hpos : 0 < (st.inode a).ref)
    (hf : (st.inode a).iops = some f)
    (hr : ilockWith f read a st = .ok st') : CacheInv st' := by
  rcases ilockWith_ok hr with ⟨-, rfl⟩ | ⟨p, d, bc, hp, -, -, -, rfl⟩
  · exact h
  have h' := h.setAddrs f bc p d.addrs
  have hsame : ((st.setDevice f bc).setSlot p { st.slot p with addrs := d.addrs }).inode a
      = st.inode a := by rw [setSlot_inode, setDevice_inode]
  exact h'.setInode ha (hsame ▸ hpos) hpos (by rw [hsame]; rfl) (by rw [hsame, hf])
    (by rw [hsame]; rfl)

lemma cacheInv_iputWith {free : Nat → Dinode → Bcache → Except Err (Dinode × Bcache)}
    (h : CacheInv st) (ha : a < NINODE) (hpos : 0 < (st.inode a).ref)
    (hr : iputWith f free a st = .ok st') : CacheInv st' := by
  rcases iputWith_ok hr with ⟨hr1, rfl⟩ | ⟨-, p, hp, ⟨-, rfl⟩ | ⟨d, bc, -, -, -, rfl⟩⟩
  · exact h.setInode ha hpos (show 0 < (st.inode a).ref - 1 by omega) rfl rfl rfl
  · exact h.release ha hpos hp rfl rfl
  · have h' : CacheInv (st.setDevice f bc) := by
      obtain ⟨hx, he, hk⟩ := h
      cases f with
      | xv6fs => exact ⟨hx, he, hk⟩
      | ext2fs => exact ⟨hx, he, hk⟩
    have hsame : (st.setDevice f bc).inode a = st.inode a := by rw [setDevice_inode]
    exact h'.release ha (hsame ▸ hpos) (hsame ▸ hp) rfl rfl

lemma cacheInv_step {sb : Superblock} {esb : Ext2Super} (st : Cache) (act : CacheAct)
    (st' : Cache) (h : CacheInv st) (hc : Called st act ∧ OneExt2 st act)
    (hr : cacheStep sb esb st act = .ok st') : CacheInv st' := by
  cases act with
  | iget dev inum =>
    obtain ⟨⟨a, st1⟩, h1, h2⟩ := bind_eq_ok.mp hr
    obtain rfl := Except.ok.inj h2
    exact cacheInv_iget h hc.1 hc.2 h1
  | idup a =>
    obtain rfl := Except.ok.inj hr
    exact h.setInode hc.1.1 hc.1.2 (Nat.succ_pos _) rfl rfl rfl
  | ilock a =>
    obtain ⟨f, hf⟩ := (h.kind a hc.1.1 hc.1.2).iops_some
    have hr : ilock sb esb a st = .ok st' := hr
    rw [ilock, hf] at hr
    cases f with
    | xv6fs => exact cacheInv_ilockWith h hc.1.1 hc.1.2 hf hr
    | ext2fs => exact cacheInv_ilockWith h hc.1.1 hc.1.2 hf hr
  | iput a =>
    obtain ⟨f, hf⟩ := (h.kind a hc.1.1 hc.1.2).iops_some
    have hr : iput sb esb a st = .ok st' := hr
    rw [iput, hf] at hr
    cases f with
    | xv6fs => exact cacheInv_iputWith h hc.1.1 hc.1.2 hr
    | ext2fs => exact cacheInv_iputWith h hc.1.1 hc.1.2 hr

/-! ## What follows for the ext2 slots -/

lemma CacheInv.liveExt2_slot (h : CacheInv st) (ha : a < NINODE) (hl : LiveExt2 (st.inode a)) :
    (st.inode a).addrs = some (.ext2fs 0) ∧ (st.inode a).ext2Slot = some 0 := by
  rcases h.kind a ha hl.1 with ⟨hd, -, -⟩ | ⟨-, -, hp⟩
  · rw [hl.2] at hd
    exact nomatch hd
  · refine ⟨hp, ?_⟩
    rw [Inode.ext2Slot, if_pos hl.1, hp]

lemma CacheInv.slotsExclusive (h : CacheInv st) : SlotsExclusive st := by
  refine ⟨fun a ha b hb hla hlb hab _ => ?_, fun a ha hla => ?_, fun j hj => ?_⟩
  · exact hab (h.ext2.inj a ha b hb 0 (h.liveExt2_slot ha hla).2 (h.liveExt2_slot hb hlb).2)
  · exact ⟨0, by decide, (h.liveExt2_slot ha hla).1⟩
  · constructor
    · intro hbusy
      obtain ⟨a, ha, e⟩ := (h.ext2.busy_iff hj).mp hbusy
      have hpos : 0 < (st.inode a).ref := by
        by_contra h0
        rw [Function.comp_apply, ext2Slot_of_unused (Nat.eq_zero_of_not_pos h0)] at e
        exact nomatch e
      rcases h.kind a ha hpos with ⟨-, -, i, hi⟩ | ⟨hd, -, hp⟩
      · rw [Function.comp_apply, Inode.ext2Slot, if_pos hpos, hi] at e
        exact nomatch e
      · rw [Function.comp_apply, Inode.ext2Slot, if_pos hpos, hp] at e
        exact ⟨a, ha, ⟨hpos, hd⟩, by rw [hp, Option.some.inj e]⟩
    · rintro ⟨a, ha, hl, hp⟩
      refine (h.ext2.busy_iff hj).mpr ⟨a, ha, ?_⟩
      show (st.inode a).ext2Slot = some j
      rw [Inode.ext2Slot, if_pos hl.1, hp]

/-- What `ilock` and `iput` of entry `a` leave alone: entries other than `a`, and slots
    other than the one `a` points to. -/
lemma ilock_iput_frame {sb : Superblock} {esb : Ext2Super} {b : Nat} {q : AddrPtr}
    (hr : ilock sb esb a st = .ok st' ∨ iput sb esb a st = .ok st') (hba : b ≠ a)
    (hp : (st.inode a).addrs = some p) (hqp : q ≠ p) :
    st'.inode b = st.inode b ∧ st'.slot q = st.slot q := by
  have hlock : ∀ {f read}, ilockWith f read a st = .ok st' →
      st'.inode b = st.inode b ∧ st'.slot q = st.slot q := by
    intro f read hr
    rcases ilockWith_ok hr with ⟨-, rfl⟩ | ⟨p', d, bc, hp', -, -, -, rfl⟩
    · exact ⟨rfl, rfl⟩
    obtain rfl : p = p' := Option.some.inj (hp.symm.trans hp')
    rw [setInode_inode, setInode_slot, setSlot_slot_of_ne _ _ _ hqp, setSlot_inode,
      setDevice_inode, setDevice_slot, update_of_ne hba]
    exact ⟨rfl, rfl⟩
  have hput : ∀ {f free}, iputWith f free a st = .ok st' →
      st'.inode b = st.inode b ∧ st'.slot q = st.slot q := by
    intro f free hr
    rcases iputWith_ok hr with ⟨-, rfl⟩ | ⟨-, p', hp', ⟨-, rfl⟩ | ⟨d, bc, -, -, -, rfl⟩⟩
    · rw [setInode_inode, setInode_slot, update_of_ne hba]
      exact ⟨rfl, rfl⟩
    · obtain rfl : p = p' := Option.some.inj (hp.symm.trans hp')
      rw [setInode_inode, setInode_slot, setSlot_slot_of_ne _ _ _ hqp, setSlot_inode,
        update_of_ne hba]
      exact ⟨rfl, rfl⟩
    · obtain rfl : p = p' := Option.some.inj (hp.symm.trans hp')
      rw [setInode_inode, setInode_slot, setSlot_slot_of_ne _ _ _ hqp, setSlot_inode,
        setDevice_inode, setDevice_slot, update_of_ne hba]
      exact ⟨rfl, rfl⟩
  rcases hr with hr | hr
  · rw [ilock] at hr
    split at hr
    · exact nomatch hr
    · exact hlock hr
    · exact hlock hr
  rw [iput] at hr
  split at hr
  · exact nomatch hr
  · exact hput hr
  · exact hput hr

/-- An ext2 inode fetched while another one is in use gets the other one's slot, or the
    slot past the end. -/
lemma not_slotsExclusive_of_second {c : Nat} (h : CacheInv st)
    (hmiss : ∀ b < NINODE, (st.inode b).is EXT2DEV inum = false) (hc : c < NINODE)
    (hl : LiveExt2 (st.inode c)) (hr : iget EXT2DEV inum st = .ok (a, st')) :
    ¬SlotsExclusive st' := by
  obtain ⟨ha, ⟨h1, h2, h3, -⟩ | ⟨-, hunused, ⟨hdev, -⟩ | ⟨-, rfl⟩⟩⟩ := iget_ok hr
  · have := hmiss a ha
    rw [Inode.is, decide_eq_false_iff_not] at this
    exact absurd ⟨h1, h2, h3⟩ this
  · exact nomatch hdev
  · intro hex
    have hca : c ≠ a := by
      rintro rfl
      have := hl.1
      rw [hunused] at this
      exact nomatch this
    have hla : LiveExt2 ((st.recycle a EXT2DEV inum .ext2fs (.ext2fs st.freeExt2)).inode a) := by
      rw [recycle_self]
      exact ⟨Nat.one_pos, rfl⟩
    have hlc : LiveExt2 ((st.recycle a EXT2DEV inum .ext2fs (.ext2fs st.freeExt2)).inode c) := by
      rwa [recycle_inode, update_of_ne hca]
    rcases freeExt2_eq st with ⟨-, hj⟩ | ⟨-, hj⟩
    · refine hex.distinct c hc a ha hlc hla hca ?_
      rw [recycle_inode, update_self, update_of_ne hca, hj]
      exact (h.liveExt2_slot hc hl).1
    obtain ⟨j, hjlt, e⟩ := hex.in_table a ha hla
    rw [recycle_self, hj] at e
    obtain rfl : NINODE = j := AddrPtr.ext2fs.inj (Option.some.inj e)
    exact absurd hjlt (Nat.lt_irrefl _)

/-- The cache after boot: no entry is used and no flag is set. -/
def bootCache (root ext2 : Bcache) : Cache where
  inode       := fun _ => ⟨0, 0, 0, false, none, 0, 0, 0, 0, 0, none⟩
  xv6fsAddrs  := fun _ => ⟨0, fun _ => 0⟩
  ext2fsAddrs := fun _ => ⟨0, fun _ => 0⟩
  root        := root
  ext2        := ext2

lemma bootCache_inv (root ext2 : Bcache) : CacheInv (bootCache root ext2) :=
  ⟨Ok.empty (fun _ _ => rfl) (fun _ _ => rfl), Ok.empty (fun _ _ => rfl) (fun _ _ => rfl),
    fun _ _ h => absurd h (Nat.lt_irrefl 0)⟩

/-- **Main result.**  In a run in which an ext2 inode that is not cached is fetched only
    while no ext2 inode is in use, the ext2 entries own their slots in every state, and
    `ilock` and `iput` of one entry leave the block map of every other one alone.  The
    first call that breaks the rule, if it returns, breaks the ownership. -/
theorem ext2_slots_exclusive (sb : Superblock) (esb : Ext2Super) (root ext2 : Bcache)
    (acts : List CacheAct) (st : Cache)
    (hacts : AllSteps (cacheStep sb esb) (fun st act => Called st act ∧ OneExt2 st act) acts
      (bootCache root ext2)) (hrun : exec (cacheStep sb esb) acts (bootCache root ext2) = .ok st) :
    SlotsExclusive st ∧
    (∀ a < NINODE, ∀ b < NINODE, 0 < (st.inode a).ref → LiveExt2 (st.inode b) → b ≠ a →
      ∀ st', (ilock sb esb a st = .ok st' ∨ iput sb esb a st = .ok st') →
        ∃ j < NINODE, (st.inode b).addrs = some (.ext2fs j) ∧
          st'.inode b = st.inode b ∧ st'.ext2fsAddrs j = st.ext2fsAddrs j) ∧
    (∀ inum a st', ¬OneExt2 st (.iget EXT2DEV inum) →
      iget EXT2DEV inum st = .ok (a, st') → ¬SlotsExclusive st') := by
  have h : CacheInv st :=
    exec_invariant cacheInv_step acts _ st (bootCache_inv root ext2) hacts hrun
  refine ⟨h.slotsExclusive, fun a ha b hb hpos hl hba st' hr => ?_, fun inum a st' hno hr => ?_⟩
  · have hq := (h.liveExt2_slot hb hl).1
    -- the other entry points elsewhere
    obtain ⟨p, hp, hqp⟩ : ∃ p, (st.inode a).addrs = some p ∧ AddrPtr.ext2fs 0 ≠ p := by
      rcases h.kind a ha hpos with ⟨-, -, i, hi⟩ | ⟨hd, -, hp⟩
      · exact ⟨_, hi, fun e => nomatch e⟩
      · refine ⟨_, hp, fun _ => ?_⟩
        exact h.slotsExclusive.distinct a ha b hb ⟨hpos, hd⟩ hl hba.symm (hp.trans hq.symm)
    obtain ⟨h1, h2⟩ := ilock_iput_frame hr hba hp hqp
    exact ⟨0, by decide, hq, h1, h2⟩
  · rw [OneExt2, Classical.not_imp, not_or] at hno
    obtain ⟨-, hmiss, hlive⟩ := hno
    rw [not_forall] at hlive
    obtain ⟨c, hc⟩ := hlive
    obtain ⟨hc, hl⟩ := Classical.not_imp.mp hc
    refine not_slotsExclusive_of_second h (fun b hb => ?_) hc (not_not.mp hl) hr
    by_contra hcached
    exact hmiss ⟨b, hb, by simpa using hcached⟩

def blankDevice : Bcache := ⟨fun _ _ => 0, fun _ => none⟩

def rootSuper : Superblock := ⟨1000, 941, 200, 30, 2, 32, 58⟩

/-- The root directory, an ext2 inode, and after its release another one. -/
theorem ext2_slots_exclusive_oneAtATime : ∃ st, exec (cacheStep rootSuper Ext2Layout.smallSuper)
        [.iget ROOTDEV 1, .iget EXT2DEV 2, .iput 1, .iget EXT2DEV 12]
        (bootCache blankDevice blankDevice) = .ok st ∧
      LiveExt2 (st.inode 1) ∧ SlotsExclusive st := by
  obtain ⟨st, hst, hl⟩ : ∃ st, exec (cacheStep rootSuper Ext2Layout.smallSuper)
        [.iget ROOTDEV 1, .iget EXT2DEV 2, .iput 1, .iget EXT2DEV 12]
        (bootCache blankDevice blankDevice) = .ok st ∧ LiveExt2 (st.inode 1) := ⟨_, rfl, by decide⟩
  exact ⟨st, hst, hl,
    (ext2_slots_exclusive rootSuper Ext2Layout.smallSuper blankDevice blankDevice _ st
      (by decide) hst).1⟩

/-- Two ext2 inodes in use beside the root directory share slot 0. -/
theorem two_ext2_inodes_share_slot : ∃ st, exec (cacheStep rootSuper Ext2Layout.smallSuper)
        [.iget ROOTDEV 1, .iget EXT2DEV 2, .iget EXT2DEV 12]
        (bootCache blankDevice blankDevice) = .ok st ∧
      AllSteps (cacheStep rootSuper Ext2Layout.smallSuper) Called
        [.iget ROOTDEV 1, .iget EXT2DEV 2, .iget EXT2DEV 12] (bootCache blankDevice blankDevice) ∧
      LiveExt2 (st.inode 1) ∧ LiveExt2 (st.inode 2) ∧
      (st.inode 1).addrs = some (.ext2fs 0) ∧ (st.inode 2).addrs = some (.ext2fs 0) ∧
      ¬SlotsExclusive st := ⟨_, rfl, by decide, by decide, by decide, by decide, by decide, fun h =>
    h.distinct 1 (by decide) 2 (by decide) (by decide) (by decide) (by decide) (by decide)⟩

end Icache
