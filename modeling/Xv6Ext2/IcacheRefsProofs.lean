import Xv6Ext2.IcacheSlotsProofs
import Mathlib.Data.List.Count

/-! # References and locks of the root device's inodes

    The cache together with what its callers hold: a list with one element for each reference that
    `iget` or `idup` has handed out and `iput` has not taken back, and the sleep-locks between
    `ilock` and `iunlock`.  The counts of the cache are the counts of this list in every run, so
    `iget` finds an unused entry unless all of them are referenced.

    - `RefInv` : the invariant, over `CacheInv`;
    - `references_counted` : its consequences for every run. -/

namespace Icache

open BufCache Param Outcome Runs FileIo Xv6Alloc Ext2Alloc SlotTable

open Function (update_of_ne update_self)

/-- The cache, the references that are out, and the sleep-locks. -/
structure Shared where
  cache  : Cache
  refs   : List Nat
  locked : Nat → Bool

inductive RefAct where
  | iget (inum : Nat)
  | idup (a : Nat)
  | ilock (a : Nat)
  | iunlock (a : Nat)
  | iput (a : Nat)

/-- A call that has to wait for the sleep-lock is not taken in this state. -/
def refStep (sb : Superblock) (esb : Ext2Super) (s : Shared) : RefAct → Except Err Shared
  | .iget inum => do
      let (a, st) ← iget ROOTDEV inum s.cache
      .ok { s with cache := st, refs := a :: s.refs }
  | .idup a => .ok { s with cache := idup a s.cache, refs := a :: s.refs }
  | .ilock a =>
    if s.locked a then .error .deadlock
    else do
      let st ← ilock sb esb a s.cache
      .ok { s with cache := st, locked := Function.update s.locked a true }
  | .iunlock a =>
    if s.locked a = false ∨ (s.cache.inode a).ref < 1 then .error (.panic "iunlock")
    else .ok { s with locked := Function.update s.locked a false }
  | .iput a =>
    if s.locked a then .error .deadlock
    else do
      let st ← iput sb esb a s.cache
      .ok { s with cache := st, refs := s.refs.erase a }

/-- The caller has a reference to the entry it passes. -/
def HasRef (s : Shared) : RefAct → Prop
  | .iget _ => True
  | .idup a | .ilock a | .iunlock a | .iput a => a ∈ s.refs

instance (s : Shared) : (act : RefAct) → Decidable (HasRef s act)
  | .iget _ => isTrue trivial
  | .idup _ | .ilock _ | .iunlock _ | .iput _ => inferInstanceAs (Decidable (_ ∈ _))

def Live (st : Cache) (a : Nat) : Prop := a < NINODE ∧ 0 < (st.inode a).ref

/-- Live entries point to different slots, all of the table, and the flags say which
    slots are in use. -/
structure Xv6SlotsExclusive (st : Cache) : Prop where
  distinct : ∀ a b, Live st a → Live st b → a ≠ b → (st.inode a).addrs ≠ (st.inode b).addrs
  in_table : ∀ a, Live st a → ∃ i < NINODE, (st.inode a).addrs = some (.xv6fs i)
  busy_iff : ∀ i < NINODE, (st.xv6fsAddrs i).busy = 1 ↔
    ∃ a, Live st a ∧ (st.inode a).addrs = some (.xv6fs i)

/-! ## The invariant -/

structure RefInv (s : Shared) : Prop where
  cache  : CacheInv s.cache
  root   : ∀ a, Live s.cache a → (s.cache.inode a).dev = ROOTDEV
  unique : ∀ a b, Live s.cache a → Live s.cache b →
    (s.cache.inode a).inum = (s.cache.inode b).inum → a = b
  refs   : ∀ a ∈ s.refs, a < NINODE
  count  : ∀ a < NINODE, (s.cache.inode a).ref = s.refs.count a

section RefInv

variable {s : Shared} {a : Nat}

lemma RefInv.live_of_mem (h : RefInv s) (ha : a ∈ s.refs) : Live s.cache a :=
  ⟨h.refs a ha, by rw [h.count a (h.refs a ha)]; exact List.count_pos_iff.mpr ha⟩

/-- A live entry has the operations of xv6fs and a slot of their table. -/
lemma RefInv.entry (h : RefInv s) (hl : Live s.cache a) : (s.cache.inode a).iops = some .xv6fs ∧
      ∃ i, (s.cache.inode a).addrs = some (.xv6fs i) ∧ (s.cache.inode a).xv6Slot = some i := by
  rcases h.cache.kind a hl.1 hl.2 with ⟨-, hi, i, hp⟩ | ⟨hd, -, -⟩
  · exact ⟨hi, i, hp, by rw [Inode.xv6Slot, if_pos hl.2, hp]⟩
  · rw [h.root a hl] at hd
    cases hd

variable {st : Cache} {refs : List Nat} {locked : Nat → Bool}

/-- One entry changes: its number stays, or no live entry has the new one.  The list of
    references is the new count of this entry, and for the others what it was. -/
lemma RefInv.of_change (h : RefInv s) (ha : a < NINODE) (hcache : CacheInv st)
    (hother : ∀ b, b ≠ a → st.inode b = s.cache.inode b)
    (hnew : 0 < (st.inode a).ref → (st.inode a).dev = ROOTDEV ∧
      ∀ b, Live s.cache b → b ≠ a → (s.cache.inode b).inum ≠ (st.inode a).inum)
    (hrefs : ∀ b ∈ refs, b = a ∨ b ∈ s.refs) (hcount : (st.inode a).ref = refs.count a)
    (hcounts : ∀ b, b ≠ a → refs.count b = s.refs.count b) : RefInv ⟨st, refs, locked⟩ := by
  have hlive : ∀ b, Live st b → b ≠ a → Live s.cache b := by
    intro b hb hba
    exact ⟨hb.1, by rw [← hother b hba]; exact hb.2⟩
  refine ⟨hcache, fun b hb => ?_, fun b c hb hc e => ?_, fun b hb => ?_, fun b hb => ?_⟩
  · by_cases hba : b = a
    · subst hba
      exact (hnew hb.2).1
    show (st.inode b).dev = ROOTDEV
    rw [hother b hba]
    exact h.root b (hlive b hb hba)
  · have e : (st.inode b).inum = (st.inode c).inum := e
    by_cases hba : b = a <;> by_cases hca : c = a
    · rw [hba, hca]
    · subst hba
      rw [hother c hca] at e
      exact absurd e.symm ((hnew hb.2).2 c (hlive c hc hca) hca)
    · subst hca
      rw [hother b hba] at e
      exact absurd e ((hnew hc.2).2 b (hlive b hb hba) hba)
    · rw [hother b hba, hother c hca] at e
      exact h.unique b c (hlive b hb hba) (hlive c hc hca) e
  · rcases hrefs b hb with rfl | hb
    · exact ha
    · exact h.refs b hb
  · show (st.inode b).ref = refs.count b
    by_cases hba : b = a
    · rwa [hba]
    · rw [hother b hba, hcounts b hba]
      exact h.count b hb

lemma RefInv.of_same (h : RefInv s) (hl : Live s.cache a) (hcache : CacheInv st)
    (hother : ∀ b, b ≠ a → st.inode b = s.cache.inode b)
    (hdev : (st.inode a).dev = (s.cache.inode a).dev)
    (hinum : (st.inode a).inum = (s.cache.inode a).inum) (hrefs : ∀ b ∈ refs, b = a ∨ b ∈ s.refs)
    (hcount : (st.inode a).ref = refs.count a)
    (hcounts : ∀ b, b ≠ a → refs.count b = s.refs.count b) : RefInv ⟨st, refs, locked⟩ := by
  refine h.of_change hl.1 hcache hother (fun _ => ⟨?_, fun b hb hba e => ?_⟩) hrefs hcount hcounts
  · rw [hdev, h.root a hl]
  · rw [hinum] at e
    exact hba (h.unique b a hb hl e)

lemma RefInv.idup (h : RefInv s) (hl : Live s.cache a) (locked : Nat → Bool) :
    RefInv ⟨Icache.idup a s.cache, a :: s.refs, locked⟩ := by
  refine h.of_same hl ?_ (fun b hba => update_of_ne hba _ _) ?_ ?_
    (fun b hb => List.mem_cons.mp hb) ?_ (fun b hba => List.count_cons_of_ne hba.symm)
  · exact h.cache.setInode hl.1 hl.2 (Nat.succ_pos _) rfl rfl rfl
  · rw [Icache.idup, setInode_self]
  · rw [Icache.idup, setInode_self]
  · rw [Icache.idup, setInode_self, List.count_cons_self, ← h.count a hl.1]

lemma RefInv.iget (h : RefInv s) {inum : Nat} (locked : Nat → Bool)
    (hr : Icache.iget ROOTDEV inum s.cache = .ok (a, st)) : RefInv ⟨st, a :: s.refs, locked⟩ := by
  have hcache : CacheInv st :=
    cacheInv_iget h.cache (.inl rfl) (fun e : ROOTDEV = EXT2DEV => nomatch e) hr
  obtain ⟨ha, ⟨hpos, -, -, rfl⟩ | ⟨hmiss, hunused, ⟨-, rfl⟩ | ⟨hne, -⟩⟩⟩ := iget_ok hr
  · exact h.idup ⟨ha, hpos⟩ locked
  · refine h.of_change ha hcache (fun b hba => ?_) (fun _ => ⟨?_, fun b hb _ e => ?_⟩)
      (fun b hb => List.mem_cons.mp hb) ?_ (fun b hba => List.count_cons_of_ne hba.symm)
    · rw [recycle_inode, update_of_ne hba]
    · rw [recycle_self]
    · -- a live entry with this number would have been found
      rw [recycle_self] at e
      have hno := of_decide_eq_false (hmiss b hb.1)
      exact hno ⟨hb.2, h.root b hb, e⟩
    · rw [recycle_self, List.count_cons_self, ← h.count a ha, hunused]
  · exact absurd rfl hne

variable {sb : Superblock} {esb : Ext2Super}

lemma RefInv.ilock (h : RefInv s) (hl : Live s.cache a) (locked : Nat → Bool)
    (hr : Icache.ilock sb esb a s.cache = .ok st) : RefInv ⟨st, s.refs, locked⟩ := by
  obtain ⟨hiops, -⟩ := h.entry hl
  rw [Icache.ilock, hiops] at hr
  have hcache := cacheInv_ilockWith h.cache hl.1 hl.2 hiops hr
  rcases ilockWith_ok hr with ⟨-, rfl⟩ | ⟨p, d, bc, hp, -, -, -, rfl⟩
  · exact ⟨h.cache, h.root, h.unique, h.refs, h.count⟩
  refine h.of_same hl hcache (fun b hba => ?_) ?_ ?_ (fun b hb => .inr hb) ?_ (fun _ _ => rfl)
  · rw [setInode_inode, setSlot_inode, setDevice_inode, update_of_ne hba]
  · rw [setInode_self]
    rfl
  · rw [setInode_self]
    rfl
  · rw [setInode_self]
    exact h.count a hl.1

lemma RefInv.iput (h : RefInv s) (hmem : a ∈ s.refs) (locked : Nat → Bool)
    (hr : Icache.iput sb esb a s.cache = .ok st) : RefInv ⟨st, s.refs.erase a, locked⟩ := by
  have hl := h.live_of_mem hmem
  obtain ⟨hiops, -⟩ := h.entry hl
  rw [Icache.iput, hiops] at hr
  have hcache := cacheInv_iputWith h.cache hl.1 hl.2 hr
  have hrefs : ∀ b ∈ s.refs.erase a, b = a ∨ b ∈ s.refs := fun b hb => .inr (List.mem_of_mem_erase hb)
  have hcount : (s.refs.erase a).count a = (s.cache.inode a).ref - 1 := by
    rw [List.count_erase_self, h.count a hl.1]
  have hcounts : ∀ b, b ≠ a → (s.refs.erase a).count b = s.refs.count b :=
    fun b hba => List.count_erase_of_ne hba
  rcases iputWith_ok hr with ⟨-, rfl⟩ | ⟨hr1, p, hp, ⟨-, rfl⟩ | ⟨d, bc, -, -, -, rfl⟩⟩
  · refine h.of_same hl hcache (fun b hba => update_of_ne hba _ _) ?_ ?_ hrefs ?_ hcounts
    · rw [setInode_self]
    · rw [setInode_self]
    · rw [setInode_self, hcount]
  · refine h.of_change hl.1 hcache (fun b hba => ?_) (fun hpos => ?_) hrefs ?_ hcounts
    · rw [setInode_inode, setSlot_inode, update_of_ne hba]
    · rw [setInode_self] at hpos
      exact absurd hpos (Nat.lt_irrefl 0)
    · rw [setInode_self, hcount, hr1]
  · refine h.of_change hl.1 hcache (fun b hba => ?_) (fun hpos => ?_) hrefs ?_ hcounts
    · rw [setInode_inode, setSlot_inode, setDevice_inode, update_of_ne hba]
    · rw [setInode_self] at hpos
      exact absurd hpos (Nat.lt_irrefl 0)
    · rw [setInode_self, hcount, hr1]

end RefInv

lemma refInv_step {sb : Superblock} {esb : Ext2Super} (s : Shared) (act : RefAct) (s' : Shared)
    (h : RefInv s) (hc : HasRef s act) (hr : refStep sb esb s act = .ok s') : RefInv s' := by
  cases act with
  | iget inum =>
    obtain ⟨⟨a, st⟩, h1, h2⟩ := bind_eq_ok.mp hr
    obtain rfl := Except.ok.inj h2
    exact h.iget s.locked h1
  | idup a =>
    obtain rfl := Except.ok.inj hr
    exact h.idup (h.live_of_mem hc) s.locked
  | ilock a =>
    rw [refStep] at hr
    split at hr
    · exact nomatch hr
    obtain ⟨st, h1, h2⟩ := bind_eq_ok.mp hr
    obtain rfl := Except.ok.inj h2
    exact h.ilock (h.live_of_mem hc) _ h1
  | iunlock a =>
    rw [refStep] at hr
    split at hr
    · exact nomatch hr
    · obtain rfl := Except.ok.inj hr
      exact ⟨h.cache, h.root, h.unique, h.refs, h.count⟩
  | iput a =>
    rw [refStep] at hr
    split at hr
    · exact nomatch hr
    obtain ⟨st, h1, h2⟩ := bind_eq_ok.mp hr
    obtain rfl := Except.ok.inj h2
    exact h.iput hc s.locked h1

/-! ## What follows -/

lemma RefInv.slotsExclusive {s : Shared} (h : RefInv s) : Xv6SlotsExclusive s.cache := by
  refine ⟨fun a b ha hb hab e => ?_, fun a ha => ?_, fun i hi => ?_⟩
  · obtain ⟨-, i, hi, hsi⟩ := h.entry ha
    obtain ⟨-, j, hj, hsj⟩ := h.entry hb
    obtain rfl : i = j := by
      rw [hi, hj] at e
      exact AddrPtr.xv6fs.inj (Option.some.inj e)
    exact hab (h.cache.xv6.inj a ha.1 b hb.1 i hsi hsj)
  · obtain ⟨-, i, hi, hsi⟩ := h.entry ha
    exact ⟨i, h.cache.xv6.slot_lt a ha.1 i hsi, hi⟩
  · rw [show (s.cache.xv6fsAddrs i).busy = (AddrSlot.busy ∘ s.cache.xv6fsAddrs) i from rfl,
      h.cache.xv6.busy_iff hi]
    constructor
    · rintro ⟨a, ha, hown⟩
      have hown : (s.cache.inode a).xv6Slot = some i := hown
      have hl : Live s.cache a := by
        refine ⟨ha, ?_⟩
        by_contra h0
        rw [xv6Slot_of_unused (Nat.eq_zero_of_not_pos h0)] at hown
        exact nomatch hown
      obtain ⟨-, j, hj, hsj⟩ := h.entry hl
      rw [hown] at hsj
      exact ⟨a, hl, by rw [hj, Option.some.inj hsj]⟩
    · rintro ⟨a, hl, hp⟩
      obtain ⟨-, j, hj, hsj⟩ := h.entry hl
      rw [hp] at hj
      exact ⟨a, hl.1, by rw [AddrPtr.xv6fs.inj (Option.some.inj hj)]; exact hsj⟩

lemma iget_error {dev inum : Nat} {st : Cache} {e : Err} (h : iget dev inum st = .error e) :
    e = .panic "iget: no inodes" ∧ ∀ a < NINODE, Live st a := by
  rw [iget] at h
  cases hc : firstFrom (fun a => (st.inode a).is dev inum) NINODE 0 with
  | some b => rw [hc] at h; cases h
  | none =>
    rw [hc] at h
    cases he : firstFrom (fun a => decide ((st.inode a).ref = 0)) NINODE 0 with
    | none =>
      rw [he] at h
      refine ⟨(Except.error.inj h).symm, fun a ha => ⟨ha, ?_⟩⟩
      have := of_decide_eq_false (firstFrom_none he a (Nat.zero_le a) (by omega))
      exact Nat.pos_of_ne_zero this
    | some b =>
      rw [he] at h
      by_cases hd : dev = ROOTDEV
      · simp only [if_pos hd] at h
        cases h
      · simp only [if_neg hd] at h
        cases h

def bootShared (root ext2 : Bcache) : Shared := ⟨bootCache root ext2, [], fun _ => false⟩

lemma bootShared_inv (root ext2 : Bcache) : RefInv (bootShared root ext2) :=
  ⟨bootCache_inv root ext2, fun _ h => absurd h.2 (Nat.lt_irrefl 0),
    fun _ _ h _ _ => absurd h.2 (Nat.lt_irrefl 0), fun _ h => absurd h List.not_mem_nil,
    fun _ _ => rfl⟩

/-- **Main result.**  In every state of every run no inode has two live entries, an entry's count is
    the number of its references that are out, the live entries own different slots of the table,
    whose flags say so, and `iget` stops only when all entries are live. -/
theorem references_counted (sb : Superblock) (esb : Ext2Super) (root ext2 : Bcache)
    (acts : List RefAct) (s : Shared)
    (hacts : AllSteps (refStep sb esb) HasRef acts (bootShared root ext2))
    (hrun : exec (refStep sb esb) acts (bootShared root ext2) = .ok s) :
    (∀ a b, Live s.cache a → Live s.cache b → (s.cache.inode a).dev = (s.cache.inode b).dev →
      (s.cache.inode a).inum = (s.cache.inode b).inum → a = b) ∧
    (∀ a < NINODE, (s.cache.inode a).ref = s.refs.count a) ∧ Xv6SlotsExclusive s.cache ∧
    (∀ inum e, iget ROOTDEV inum s.cache = .error e → ∀ a < NINODE, Live s.cache a) := by
  have h : RefInv s := exec_invariant refInv_step acts _ s (bootShared_inv root ext2) hacts hrun
  exact ⟨fun a b ha hb _ => h.unique a b ha hb, h.count, h.slotsExclusive,
    fun inum e he => (iget_error he).2⟩

/-- A root device whose inode 1 is a file without links. -/
def unlinkedDevice : Bcache := ⟨fun b o => if b = 32 ∧ o = 64 then 2 else 0, fun _ => none⟩

/-- The unlinked inode is referenced twice, locked, and freed with its last reference;
    meanwhile another inode is fetched. -/
def freeUnlinked : List RefAct :=
  [.iget 1, .idup 0, .ilock 0, .iunlock 0, .iput 0, .iget 7, .iput 0]

theorem references_counted_freeUnlinked :
    ∃ s, exec (refStep rootSuper Ext2Layout.smallSuper) freeUnlinked
        (bootShared unlinkedDevice blankDevice) = .ok s ∧
      s.refs = [1] ∧ (s.cache.inode 0).ref = s.refs.count 0 ∧ Xv6SlotsExclusive s.cache := by
  have hok : (exec (refStep rootSuper Ext2Layout.smallSuper) freeUnlinked
      (bootShared unlinkedDevice blankDevice)).map Shared.refs = .ok [1] := by decide +kernel
  cases hr : exec (refStep rootSuper Ext2Layout.smallSuper) freeUnlinked
      (bootShared unlinkedDevice blankDevice) with
  | error e => rw [hr] at hok; exact nomatch hok
  | ok s =>
    rw [hr] at hok
    obtain ⟨-, hcount, hslots, -⟩ := references_counted rootSuper Ext2Layout.smallSuper
      unlinkedDevice blankDevice freeUnlinked s (by decide +kernel) hr
    exact ⟨s, rfl, Except.ok.inj hok, hcount 0 (by decide), hslots⟩

end Icache
