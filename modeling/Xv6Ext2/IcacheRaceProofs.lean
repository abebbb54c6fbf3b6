import Xv6Ext2.IcacheRefsProofs

/-! # Interleavings of iput with other calls (fs.c, ext2fs.c)

    Several processes execute `ialloc`, `iget`, `ilock`, `iunlock` and `iput` of both file systems.
    A step is the code of one process between two lock operations or buffer accesses; what runs
    under `icache.lock` is one step.

    `iput` of the last reference to an unlinked inode frees the inode on disk, clears
    `ip->iops` and `ip->addrs`, releases the sleep-lock, and only then drops the
    reference.  In between the entry can still be found by `iget`, and `ialloc` of
    another process may hand out the very inode that was freed.

    - `iput_alone` : a call that no other process interrupts does what `Icache.iput` says;
    - `pointers_of_holders` : while no process fetches an inode that another one is
      freeing, every entry that a process may use has its pointers;
    - `ialloc_finds_cleared_entry` : a run in which this fails. -/

namespace IcacheRace

open ByteBlock BufCache Param Outcome Runs FileIo SlotTable Xv6Alloc Xv6Inode Ext2Alloc Ext2Inode
  Icache

open Except (ok.inj)

open Option (some.inj)

open Function (update update_apply update_eq_self update_idem update_of_ne update_self)

/-- Where a process is; `ad` is the local variable of `iput`. -/
inductive Pc where
  | idle
  | locking (f : Iops) (a : Nat)
  | loading (f : Iops) (a : Nat)
  | putting (f : Iops) (a : Nat)
  | checking (f : Iops) (a : Nat) (ad : Option AddrPtr)
  | ifreeing (a : Nat) (ad : Option AddrPtr) (n : Nat)
  | truncating (f : Iops) (a : Nat) (ad : Option AddrPtr) (n : Nat)
  | updating (f : Iops) (a : Nat) (ad : Option AddrPtr)
  | clearing (a : Nat) (ad : Option AddrPtr)
  | unlocking (a : Nat) (ad : Option AddrPtr) (freed : Bool)
  | dropping (a : Nat) (ad : Option AddrPtr) (freed : Bool)
  | allocating (f : Iops) (type i : Nat)
  | getting (f : Iops) (inum : Nat)
  deriving DecidableEq

/-- The cache, the holder of each sleep-lock, where each process is, and the references
    that are out with the process that has them. -/
structure State where
  st   : Cache
  lock : Nat → Option Nat
  pc   : Nat → Pc
  refs : List (Nat × Nat)

def State.goto (s : State) (p : Nat) (c : Pc) : State := { s with pc := update s.pc p c }

/-- A step of process `p`, or the start of a call by it.  The `n` of `run` is the number
    of buffer accesses of an `itrunc` that the step begins. -/
inductive Act where
  | iget (p dev inum : Nat)
  | idup (p a : Nat)
  | ilock (p a : Nat)
  | iunlock (p a : Nat)
  | iput (p a : Nat)
  | ialloc (p : Nat) (f : Iops) (type : Nat)
  | run (p n : Nat)

def Act.pid : Act → Nat
  | .iget p _ _ | .idup p _ | .ilock p _ | .iunlock p _ | .iput p _ | .ialloc p _ _ | .run p _ => p

def devOf : Iops → Nat
  | .xv6fs => ROOTDEV
  | .ext2fs => EXT2DEV

section Step

variable (sb : Superblock) (esb : Ext2Super)

def iread : Iops → Nat → Bcache → Except Err (Dinode × Bcache)
  | .xv6fs => xv6fsIread sb
  | .ext2fs => ext2fsIread esb

def itrunc : Iops → Nat → Dinode → Bcache → Except Err (Dinode × Bcache)
  | .xv6fs => xv6fsItrunc sb
  | .ext2fs => ext2fsItrunc esb

def iupdate : Iops → Nat → Dinode → Bcache → Except Err Bcache
  | .xv6fs => xv6fsIupdate sb
  | .ext2fs => ext2fsIupdate esb

/-- `ilock`, holding the sleep-lock of an entry that is not valid. -/
def load (f : Iops) (a : Nat) (st : Cache) : Except Err Cache :=
  match (st.inode a).addrs with
  | none => .error .wild
  | some q => do
      let (d, bc) ← iread sb esb f (st.inode a).inum (st.device f)
      if d.type = 0 then .error (.panic (noType f))
      else .ok (((st.setDevice f bc).setSlot q { st.slot q with addrs := d.addrs }).setInode a
        { (st.inode a).load d with iops := some f, valid := true })

def truncate (f : Iops) (a : Nat) (st : Cache) : Except Err Cache :=
  match (st.inode a).addrs with
  | none => .error .wild
  | some q => do
      let (d, bc) ← itrunc sb esb f (st.inode a).inum ((st.inode a).copy (st.slot q).addrs)
        (st.device f)
      .ok (((st.setDevice f bc).setSlot q { st.slot q with addrs := d.addrs }).setInode a
        ((st.inode a).load d))

/-- `ip->type = 0; ip->iops->iupdate(ip)`. -/
def markFree (a : Nat) (st : Cache) : Except Err Cache :=
  match (st.inode a).iops, (st.inode a).addrs with
  | some f, some q => do
      let bc ← iupdate sb esb f (st.inode a).inum
        { (st.inode a).copy (st.slot q).addrs with type := 0 } (st.device f)
      .ok ((st.setDevice f bc).setInode a { st.inode a with type := 0 })
  | _, _ => .error .wild

/-- `ip->valid = 0; ip->iops = 0; ip->addrs = 0`. -/
def clear (a : Nat) (st : Cache) : Cache :=
  st.setInode a { st.inode a with valid := false, iops := none, addrs := none }

/-- `ialloc` looks at inode `i`, or at group `i` on the ext2 device. -/
def allocTurn (type i : Nat) (st : Cache) : Iops → Except Err (Option Nat × Cache)
  | .xv6fs =>
    if i < sb.ninodes then do
      let (d, bc) ← bread [] (IBLOCK i sb) st.root
      if (getDinode d (i % IPB * 64)).type = 0 then
        let d := blit d (i % IPB * 64) 64 (fun _ => 0)
        let d := putLE d 2 (i % IPB * 64) type
        .ok (some i, st.setDevice .xv6fs (logWrite (IBLOCK i sb) d bc))
      else .ok (none, st.setDevice .xv6fs bc)
    else .error (.panic "ialloc: no inodes")
  | .ext2fs =>
    if i ≤ esb.sBlocksCount / esb.sBlocksPerGroup then do
      checkDiv esb.sBlocksPerGroup
      let (inum, bc) ← iallocGroup esb type i st.ext2
      .ok (inum, st.setDevice .ext2fs bc)
    else .error (.panic "ext2_ialloc: no inodes")

/-- Process `p` takes its next step.  A step that has to wait for a sleep-lock is not
    taken in this state. -/
def runStep (p n : Nat) (s : State) : Except Err State :=
  match s.pc p with
  | .idle => .error .deadlock
  | .locking f a =>
    if s.lock a ≠ none then .error .deadlock
    else .ok ({ s with lock := update s.lock a (some p) }.goto p
      (if (s.st.inode a).valid then .idle else .loading f a))
  | .loading f a => do
      let st ← load sb esb f a s.st
      .ok ({ s with st := st }.goto p .idle)
  | .putting f a =>
    if s.lock a ≠ none then .error .deadlock
    else .ok ({ s with lock := update s.lock a (some p) }.goto p
      (if (s.st.inode a).valid ∧ (s.st.inode a).nlink = 0 then
        .checking f a (s.st.inode a).addrs
      else .unlocking a (s.st.inode a).addrs false))
  | .checking f a ad =>
    .ok (s.goto p (if (s.st.inode a).ref = 1 then
        match f with
        | .xv6fs => .truncating .xv6fs a ad n
        | .ext2fs => .ifreeing a ad n
      else .unlocking a ad false))
  | .ifreeing a ad n => do
      let bc ← ext2fsIfree esb (s.st.inode a).inum s.st.ext2
      .ok ({ s with st := s.st.setDevice .ext2fs bc }.goto p (.truncating .ext2fs a ad n))
  | .truncating f a ad (n + 1) => .ok (s.goto p (.truncating f a ad n))
  | .truncating f a ad 0 => do
      let st ← truncate sb esb f a s.st
      .ok ({ s with st := st }.goto p (.updating f a ad))
  | .updating _ a ad => do
      let st ← markFree sb esb a s.st
      .ok ({ s with st := st }.goto p (.clearing a ad))
  | .clearing a ad => .ok ({ s with st := clear a s.st }.goto p (.unlocking a ad true))
  | .unlocking a ad freed =>
    .ok ({ s with lock := update s.lock a none }.goto p (.dropping a ad freed))
  | .dropping a ad _ => do
      let st ← dropRef ad a s.st
      .ok ({ s with st := st, refs := s.refs.erase (p, a) }.goto p .idle)
  | .allocating f type i => do
      let (inum, st) ← allocTurn sb esb type i s.st f
      .ok ({ s with st := st }.goto p (match inum with
        | some inum => .getting f inum
        | none => .allocating f type (i + 1)))
  | .getting f inum => do
      let (a, st) ← iget (devOf f) inum s.st
      .ok ({ s with st := st, refs := (p, a) :: s.refs }.goto p .idle)

/-- A process that is in no call starts one; `ip->iops` is read at the call. -/
def callStep (s : State) : Act → Except Err State
  | .iget p dev inum => do
      let (a, st) ← iget dev inum s.st
      .ok { s with st := st, refs := (p, a) :: s.refs }
  | .idup p a => .ok { s with st := idup a s.st, refs := (p, a) :: s.refs }
  | .ilock p a =>
    match (s.st.inode a).iops with
    | none => .error .wild
    | some f =>
      if (s.st.inode a).ref < 1 then .error (.panic (noRef f))
      else .ok (s.goto p (.locking f a))
  | .iunlock p a =>
    match (s.st.inode a).iops with
    | none => .error .wild
    | some f =>
      if s.lock a ≠ some p ∨ (s.st.inode a).ref < 1 then .error (.panic (notHeld f))
      else .ok { s with lock := update s.lock a none }
  | .iput p a =>
    match (s.st.inode a).iops with
    | none => .error .wild
    | some f => .ok (s.goto p (.putting f a))
  | .ialloc p f type =>
    .ok (s.goto p (.allocating f type (match f with | .xv6fs => 1 | .ext2fs => 0)))
  | .run _ _ => .ok s

def step (s : State) (act : Act) : Except Err State :=
  match act with
  | .run p n => runStep sb esb p n s
  | act => if s.pc act.pid ≠ .idle then .error .deadlock else callStep s act

end Step

/-! ## A call without interruption -/

section Alone

variable {sb : Superblock} {esb : Ext2Super} {p : Nat}

/-- Process `p` gets from `s` to `s'` by steps of its own. -/
def Alone (sb : Superblock) (esb : Ext2Super) (p : Nat) (s s' : State) : Prop :=
  ∃ k, exec (step sb esb) (List.replicate k (.run p 0)) s = .ok s'

lemma Alone.refl (s : State) : Alone sb esb p s s := ⟨0, rfl⟩

lemma Alone.step {s s1 s' : State} (h : runStep sb esb p 0 s = .ok s1)
    (h' : Alone sb esb p s1 s') : Alone sb esb p s s' := by
  obtain ⟨k, hk⟩ := h'
  refine ⟨k + 1, ?_⟩
  rw [List.replicate_succ, exec]
  show runStep sb esb p 0 s >>= _ = _
  rwa [h]

variable {s s' : State} {st st1 st' : Cache} {c c1 : Pc} {a : Nat}

/-- Process `p` at `c`, with the cache `st`. -/
def State.here (s : State) (p : Nat) (st : Cache) (c : Pc) : State := { s with st := st }.goto p c

lemma here_pc (s : State) (p : Nat) (st : Cache) (c : Pc) : (s.here p st c).pc p = c :=
  update_self ..

/-- A step that changes the cache and goes on. -/
lemma Alone.next (h : runStep sb esb p 0 (s.here p st c)
      = .ok ({ s.here p st c with st := st1 }.goto p c1))
    (h' : Alone sb esb p (s.here p st1 c1) s') : Alone sb esb p (s.here p st c) s' := by
  refine Alone.step h ?_
  simpa only [State.here, State.goto, update_idem] using h'

/-- The state at the end of `iput`. -/
def State.put (s : State) (p a : Nat) (st : Cache) : State :=
  { s with lock := update s.lock a none, refs := s.refs.erase (p, a) }.here p st .idle

/-- The last two steps of `iput`. -/
lemma alone_unlocking {ad : Option AddrPtr} {freed : Bool} (hr : dropRef ad a st = .ok st') :
    Alone sb esb p (s.here p st (.unlocking a ad freed)) (s.put p a st') := by
  refine .step (by rw [runStep, here_pc]) (.step ?_ (.refl _))
  simp only [runStep, State.here, State.goto, State.put, update_self, update_idem, hr]
  rfl

variable {f : Iops} {q : AddrPtr}

/-- `itrunc`, `iupdate` and the stores to the entry, one after the other. -/
lemma freed_entry {d : Dinode} {bc bc' : Bcache} (hf : (st.inode a).iops = some f)
    (hq : (st.inode a).addrs = some q)
    (ht : itrunc sb esb f (st.inode a).inum ((st.inode a).copy (st.slot q).addrs) (st.device f)
      = .ok (d, bc)) (hu : iupdate sb esb f (st.inode a).inum { d with type := 0 } bc = .ok bc') :
    ∃ st1, truncate sb esb f a st = .ok st1 ∧ (markFree sb esb a st1).map (clear a)
      = .ok (((st.setDevice f bc').setSlot q { st.slot q with addrs := d.addrs }).setInode a
        { (st.inode a).load { d with type := 0 } with
          valid := false, iops := none, addrs := none }) := by
  refine ⟨_, by rw [truncate, hq]; dsimp only; rw [ht]; rfl, ?_⟩
  have hdev : ∀ v ip, (((st.setDevice f bc).setSlot q v).setInode a ip).device f = bc := by
    cases f <;> cases q <;> exact fun _ _ => rfl
  rw [markFree, setInode_self, show ((st.inode a).load d).iops = _ from hf,
    show ((st.inode a).load d).addrs = _ from hq]
  dsimp only
  rw [setInode_slot, setSlot_slot_self, hdev]
  erw [hu]
  rw [ok_bind]
  cases f <;> cases q <;>
    simp only [Except.map, clear, Cache.setInode, Cache.setSlot, Cache.setDevice, update_self,
      update_idem, Inode.load]

/-- What `iput` does to the last reference of an unlinked inode. -/
def freeInode (sb : Superblock) (esb : Ext2Super) :
    Iops → Nat → Dinode → Bcache → Except Err (Dinode × Bcache)
  | .xv6fs => xv6fsFree sb
  | .ext2fs => ext2fsFree esb

lemma alone_truncating {ad : Option AddrPtr} {st2 : Cache} (ht : truncate sb esb f a st = .ok st1)
    (hm : (markFree sb esb a st1).map (clear a) = .ok st2) (hr : dropRef ad a st2 = .ok st') :
    Alone sb esb p (s.here p st (.truncating f a ad 0)) (s.put p a st') := by
  obtain ⟨st3, hfree, rfl⟩ := exists_ok_of_map hm
  exact .next (by rw [runStep, here_pc]; exact bind_eq_ok.mpr ⟨_, ht, rfl⟩)
    (.next (by rw [runStep, here_pc]; exact bind_eq_ok.mpr ⟨_, hfree, rfl⟩)
      (.next (by rw [runStep, here_pc]; rfl) (alone_unlocking hr)))

lemma run_checking {ad : Option AddrPtr} : runStep sb esb p 0 (s.here p st (.checking f a ad))
    = .ok ({ s.here p st (.checking f a ad) with st := st }.goto p (if (st.inode a).ref = 1 then
        match f with
        | .xv6fs => .truncating .xv6fs a ad 0
        | .ext2fs => .ifreeing a ad 0
      else .unlocking a ad false)) := by
  rw [runStep, here_pc]
  rfl

lemma alone_checking (hf : (st.inode a).iops = some f)
    (hc : (st.inode a).valid = true ∧ (st.inode a).nlink = 0 ∧ (st.inode a).ref = 1)
    (hr : iputWith f (freeInode sb esb f) a st = .ok st') :
    Alone sb esb p (s.here p st (.checking f a (st.inode a).addrs)) (s.put p a st') := by
  refine .next run_checking ?_
  rw [iputWith] at hr
  simp only [if_pos hc] at hr
  rw [if_pos hc.2.2]
  cases hq : (st.inode a).addrs with
  | none => rw [hq] at hr; cases hr
  | some q =>
    rw [hq] at hr
    obtain ⟨⟨d, bc⟩, hfree, hr⟩ := bind_eq_ok.mp hr
    cases f with
    | xv6fs =>
      obtain ⟨⟨d1, bc1⟩, ht, h2⟩ := bind_eq_ok.mp hfree
      obtain ⟨bc2, hu, h3⟩ := bind_eq_ok.mp h2
      obtain ⟨rfl, rfl⟩ := ok_pair_inj h3
      obtain ⟨st1, ht, hm⟩ := freed_entry hf hq (show itrunc sb esb .xv6fs _ _ _ = _ from ht) hu
      exact alone_truncating ht hm hr
    | ext2fs =>
      obtain ⟨bc0, hi, h2⟩ := bind_eq_ok.mp hfree
      obtain ⟨⟨d1, bc1⟩, ht, h3⟩ := bind_eq_ok.mp h2
      obtain ⟨bc2, hu, h4⟩ := bind_eq_ok.mp h3
      obtain ⟨rfl, rfl⟩ := ok_pair_inj h4
      obtain ⟨st1, ht, hm⟩ := freed_entry (show ((st.setDevice .ext2fs bc0).inode a).iops = _ from hf)
        hq (by rw [setDevice_slot]; show itrunc sb esb .ext2fs _ _ _ = _; exact ht) hu
      exact .next (by rw [runStep, here_pc]; exact bind_eq_ok.mpr ⟨_, hi, rfl⟩)
        (alone_truncating ht hm hr)

/-- From the sleep-lock on. -/
lemma alone_putting (hf : (st.inode a).iops = some f) (hlock : s.lock a = none)
    (hr : iputWith f (freeInode sb esb f) a st = .ok st') :
    Alone sb esb p (s.here p st (.putting f a)) (s.put p a st') := by
  have hfirst : runStep sb esb p 0 (s.here p st (.putting f a))
      = .ok ({ s with lock := update s.lock a (some p) }.here p st
        (if (st.inode a).valid = true ∧ (st.inode a).nlink = 0 then
          .checking f a (st.inode a).addrs else .unlocking a (st.inode a).addrs false)) := by
    simp only [runStep, State.here, State.goto, update_self, update_idem]
    rw [if_neg (not_not.mpr hlock)]
    rfl
  -- the lock is given back
  have hput : State.put { s with lock := update s.lock a (some p) } p a st' = s.put p a st' := by
    simp only [State.put, update_idem]
  refine .step hfirst ?_
  rw [← hput]
  by_cases hc : (st.inode a).valid = true ∧ (st.inode a).nlink = 0 ∧ (st.inode a).ref = 1
  · rw [if_pos ⟨hc.1, hc.2.1⟩]
    exact alone_checking hf hc hr
  rw [iputWith] at hr
  simp only [if_neg hc] at hr
  split
  · next hvn =>
    refine .next run_checking ?_
    rw [if_neg (fun h1 => hc ⟨hvn.1, hvn.2, h1⟩)]
    exact alone_unlocking hr
  · exact alone_unlocking hr

/-- A call of `iput` that is not interrupted is the call of the sequential model. -/
theorem iput_alone {s : State} (hidle : s.pc p = .idle) (hlock : s.lock a = none)
    (hr : Icache.iput sb esb a s.st = .ok st') :
    ∃ k, exec (step sb esb) (.iput p a :: List.replicate k (.run p 0)) s
      = .ok { s with st := st', refs := s.refs.erase (p, a) } := by
  rw [Icache.iput] at hr
  cases hf : (s.st.inode a).iops with
  | none => rw [hf] at hr; cases hr
  | some f =>
    rw [hf] at hr
    have hput : iputWith f (freeInode sb esb f) a s.st = .ok st' := by
      cases f with
      | xv6fs => exact hr
      | ext2fs => exact hr
    obtain ⟨k, hk⟩ : Alone sb esb p (s.here p s.st (.putting f a)) _ := alone_putting hf hlock hput
    refine ⟨k, ?_⟩
    have hcall : step sb esb s (.iput p a) = .ok (s.here p s.st (.putting f a)) := by
      show (if s.pc p ≠ .idle then _ else callStep s (.iput p a)) = _
      rw [if_neg (not_not.mpr hidle), callStep, hf]
      rfl
    rw [exec, hcall, ok_bind, hk, State.put, State.here, State.goto]
    simp only [← hidle, ← hlock, update_eq_self]

end Alone

/-! ## What the calls are doing to an entry -/

def Pc.entry : Pc → Option Nat
  | .idle | .allocating _ _ _ | .getting _ _ => none
  | .locking _ a | .loading _ a | .putting _ a | .checking _ a _ | .ifreeing a _ _
  | .truncating _ a _ _ | .updating _ a _ | .clearing a _ | .unlocking a _ _
  | .dropping a _ _ => some a

/-- `iput` has found `r == 1`, and has not dropped the reference yet. -/
def Pc.frees : Pc → Bool
  | .ifreeing _ _ _ | .truncating _ _ _ _ | .updating _ _ _ | .clearing _ _ => true
  | .unlocking _ _ freed | .dropping _ _ freed => freed
  | _ => false

/-- `iput` has cleared the entry. -/
def Pc.cleared : Pc → Bool
  | .unlocking _ _ freed | .dropping _ _ freed => freed
  | _ => false

/-- `iput` does not use the pointers of the entry any more. -/
def Pc.past : Pc → Bool
  | .unlocking _ _ _ | .dropping _ _ _ => true
  | _ => false

lemma Pc.past_of_cleared {c : Pc} (h : c.cleared = true) : c.past = true := by
  cases c <;> first | rfl | exact nomatch h

lemma Pc.frees_of_cleared {c : Pc} (h : c.cleared = true) : c.frees = true := by
  cases c <;> first | exact h | exact nomatch h

/-- Process `p` has a reference to entry `a`, and may follow its pointers. -/
def MayUse (s : State) (p a : Nat) : Prop :=
  (p, a) ∈ s.refs ∧ ¬((s.pc p).entry = some a ∧ (s.pc p).past = true)

/-- The caller has a reference to the entry it passes. -/
def HasRef (s : State) : Act → Prop
  | .iget _ dev _ => dev = ROOTDEV ∨ dev = EXT2DEV
  | .idup p a | .ilock p a | .iunlock p a | .iput p a => (p, a) ∈ s.refs
  | .ialloc _ _ _ | .run _ _ => True

/-- No process is freeing the inode. -/
def NotFreeing (s : State) (dev inum : Nat) : Prop :=
  ∀ r ∈ s.refs, (s.pc r.1).entry = some r.2 → (s.pc r.1).frees = true →
    (s.st.inode r.2).is dev inum = false

/-- An inode is fetched only while no process is freeing it. -/
def Quiet (s : State) : Act → Prop
  | .iget _ dev inum => NotFreeing s dev inum
  | .run p _ =>
    match s.pc p with
    | .getting f inum => NotFreeing s (devOf f) inum
    | _ => True
  | _ => True

instance (s : State) : (act : Act) → Decidable (HasRef s act)
  | .iget _ _ _ => inferInstanceAs (Decidable (_ ∨ _))
  | .idup _ _ | .ilock _ _ | .iunlock _ _ | .iput _ _ => inferInstanceAs (Decidable (_ ∈ _))
  | .ialloc _ _ _ | .run _ _ => isTrue trivial

instance (s : State) (dev inum : Nat) : Decidable (NotFreeing s dev inum) :=
  inferInstanceAs (Decidable (∀ r ∈ s.refs, _))

instance (s : State) : (act : Act) → Decidable (Quiet s act)
  | .iget _ dev inum => inferInstanceAs (Decidable (NotFreeing s dev inum))
  | .run p n =>
    match h : s.pc p with
    | .getting f inum =>
      decidable_of_iff (NotFreeing s (devOf f) inum) (by rw [Quiet, h])
    | .idle | .locking _ _ | .loading _ _ | .putting _ _ | .checking _ _ _ | .ifreeing _ _ _
    | .truncating _ _ _ _ | .updating _ _ _ | .clearing _ _ | .unlocking _ _ _
    | .dropping _ _ _ | .allocating _ _ _ => isTrue (by rw [Quiet, h]; trivial)
  | .idup _ _ | .ilock _ _ | .iunlock _ _ | .iput _ _ | .ialloc _ _ _ => isTrue trivial

/-! ## The invariant -/

def refCount (refs : List (Nat × Nat)) (a : Nat) : Nat := (refs.map Prod.snd).count a

structure Inv (s : State) : Prop where
  lt    : ∀ r ∈ s.refs, r.2 < NINODE
  count : ∀ a < NINODE, (s.st.inode a).ref = refCount s.refs a
  has   : ∀ p a, (s.pc p).entry = some a → (p, a) ∈ s.refs
  last  : ∀ p a, (s.pc p).entry = some a → (s.pc p).frees = true → (s.st.inode a).ref = 1
  ptrs  : ∀ a < NINODE, 0 < (s.st.inode a).ref →
    ((s.st.inode a).iops ≠ none ∧ (s.st.inode a).addrs ≠ none) ∨
    ∃ p, (s.pc p).entry = some a ∧ (s.pc p).cleared = true

variable {refs : List (Nat × Nat)} {p a : Nat}

lemma refCount_pos (h : (p, a) ∈ refs) : 0 < refCount refs a :=
  List.count_pos_iff.mpr (List.mem_map.mpr ⟨(p, a), h, rfl⟩)

/-- The last reference has one holder. -/
lemma holder_unique {q : Nat} (h : refCount refs a = 1)
    (hp : (p, a) ∈ refs) (hq : (q, a) ∈ refs) : p = q := by
  induction refs with
  | nil => exact absurd hp List.not_mem_nil
  | cons r refs ih =>
    unfold refCount at h
    rw [List.map_cons] at h
    by_cases hr : r.2 = a
    · rw [← hr, List.count_cons_self, Nat.add_eq_right] at h
      have hno : ∀ u, (u, a) ∈ refs → False := by
        intro u hu
        have := refCount_pos hu
        rw [← hr, refCount, h] at this
        exact Nat.lt_irrefl 0 this
      rcases List.mem_cons.mp hp with hp | hp
      · rcases List.mem_cons.mp hq with hq | hq
        · exact congrArg Prod.fst (hp.trans hq.symm)
        · exact (hno q hq).elim
      · exact (hno p hp).elim
    · rw [List.count_cons_of_ne hr] at h
      refine ih h ?_ ?_
      · exact (List.mem_cons.mp hp).resolve_left (fun e => hr (by rw [← e]))
      · exact (List.mem_cons.mp hq).resolve_left (fun e => hr (by rw [← e]))

section Inv

variable {s : State}

variable {p a : Nat}

lemma Inv.sole_holder (h : Inv s) {q : Nat} (hp : (s.pc p).entry = some a)
    (hf : (s.pc p).frees = true) (hq : (q, a) ∈ s.refs) : q = p := by
  have h1 := h.last p a hp hf
  rw [h.count a (h.lt _ hq)] at h1
  exact holder_unique h1 hq (h.has p a hp)

lemma Inv.safe (h : Inv s) (hu : MayUse s p a) :
    (s.st.inode a).iops ≠ none ∧ (s.st.inode a).addrs ≠ none := by
  have ha := h.lt _ hu.1
  have hpos : 0 < (s.st.inode a).ref := by
    rw [h.count a ha]
    exact refCount_pos hu.1
  rcases h.ptrs a ha hpos with hok | ⟨q, hq, hc⟩
  · exact hok
  · obtain rfl := h.sole_holder hq (Pc.frees_of_cleared hc) hu.1
    exact absurd ⟨hq, Pc.past_of_cleared hc⟩ hu.2

variable {c : Pc} {st : Cache}

/-- A step of `p` within its call: references stay, and no pointer is cleared. -/
lemma Inv.advance (h : Inv s) {lock : Nat → Option Nat}
    (href : ∀ b, (st.inode b).ref = (s.st.inode b).ref)
    (hptr : ∀ b, (s.st.inode b).iops ≠ none ∧ (s.st.inode b).addrs ≠ none →
      (st.inode b).iops ≠ none ∧ (st.inode b).addrs ≠ none)
    (hentry : ∀ a, c.entry = some a → (p, a) ∈ s.refs)
    (hfrees : ∀ a, c.entry = some a → c.frees = true → (s.st.inode a).ref = 1)
    (hcleared : ∀ a, (s.pc p).entry = some a → (s.pc p).cleared = true →
      c.entry = some a ∧ c.cleared = true) : Inv (State.goto ⟨st, lock, s.pc, s.refs⟩ p c) := by
  obtain ⟨hlt, hcount, hhas, hlast, hptrs⟩ := h
  refine ⟨hlt, fun a ha => (href a).trans (hcount a ha), ?_, ?_, fun a ha hpos => ?_⟩ <;>
    simp only [State.goto, update_apply] at *
  · grind
  · grind
  · rcases hptrs a ha (href a ▸ hpos) with hok | ⟨q, hq, hc⟩
    · exact .inl (hptr a hok)
    · exact .inr ⟨q, by grind⟩

/-- Process `p` gets a reference to an entry with pointers that nobody is freeing. -/
lemma Inv.gain (h : Inv s) (ha : a < NINODE) (hother : ∀ b, b ≠ a → st.inode b = s.st.inode b)
    (href : (st.inode a).ref = (s.st.inode a).ref + 1)
    (hptr : (st.inode a).iops ≠ none ∧ (st.inode a).addrs ≠ none)
    (hquiet : ∀ q, (s.pc q).entry = some a → (s.pc q).frees = false) (hc : c.entry = none)
    (hcleared : (s.pc p).cleared = false) :
    Inv (State.goto ⟨st, s.lock, s.pc, (p, a) :: s.refs⟩ p c) := by
  obtain ⟨hlt, hcount, hhas, hlast, hptrs⟩ := h
  refine ⟨?_, fun b hb => ?_, ?_, ?_, fun b hb hpos => ?_⟩ <;>
    simp only [State.goto, update_apply] at *
  · grind
  · rw [refCount, List.map_cons, List.count_cons]
    by_cases hba : b = a
    · rw [hba, href, hcount a ha, refCount]
      simp
    · rw [hother b hba, hcount b hb, refCount]
      simp [Ne.symm hba]
  · grind
  · grind
  · by_cases hba : b = a
    · exact .inl (hba ▸ hptr)
    · rw [hother b hba] at hpos ⊢
      rcases hptrs b hb hpos with hok | ⟨q, hq, hcl⟩
      · exact .inl hok
      · exact .inr ⟨q, by grind⟩

variable {ad : Option AddrPtr}

lemma Inv.clear (h : Inv s) (hp : s.pc p = .clearing a ad) :
    Inv (State.goto ⟨IcacheRace.clear a s.st, s.lock, s.pc, s.refs⟩ p (.unlocking a ad true)) := by
  have hentry : (s.pc p).entry = some a := by rw [hp]; rfl
  have hfirst : (s.st.inode a).ref = 1 := h.last p a hentry (by rw [hp]; rfl)
  have hother : ∀ b, b ≠ a → (IcacheRace.clear a s.st).inode b = s.st.inode b := fun b hba => by
    rw [IcacheRace.clear, setInode_inode, update_of_ne hba]
  have href : ∀ b, ((IcacheRace.clear a s.st).inode b).ref = (s.st.inode b).ref := by
    intro b
    by_cases hba : b = a
    · rw [hba, IcacheRace.clear, setInode_self]
    · rw [hother b hba]
  obtain ⟨hlt, hcount, hhas, hlast, hptrs⟩ := h
  refine ⟨hlt, fun b hb => (href b).trans (hcount b hb), ?_, ?_, fun b hb hpos => ?_⟩ <;>
    simp only [State.goto, update_apply] at *
  · grind [Pc.entry]
  · grind [Pc.entry]
  · by_cases hba : b = a
    · exact .inr ⟨p, by rw [if_pos rfl, hba]; exact ⟨rfl, rfl⟩⟩
    · rw [hother b hba] at hpos ⊢
      rcases hptrs b hb hpos with hok | ⟨q, hq, hc⟩
      · exact .inl hok
      · exact .inr ⟨q, by grind [Pc.cleared]⟩

/-- Process `p` drops a reference; an entry that is still referenced keeps its pointers. -/
lemma Inv.drop (h : Inv s) {freed : Bool}
    (hp : s.pc p = .dropping a ad freed) (hr : dropRef ad a s.st = .ok st) :
    Inv (State.goto ⟨st, s.lock, s.pc, s.refs.erase (p, a)⟩ p .idle) := by
  have hentry : (s.pc p).entry = some a := by rw [hp]; rfl
  have hmem := h.has p a hentry
  have ha := h.lt _ hmem
  have hsplit : ∀ b, b ≠ a → st.inode b = s.st.inode b := by
    intro b hba
    rcases dropRef_ok hr with ⟨-, rfl⟩ | ⟨-, q, -, rfl⟩
    · rw [setInode_inode, update_of_ne hba]
    · rw [setInode_inode, setSlot_inode, update_of_ne hba]
  have hself : (st.inode a).ref = (s.st.inode a).ref - 1 := by
    rcases dropRef_ok hr with ⟨-, rfl⟩ | ⟨h1, q, -, rfl⟩
    · rw [setInode_self]
    · rw [setInode_self, h1]
  have hptrs : (s.st.inode a).ref ≠ 1 →
      (st.inode a).iops = (s.st.inode a).iops ∧ (st.inode a).addrs = (s.st.inode a).addrs := by
    intro hne
    rcases dropRef_ok hr with ⟨-, rfl⟩ | ⟨h1, -⟩
    · rw [setInode_self]
      exact ⟨rfl, rfl⟩
    · exact absurd h1 hne
  have hcount : ∀ b, refCount (s.refs.erase (p, a)) b
      = refCount s.refs b - (if b = a then 1 else 0) := by
    intro b
    have hperm : refCount s.refs b = refCount ((p, a) :: s.refs.erase (p, a)) b :=
      (List.perm_cons_erase hmem).map Prod.snd |>.count_eq b
    rw [hperm]
    simp only [refCount, List.map_cons, List.count_cons, beq_iff_eq]
    by_cases hba : b = a
    · rw [if_pos hba, if_pos hba.symm]
      omega
    · rw [if_neg hba, if_neg (Ne.symm hba)]
      omega
  have hsole : ∀ q, (s.pc q).entry = some a → (s.pc q).frees = true → p = q :=
    fun q hq hf => h.sole_holder hq hf hmem
  obtain ⟨hlt, hcounts, hhas, hlast, hpointers⟩ := h
  refine ⟨fun r hr => hlt r (List.mem_of_mem_erase hr), ?_, ?_, ?_, fun b hb hpos => ?_⟩ <;>
    simp only [State.goto, update_apply] at *
  · grind
  · intro q b hq
    have hqp : q ≠ p := by grind [Pc.entry]
    rw [if_neg hqp] at hq
    exact (List.mem_erase_of_ne (fun e => hqp (congrArg Prod.fst e))).mpr (hhas q b hq)
  · grind [Pc.entry]
  · by_cases hba : b = a
    · -- two references are left, so no process has cleared the entry
      refine .inl ?_
      rcases hpointers a ha (by grind) with hok | ⟨q, hq, hc⟩
      · grind
      · have := hlast q a hq (Pc.frees_of_cleared hc)
        grind
    · rw [hsplit b hba] at hpos ⊢
      rcases hpointers b hb hpos with hok | ⟨q, hq, hc⟩
      · exact .inl hok
      · exact .inr ⟨q, by grind⟩

lemma Inv.iget (h : Inv s) {dev inum : Nat} (hquiet : NotFreeing s dev inum) (hc : c.entry = none)
    (hcleared : (s.pc p).cleared = false) (hr : Icache.iget dev inum s.st = .ok (a, st)) :
    Inv (State.goto ⟨st, s.lock, s.pc, (p, a) :: s.refs⟩ p c) := by
  obtain ⟨ha, ⟨hpos, hdev, hinum, rfl⟩ | ⟨-, hunused, hcase⟩⟩ := iget_ok hr
  · have hfree : ∀ q, (s.pc q).entry = some a → (s.pc q).frees = false := by
      intro q hq
      by_contra hf
      have := hquiet _ (h.has q a hq) hq (by simpa using hf)
      exact of_decide_eq_false this ⟨hpos, hdev, hinum⟩
    refine h.gain ha (fun b hba => update_of_ne hba _ _) ?_ ?_ hfree hc hcleared
    · rw [setInode_self]
    · rw [setInode_self]
      rcases h.ptrs a ha hpos with hok | ⟨q, hq, hcl⟩
      · exact hok
      have := hfree q hq
      rw [Pc.frees_of_cleared hcl] at this
      exact nomatch this
  have hfree : ∀ q, (s.pc q).entry = some a → (s.pc q).frees = false := by
    intro q hq
    by_contra hf
    have := h.last q a hq (by simpa using hf)
    rw [hunused] at this
    exact nomatch this
  rcases hcase with ⟨-, rfl⟩ | ⟨-, rfl⟩
  · refine h.gain ha (fun b hba => ?_) ?_ ?_ hfree hc hcleared
    · rw [recycle_inode, update_of_ne hba]
    · rw [recycle_self, hunused]
    · rw [recycle_self]
      exact ⟨nofun, nofun⟩
  refine h.gain ha (fun b hba => ?_) ?_ ?_ hfree hc hcleared
  · rw [recycle_inode, update_of_ne hba]
  · rw [recycle_self, hunused]
  · rw [recycle_self]
    exact ⟨nofun, nofun⟩

end Inv

/-! ## Every step keeps the invariant -/

/-- Counts stay, and no pointer is cleared. -/
def Keeps (st st' : Cache) : Prop :=
  ∀ b, (st'.inode b).ref = (st.inode b).ref ∧
    ((st.inode b).iops ≠ none ∧ (st.inode b).addrs ≠ none →
      (st'.inode b).iops ≠ none ∧ (st'.inode b).addrs ≠ none)

lemma Keeps.of_inode {st st' : Cache} (h : st'.inode = st.inode) : Keeps st st' := by
  intro b
  rw [h]
  exact ⟨rfl, id⟩

lemma Keeps.of_setInode {st base : Cache} {ip : Inode} (h : base.inode = st.inode)
    (href : ip.ref = (st.inode a).ref) (hiops : (st.inode a).iops ≠ none → ip.iops ≠ none)
    (haddrs : ip.addrs = (st.inode a).addrs) : Keeps st (base.setInode a ip) := by
  intro b
  rw [setInode_inode, h]
  by_cases hba : b = a
  · rw [hba, update_self, haddrs]
    exact ⟨href, fun hp => ⟨hiops hp.1, hp.2⟩⟩
  · rw [update_of_ne hba]
    exact ⟨rfl, id⟩

section Steps

variable {sb : Superblock} {esb : Ext2Super}

variable {f : Iops} {a : Nat} {st st' : Cache}

lemma load_keeps (h : load sb esb f a st = .ok st') : Keeps st st' := by
  rw [load] at h
  split at h
  · exact nomatch h
  obtain ⟨⟨d, bc⟩, -, h2⟩ := bind_eq_ok.mp h
  by_cases ht : d.type = 0
  · simp only [if_pos ht] at h2
    exact nomatch h2
  simp only [if_neg ht] at h2
  obtain rfl := ok.inj h2
  exact Keeps.of_setInode (by rw [setSlot_inode, setDevice_inode]) rfl (fun _ => nofun) rfl

lemma truncate_keeps (h : truncate sb esb f a st = .ok st') : Keeps st st' := by
  rw [truncate] at h
  split at h
  · exact nomatch h
  obtain ⟨⟨d, bc⟩, -, h2⟩ := bind_eq_ok.mp h
  obtain rfl := ok.inj h2
  exact Keeps.of_setInode (by rw [setSlot_inode, setDevice_inode]) rfl id rfl

lemma markFree_keeps (h : markFree sb esb a st = .ok st') : Keeps st st' := by
  rw [markFree] at h
  split at h
  · obtain ⟨bc, -, h2⟩ := bind_eq_ok.mp h
    obtain rfl := ok.inj h2
    exact Keeps.of_setInode (by rw [setDevice_inode]) rfl id rfl
  · exact nomatch h

/-- `ialloc` changes the device only. -/
lemma allocTurn_keeps {type i : Nat} {r : Option Nat × Cache}
    (h : allocTurn sb esb type i st f = .ok r) : Keeps st r.2 := by
  cases f with
  | xv6fs =>
    rw [allocTurn] at h
    split at h
    · obtain ⟨⟨d, bc⟩, -, h2⟩ := bind_eq_ok.mp h
      by_cases ht : (getDinode d (i % IPB * 64)).type = 0
      · simp only [if_pos ht] at h2
        obtain rfl := ok.inj h2
        exact Keeps.of_inode rfl
      simp only [if_neg ht] at h2
      obtain rfl := ok.inj h2
      exact Keeps.of_inode rfl
    · exact nomatch h
  | ext2fs =>
    rw [allocTurn] at h
    split at h
    · obtain ⟨_, -, h2⟩ := bind_eq_ok.mp h
      obtain ⟨⟨inum, bc⟩, -, h3⟩ := bind_eq_ok.mp h2
      obtain rfl := ok.inj h3
      exact Keeps.of_inode rfl
    · exact nomatch h

variable {s : State} {p : Nat} {c : Pc} {lock : Nat → Option Nat}

/-- A step within a call on an entry. -/
lemma Inv.within (h : Inv s) (hkeeps : Keeps s.st st) (hp : (s.pc p).entry = some a)
    (hc : c.entry = some a ∨ c = .idle)
    (hfrees : c.frees = true → (s.pc p).frees = true ∨ (s.st.inode a).ref = 1)
    (hcleared : (s.pc p).cleared = true → c.entry = some a ∧ c.cleared = true) :
    Inv (State.goto ⟨st, lock, s.pc, s.refs⟩ p c) := by
  have hsame : ∀ b, c.entry = some b → b = a := by
    intro b hb
    rcases hc with hc | rfl
    · rw [hc] at hb
      exact (some.inj hb).symm
    · exact nomatch hb
  refine h.advance (fun b => (hkeeps b).1) (fun b => (hkeeps b).2) (fun b hb => ?_)
    (fun b hb hf => ?_) (fun b hb hcl => ?_)
  · rw [hsame b hb]
    exact h.has p a hp
  · rw [hsame b hb]
    exact (hfrees hf).elim (h.last p a hp) id
  · obtain rfl : a = b := some.inj (hp.symm.trans hb)
    exact hcleared hcl

/-- A step of a process whose call works on no entry yet. -/
lemma Inv.outside (h : Inv s) (hkeeps : Keeps s.st st) (hp : (s.pc p).entry = none)
    (hc : ∀ a, c.entry = some a → (p, a) ∈ s.refs) (hfrees : c.frees = false) :
    Inv (State.goto ⟨st, lock, s.pc, s.refs⟩ p c) := by
  refine h.advance (fun b => (hkeeps b).1) (fun b => (hkeeps b).2) hc (fun b _ hf => ?_)
    (fun b hb _ => ?_)
  · rw [hfrees] at hf
    exact nomatch hf
  · rw [hp] at hb
    exact nomatch hb

lemma inv_runStep {s' : State} {n : Nat} (h : Inv s) (hq : Quiet s (.run p n))
    (hr : runStep sb esb p n s = .ok s') : Inv s' := by
  rw [runStep] at hr
  have hid : Keeps s.st s.st := Keeps.of_inode rfl
  cases hpc : s.pc p with
  | idle =>
    rw [hpc] at hr
    exact nomatch hr
  | locking f a =>
    simp only [hpc] at hr
    split at hr
    · exact nomatch hr
    obtain rfl := ok.inj hr
    refine h.within hid (by rw [hpc]; rfl) ?_ ?_ ?_
    · split
      · exact .inr rfl
      · exact .inl rfl
    · split <;> exact nofun
    · rw [hpc]
      exact nofun
  | loading f a =>
    simp only [hpc] at hr
    obtain ⟨st, h1, h2⟩ := bind_eq_ok.mp hr
    obtain rfl := ok.inj h2
    exact h.within (load_keeps h1) (by rw [hpc]; rfl) (.inr rfl) nofun (by rw [hpc]; exact nofun)
  | putting f a =>
    simp only [hpc] at hr
    split at hr
    · exact nomatch hr
    obtain rfl := ok.inj hr
    refine h.within hid (by rw [hpc]; rfl) ?_ ?_ ?_
    · split <;> exact .inl rfl
    · split <;> exact nofun
    · rw [hpc]
      exact nofun
  | checking f a ad =>
    simp only [hpc] at hr
    obtain rfl := ok.inj hr
    refine h.within hid (by rw [hpc]; rfl) ?_ ?_ (by rw [hpc]; exact nofun)
    · split
      · cases f <;> exact .inl rfl
      · exact .inl rfl
    · by_cases h1 : (s.st.inode a).ref = 1
      · exact fun _ => .inr h1
      · rw [if_neg h1]
        exact nofun
  | ifreeing a ad n =>
    simp only [hpc] at hr
    obtain ⟨bc, -, h2⟩ := bind_eq_ok.mp hr
    obtain rfl := ok.inj h2
    exact h.within (Keeps.of_inode rfl) (by rw [hpc]; rfl) (.inl rfl)
      (fun _ => .inl (by rw [hpc]; rfl)) (by rw [hpc]; exact nofun)
  | truncating f a ad n =>
    cases n with
    | succ n =>
      simp only [hpc] at hr
      obtain rfl := ok.inj hr
      exact h.within hid (by rw [hpc]; rfl) (.inl rfl) (fun _ => .inl (by rw [hpc]; rfl))
        (by rw [hpc]; exact nofun)
    | zero =>
      simp only [hpc] at hr
      obtain ⟨st, h1, h2⟩ := bind_eq_ok.mp hr
      obtain rfl := ok.inj h2
      exact h.within (truncate_keeps h1) (by rw [hpc]; rfl) (.inl rfl)
        (fun _ => .inl (by rw [hpc]; rfl)) (by rw [hpc]; exact nofun)
  | updating f a ad =>
    simp only [hpc] at hr
    obtain ⟨st, h1, h2⟩ := bind_eq_ok.mp hr
    obtain rfl := ok.inj h2
    exact h.within (markFree_keeps h1) (by rw [hpc]; rfl) (.inl rfl)
      (fun _ => .inl (by rw [hpc]; rfl)) (by rw [hpc]; exact nofun)
  | clearing a ad =>
    simp only [hpc] at hr
    obtain rfl := ok.inj hr
    exact h.clear hpc
  | unlocking a ad freed =>
    simp only [hpc] at hr
    obtain rfl := ok.inj hr
    exact h.within hid (by rw [hpc]; rfl) (.inl rfl) (fun hf => .inl (by rw [hpc]; exact hf))
      (fun hf => ⟨rfl, by rw [hpc] at hf; exact hf⟩)
  | dropping a ad freed =>
    simp only [hpc] at hr
    obtain ⟨st, h1, h2⟩ := bind_eq_ok.mp hr
    obtain rfl := ok.inj h2
    exact h.drop hpc h1
  | allocating f type i =>
    simp only [hpc] at hr
    obtain ⟨⟨inum, st⟩, h1, h2⟩ := bind_eq_ok.mp hr
    obtain rfl := ok.inj h2
    refine h.outside (allocTurn_keeps h1) (by rw [hpc]; rfl) ?_ ?_
    · cases inum <;> exact nofun
    · cases inum <;> rfl
  | getting f inum =>
    rw [Quiet, hpc] at hq
    simp only [hpc] at hr
    obtain ⟨⟨a, st⟩, h1, h2⟩ := bind_eq_ok.mp hr
    obtain rfl := ok.inj h2
    exact h.iget hq rfl (by rw [hpc]; rfl) h1

lemma goto_idle (h : s.pc p = .idle) : s.goto p .idle = s := by
  rw [State.goto, ← h, update_eq_self]

lemma inv_callStep {s' : State} {act : Act} (h : Inv s) (hidle : s.pc act.pid = .idle)
    (hhas : HasRef s act) (hq : Quiet s act) (hr : callStep s act = .ok s') : Inv s' := by
  cases act with
  | iget p dev inum =>
    have hidle : s.pc p = .idle := hidle
    obtain ⟨⟨a, st⟩, h1, h2⟩ := bind_eq_ok.mp hr
    obtain rfl := ok.inj h2
    have hgain : Inv (State.goto ⟨st, s.lock, s.pc, (p, a) :: s.refs⟩ p .idle) :=
      h.iget hq rfl (by rw [hidle]; rfl) h1
    have hback := goto_idle
      (show State.pc ⟨st, s.lock, s.pc, (p, a) :: s.refs⟩ p = .idle from hidle)
    rwa [hback] at hgain
  | idup p a =>
    have hidle : s.pc p = .idle := hidle
    have hmem : (p, a) ∈ s.refs := hhas
    obtain rfl := ok.inj hr
    have hno : ∀ q, (s.pc q).entry = some a → (s.pc q).frees = false := by
      intro q hq
      by_contra hf
      have := h.sole_holder hq (by simpa using hf) hmem
      rw [← this, hidle] at hq
      cases hq
    have hptrs := h.safe (p := p) (a := a) ⟨hmem, fun hp => by rw [hidle] at hp; cases hp.1⟩
    have hgain : Inv (State.goto ⟨idup a s.st, s.lock, s.pc, (p, a) :: s.refs⟩ p .idle) := by
      refine h.gain (h.lt _ hmem) (fun b hba => update_of_ne hba _ _) ?_ ?_ hno rfl
        (by rw [hidle]; rfl)
      · rw [idup, setInode_self]
      · rwa [idup, setInode_self]
    have hback := goto_idle
      (show State.pc ⟨idup a s.st, s.lock, s.pc, (p, a) :: s.refs⟩ p = .idle from hidle)
    rwa [hback] at hgain
  | ilock p a =>
    have hidle : s.pc p = .idle := hidle
    have hmem : (p, a) ∈ s.refs := hhas
    rw [callStep] at hr
    split at hr
    · cases hr
    split at hr
    · cases hr
    obtain rfl := ok.inj hr
    refine h.outside (Keeps.of_inode rfl) (by rw [hidle]; rfl) (fun b hb => ?_) rfl
    obtain rfl := some.inj hb
    exact hmem
  | iunlock p a =>
    rw [callStep] at hr
    split at hr
    · cases hr
    split at hr
    · cases hr
    · obtain rfl := ok.inj hr
      exact ⟨h.lt, h.count, h.has, h.last, h.ptrs⟩
  | iput p a =>
    have hidle : s.pc p = .idle := hidle
    have hmem : (p, a) ∈ s.refs := hhas
    rw [callStep] at hr
    split at hr
    · cases hr
    obtain rfl := ok.inj hr
    refine h.outside (Keeps.of_inode rfl) (by rw [hidle]; rfl) (fun b hb => ?_) rfl
    obtain rfl := some.inj hb
    exact hmem
  | ialloc p f type =>
    have hidle : s.pc p = .idle := hidle
    obtain rfl := ok.inj hr
    exact h.outside (Keeps.of_inode rfl) (by rw [hidle]; rfl) (fun _ he => by cases he) rfl
  | run p n =>
    obtain rfl := ok.inj hr
    exact h

lemma inv_step (s : State) (act : Act) (s' : State) (h : Inv s)
    (hc : HasRef s act ∧ Quiet s act) (hr : step sb esb s act = .ok s') : Inv s' := by
  by_cases hrun : ∃ p n, act = .run p n
  · obtain ⟨p, n, rfl⟩ := hrun
    exact inv_runStep h hc.2 hr
  have hr : (if s.pc act.pid ≠ .idle then Except.error Err.deadlock else callStep s act)
      = .ok s' := by
    cases act with
    | run p n => exact absurd ⟨p, n, rfl⟩ hrun
    | _ => exact hr
  split at hr
  · exact nomatch hr
  · next hidle =>
    exact inv_callStep h (not_not.mp hidle) hc.1 hc.2 hr

end Steps

/-- After boot no process is in a call, and nobody has a reference. -/
def bootState (root ext2 : Bcache) : State :=
  ⟨bootCache root ext2, fun _ => none, fun _ => .idle, []⟩

lemma bootState_inv (root ext2 : Bcache) : Inv (bootState root ext2) :=
  ⟨fun _ h => absurd h List.not_mem_nil, fun _ _ => rfl, fun _ _ h => (nomatch h),
    fun _ _ h => (nomatch h), fun _ _ h => absurd h (Nat.lt_irrefl 0)⟩

/-- **Main result.**  In a run in which no process fetches an inode while another one is
    freeing it, between the check of its last reference and the drop of this reference,
    every entry has its pointers whenever a holder of a reference may follow them. -/
theorem pointers_of_holders (sb : Superblock) (esb : Ext2Super) (root ext2 : Bcache)
    (acts : List Act) (s : State)
    (hacts : AllSteps (step sb esb) (fun s act => HasRef s act ∧ Quiet s act) acts
      (bootState root ext2)) (hrun : exec (step sb esb) acts (bootState root ext2) = .ok s) :
    ∀ p a, MayUse s p a → (s.st.inode a).iops ≠ none ∧ (s.st.inode a).addrs ≠ none := by
  intro p a hu
  have h : Inv s := exec_invariant inv_step acts _ s (bootState_inv root ext2) hacts hrun
  exact h.safe hu

/-- Process 0 opens the unlinked inode 1 and puts it back up to the point where the inode
    is free on disk. -/
def freeOnDisk : List Act :=
  [.iget 0 ROOTDEV 1, .ilock 0 0, .run 0 0, .run 0 0, .iunlock 0 0, .iput 0 0, .run 0 0,
    .run 0 0, .run 0 0, .run 0 0]

/-- It clears the entry, unlocks it and drops the reference before process 1 allocates. -/
theorem pointers_of_holders_afterwards : ∃ s, exec (step rootSuper Ext2Layout.smallSuper)
        (freeOnDisk ++ [.run 0 0, .run 0 0, .run 0 0, .ialloc 1 .xv6fs T_FILE, .run 1 0, .run 1 0])
        (bootState unlinkedDevice blankDevice) = .ok s ∧
      MayUse s 1 0 ∧ (s.st.inode 0).iops ≠ none ∧ (s.st.inode 0).addrs ≠ none := by
  have hok : (exec (step rootSuper Ext2Layout.smallSuper)
      (freeOnDisk ++ [.run 0 0, .run 0 0, .run 0 0, .ialloc 1 .xv6fs T_FILE, .run 1 0, .run 1 0])
      (bootState unlinkedDevice blankDevice)).map (fun s => (s.refs, s.pc 1))
        = .ok ([(1, 0)], .idle) := by
    decide +kernel
  cases hr : exec (step rootSuper Ext2Layout.smallSuper)
      (freeOnDisk ++ [.run 0 0, .run 0 0, .run 0 0, .ialloc 1 .xv6fs T_FILE, .run 1 0, .run 1 0])
      (bootState unlinkedDevice blankDevice) with
  | error e => rw [hr] at hok; exact nomatch hok
  | ok s =>
    rw [hr] at hok
    obtain ⟨hrefs, hidle⟩ := ok_pair_inj hok
    have hu : MayUse s 1 0 := by
      refine ⟨by rw [hrefs]; exact List.mem_cons_self, fun h => ?_⟩
      rw [hidle] at h
      exact nomatch h.1
    exact ⟨s, rfl, hu, pointers_of_holders rootSuper Ext2Layout.smallSuper unlinkedDevice
      blankDevice _ s (by decide +kernel) hr 1 0 hu⟩

/-- The call of process 0 after `freeOnDisk` has fetched and locked the inode. -/
theorem iput_alone_unlinked : ∃ s, exec (step rootSuper Ext2Layout.smallSuper)
      (freeOnDisk.take 5) (bootState unlinkedDevice blankDevice) = .ok s ∧
    ∃ st', (st'.inode 0).ref = 0 ∧ ∃ k, exec (step rootSuper Ext2Layout.smallSuper)
      (.iput 0 0 :: List.replicate k (.run 0 0)) s
        = .ok { s with st := st', refs := s.refs.erase (0, 0) } := by
  refine (exists_ok_of_map (f := fun s => (s.pc 0, s.lock 0, (iput rootSuper Ext2Layout.smallSuper
    0 s.st).map (fun st => (st.inode 0).ref))) (b := (.idle, none, .ok 0)) ?_).imp
    fun s ⟨hs, heq⟩ => ⟨hs, ?_⟩
  · decide +kernel
  · obtain ⟨hidle, heq⟩ := Prod.mk.inj heq
    obtain ⟨hlock, heq⟩ := Prod.mk.inj heq
    obtain ⟨st', hput, href⟩ := exists_ok_of_map heq
    exact ⟨st', href, iput_alone hidle hlock hput⟩

/-- Process 1 allocates the inode while process 0 is freeing it, and gets its entry
    without pointers. -/
theorem ialloc_finds_cleared_entry : ∃ s, exec (step rootSuper Ext2Layout.smallSuper)
        (freeOnDisk ++ [.ialloc 1 .xv6fs T_FILE, .run 1 0, .run 0 0, .run 1 0])
        (bootState unlinkedDevice blankDevice) = .ok s ∧
      AllSteps (step rootSuper Ext2Layout.smallSuper) HasRef
        (freeOnDisk ++ [.ialloc 1 .xv6fs T_FILE, .run 1 0, .run 0 0, .run 1 0])
        (bootState unlinkedDevice blankDevice) ∧
      MayUse s 1 0 ∧ (s.st.inode 0).ref = 2 ∧ (s.st.inode 0).iops = none ∧
      (s.st.inode 0).addrs = none ∧
      (step rootSuper Ext2Layout.smallSuper s (.ilock 1 0)).isOk = false := by
  have hok : (exec (step rootSuper Ext2Layout.smallSuper)
      (freeOnDisk ++ [.ialloc 1 .xv6fs T_FILE, .run 1 0, .run 0 0, .run 1 0])
      (bootState unlinkedDevice blankDevice)).map (fun s => (s.refs, s.pc 1, s.st.inode 0,
        (step rootSuper Ext2Layout.smallSuper s (.ilock 1 0)).isOk)) = .ok ([(1, 0), (0, 0)], .idle,
          ⟨ROOTDEV, 1, 2, false, none, 0, 0, 0, 0, 0, none⟩, false) := by
    decide +kernel
  cases hr : exec (step rootSuper Ext2Layout.smallSuper)
      (freeOnDisk ++ [.ialloc 1 .xv6fs T_FILE, .run 1 0, .run 0 0, .run 1 0])
      (bootState unlinkedDevice blankDevice) with
  | error e => rw [hr] at hok; exact nomatch hok
  | ok s =>
    rw [hr] at hok
    obtain ⟨hrefs, hrest⟩ := ok_pair_inj hok
    obtain ⟨hidle, hrest⟩ := Prod.mk.inj hrest
    obtain ⟨hentry, hwild⟩ := Prod.mk.inj hrest
    refine ⟨s, rfl, by decide +kernel, ⟨?_, fun h => ?_⟩, ?_, ?_, ?_, hwild⟩
    · rw [hrefs]
      exact List.mem_cons_self
    · rw [hidle] at h
      exact nomatch h.1
    · rw [hentry]
    · rw [hentry]
    · rw [hentry]

end IcacheRace
