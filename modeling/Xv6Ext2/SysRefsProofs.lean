import Xv6Ext2.MkfsProofs
import Xv6Ext2.SysfileProofs
import Mathlib.Algebra.BigOperators.Group.Finset.Basic
import Mathlib.Data.List.Count

/-! # What the system calls give back

    A system call takes references to inode cache entries and sleep-locks, and begins a transaction.
    `Own base rest refs locks` says what it has at a point of its code: the references `refs`
    beyond those of `base`, and the sleep-locks `locks`.  Each function has one lemma that says what
    it takes and what it gives back when it returns, whatever is on the devices. -/

namespace Kernel

open BufCache Param Outcome FileIo Xv6Alloc Ext2Alloc SlotTable Icache Path

open Function (update update_idem update_of_ne update_self)

/-! ## Reference counts of the cache -/

lemma count_singleton (a b : Nat) : [a].count b = if b = a then 1 else 0 := by
  rw [List.count_singleton]
  by_cases h : b = a
  · rw [if_pos h, if_pos (by simpa using h.symm)]
  · rw [if_neg h, if_neg (by simpa using Ne.symm h)]

lemma count_cons (a b : Nat) (l : List Nat) : (a :: l).count b = l.count b + [a].count b := by
  rw [← List.singleton_append, List.count_append, Nat.add_comm]

variable {st : Cache} {a : Nat}

lemma ref_setInode {ip : Inode} (b : Nat)
    (h : ip.ref = (st.inode a).ref) : ((st.setInode a ip).inode b).ref = (st.inode b).ref := by
  rw [setInode_inode]
  by_cases hba : b = a
  · rw [hba, update_self, h]
  · rw [update_of_ne hba]

lemma iget_ref {dev inum : Nat} {st' : Cache} (h : Icache.iget dev inum st = .ok (a, st'))
    (b : Nat) : (st'.inode b).ref = (st.inode b).ref + [a].count b := by
  rw [count_singleton]
  by_cases hba : b = a
  · rw [if_pos hba, hba]
    obtain ⟨-, ⟨-, -, -, rfl⟩ | ⟨-, hunused, ⟨-, rfl⟩ | ⟨-, rfl⟩⟩⟩ := iget_ok h
    · rw [setInode_self]
    · rw [recycle_self, hunused]
    · rw [recycle_self, hunused]
  rw [if_neg hba]
  obtain ⟨-, ⟨-, -, -, rfl⟩ | ⟨-, -, ⟨-, rfl⟩ | ⟨-, rfl⟩⟩⟩ := iget_ok h
  · rw [setInode_inode, update_of_ne hba, Nat.add_zero]
  · rw [recycle_inode, update_of_ne hba, Nat.add_zero]
  · rw [recycle_inode, update_of_ne hba, Nat.add_zero]

variable {sb : Superblock} {esb : Ext2Super}

lemma ilock_ref {st' : Cache}
    (h : Icache.ilock sb esb a st = .ok st') (b : Nat) : (st'.inode b).ref = (st.inode b).ref := by
  have hwith : ∀ {f read}, ilockWith f read a st = .ok st' →
      (st'.inode b).ref = (st.inode b).ref := by
    intro f read h
    rcases ilockWith_ok h with ⟨-, rfl⟩ | ⟨p, d, bc, -, -, -, -, rfl⟩
    · rfl
    · rw [ref_setInode b (by rw [setSlot_inode, setDevice_inode]; rfl), setSlot_inode,
        setDevice_inode]
  rw [Icache.ilock] at h
  split at h
  · cases h
  · exact hwith h
  · exact hwith h

lemma iput_ref {st' : Cache} (h : Icache.iput sb esb a st = .ok st') (b : Nat) :
    (st'.inode b).ref = (st.inode b).ref - [a].count b := by
  rw [count_singleton]
  have hwith : ∀ {f free}, iputWith f free a st = .ok st' →
      (st'.inode b).ref = (st.inode b).ref - (if b = a then 1 else 0) := by
    intro f free h
    by_cases hba : b = a
    · rw [if_pos hba, hba]
      rcases iputWith_ok h with ⟨-, rfl⟩ | ⟨h1, p, -, ⟨-, rfl⟩ | ⟨d, bc, -, -, -, rfl⟩⟩
      · rw [setInode_self]
      · rw [setInode_self, h1]
      · rw [setInode_self, h1]
    rw [if_neg hba]
    rcases iputWith_ok h with ⟨-, rfl⟩ | ⟨h1, p, -, ⟨-, rfl⟩ | ⟨d, bc, -, -, -, rfl⟩⟩
    · rw [setInode_inode, update_of_ne hba, Nat.sub_zero]
    · rw [setInode_inode, setSlot_inode, update_of_ne hba, Nat.sub_zero]
    · rw [setInode_inode, setSlot_inode, setDevice_inode, update_of_ne hba, Nat.sub_zero]
  rw [Icache.iput] at h
  split at h
  · cases h
  · exact hwith h
  · exact hwith h

lemma callOn_ref {α : Type} {f : Iops}
    {g : Nat → Dinode → Bcache → Except Err (α × Dinode × Bcache)} {r : α × Cache}
    (h : callOn f g a st = .ok r) (b : Nat) : (r.2.inode b).ref = (st.inode b).ref := by
  rw [callOn] at h
  split at h
  · cases h
  obtain ⟨⟨x, d, bc⟩, -, h2⟩ := bind_eq_ok.mp h
  obtain rfl := Except.ok.inj h2
  rw [ref_setInode b (by rw [setSlot_inode, setDevice_inode]; rfl), setSlot_inode, setDevice_inode]

/-! ## What a call owns -/

/-- The part of the state that the functions below a system call leave alone. -/
structure Rest where
  file  : Nat → File
  proc  : Nat → Proc
  cur   : Nat
  begun : Nat
  ended : Nat

def State.rest (k : State) : Rest := ⟨k.file, k.proc, k.cur, k.begun, k.ended⟩

structure Own (base : Nat → Nat) (rest : Rest) (refs locks : List Nat) (k : State) : Prop where
  ref   : ∀ a, (k.cache.inode a).ref = base a + refs.count a
  lt    : ∀ a ∈ refs, a < NINODE
  held  : ∀ a, k.locked a = true ↔ a ∈ locks
  nodup : locks.Nodup
  rest  : k.rest = rest

/-- The call returns only in states with `Q`. -/
abbrev Ret {α : Type} (x : Sys α) (k : State) (Q : α → State → Prop) : Prop :=
  SatS x k Q (fun _ => True)

section Own

variable {cfg : Config} {base : Nat → Nat} {rest : Rest} {refs locks : List Nat} {k : State}
  {a : Nat}

lemma Own.swap {b : Nat} (h : Own base rest (a :: b :: refs) locks k) :
    Own base rest (b :: a :: refs) locks k := by
  have hp : (b :: a :: refs).Perm (a :: b :: refs) := List.Perm.swap a b refs
  exact ⟨fun c => by rw [h.ref c, hp.count_eq c], fun c hc => h.lt c (hp.mem_iff.mp hc), h.held,
    h.nodup, h.rest⟩

lemma Own.swapLocks {b : Nat} (h : Own base rest refs (a :: b :: locks) k) :
    Own base rest refs (b :: a :: locks) k := by
  have hp : (b :: a :: locks).Perm (a :: b :: locks) := List.Perm.swap a b locks
  exact ⟨h.ref, h.lt, fun c => by rw [h.held c, hp.mem_iff], hp.nodup_iff.mpr h.nodup, h.rest⟩

/-- A change of the cache that keeps all counts. -/
lemma Own.setCache (h : Own base rest refs locks k) {st : Cache}
    (hst : ∀ b, (st.inode b).ref = (k.cache.inode b).ref) :
    Own base rest refs locks { k with cache := st } :=
  ⟨fun a => by rw [← h.ref a]; exact hst a, h.lt, h.held, h.nodup, h.rest⟩

lemma stop_ret {α : Type} (e : Err) {Q : α → State → Prop} : Ret (stop e) k Q := trivial

lemma onCache_ret {α : Type} {f : Cache → Except Err (α × Cache)} {Q : α → State → Prop}
    (h : ∀ r st, f k.cache = .ok (r, st) → Q r { k with cache := st }) : Ret (onCache f) k Q := by
  show Sat (f k.cache >>= _) _ _
  cases hr : f k.cache with
  | error e => trivial
  | ok r => exact h r.1 r.2 hr

lemma bind_inode {α : Type} {f : Inode → Sys α} {Q : α → State → Prop} {E : Err → Prop}
    (h : SatS (f (k.cache.inode a)) k Q E) : SatS (inode a >>= f) k Q E := h

lemma iops_ret : Ret (iops a) k (fun _ k' => k' = k) := by
  refine bind_inode ?_
  cases (k.cache.inode a).iops with
  | none => trivial
  | some f => exact rfl

lemma acquiresleep_ret (h : Own base rest refs locks k) :
    Ret (acquiresleep a) k (fun _ k' => Own base rest refs (a :: locks) k') := by
  show Sat (if k.locked a then _ else _) _ _
  split
  · trivial
  · next hl =>
    refine ⟨h.ref, h.lt, fun b => ?_, ?_, h.rest⟩
    · show update k.locked a true b = true ↔ b ∈ a :: locks
      by_cases hba : b = a
      · rw [hba, update_self]
        exact ⟨fun _ => List.mem_cons_self, fun _ => rfl⟩
      · rw [update_of_ne hba, h.held b, List.mem_cons]
        exact ⟨.inr, fun hb => hb.resolve_left hba⟩
    · exact List.nodup_cons.mpr ⟨fun hm => hl ((h.held a).mpr hm), h.nodup⟩

lemma releasesleep_ret (h : Own base rest refs (a :: locks) k) :
    Ret (releasesleep a) k (fun _ k' => Own base rest refs locks k') := by
  obtain ⟨hno, hnodup⟩ := List.nodup_cons.mp h.nodup
  refine ⟨h.ref, h.lt, fun b => ?_, hnodup, h.rest⟩
  show update k.locked a false b = true ↔ b ∈ locks
  by_cases hba : b = a
  · rw [hba, update_self]
    exact ⟨fun e => (nomatch e), fun hm => absurd hm hno⟩
  · rw [update_of_ne hba, h.held b, List.mem_cons]
    exact ⟨fun hb => hb.resolve_left hba, .inr⟩

lemma iget_ret (h : Own base rest refs locks k) (dev inum : Nat) :
    Ret (iget dev inum) k (fun b k' => Own base rest (b :: refs) locks k') := by
  refine onCache_ret (fun b st hr => ⟨fun c => ?_, fun c hc => ?_, h.held, h.nodup, h.rest⟩)
  · show (st.inode c).ref = base c + (b :: refs).count c
    rw [iget_ref hr c, h.ref c, count_cons b c refs, Nat.add_assoc]
  · rcases List.mem_cons.mp hc with rfl | hc
    · exact (iget_ok hr).1
    · exact h.lt c hc

lemma idup_ret (h : Own base rest refs locks k) (ha : a < NINODE) :
    Ret (idup a) k (fun b k' => Own base rest (b :: refs) locks k') := by
  refine onCache_ret (fun b st hr => ?_)
  obtain ⟨rfl, rfl⟩ := ok_pair_inj hr
  refine ⟨fun c => ?_, fun c hc => ?_, h.held, h.nodup, h.rest⟩
  · show ((Icache.idup a k.cache).inode c).ref = base c + (a :: refs).count c
    rw [Icache.idup, setInode_inode, count_cons, count_singleton]
    by_cases hca : c = a
    · rw [hca, update_self, if_pos rfl, ← Nat.add_assoc, ← h.ref a]
    · rw [update_of_ne hca, if_neg hca, h.ref c, Nat.add_zero]
  · rcases List.mem_cons.mp hc with rfl | hc
    · exact ha
    · exact h.lt c hc

lemma ilock_ret (h : Own base rest refs locks k) :
    Ret (ilock cfg a) k (fun _ k' => Own base rest refs (a :: locks) k') := by
  refine SatS.bind iops_ret ?_
  rintro f k1 rfl
  refine bind_inode (SatS.ite (fun _ => stop_ret _) (fun _ => ?_))
  refine SatS.bind (acquiresleep_ret h) (fun _ k2 h2 => ?_)
  refine onCache_ret (fun _ st hr => h2.setCache (fun b => ?_))
  obtain ⟨st1, h3, h4⟩ := bind_eq_ok.mp hr
  obtain ⟨-, rfl⟩ := ok_pair_inj h4
  exact ilock_ref h3 b

lemma iunlock_ret (h : Own base rest refs (a :: locks) k) :
    Ret (iunlock a) k (fun _ k' => Own base rest refs locks k') := by
  refine SatS.bind iops_ret ?_
  rintro f k1 rfl
  have hheld : Ret (holdingsleep a) k1 (fun _ k' => k' = k1) := rfl
  refine SatS.bind hheld ?_
  rintro held k2 rfl
  exact bind_inode (SatS.ite (fun _ => stop_ret _) (fun _ => releasesleep_ret h))

lemma iput_ret (h : Own base rest (a :: refs) locks k) :
    Ret (iput cfg a) k (fun _ k' => Own base rest refs locks k') := by
  refine SatS.bind iops_ret ?_
  rintro f k1 rfl
  refine SatS.bind (acquiresleep_ret h) (fun _ k2 h2 => ?_)
  have hput : Ret (onCache (fun st => do .ok ((), ← Icache.iput cfg.sb cfg.esb a st))) k2
      (fun _ k' => Own base rest refs (a :: locks) k') := by
    refine onCache_ret (fun _ st hr => ?_)
    obtain ⟨st1, h3, h4⟩ := bind_eq_ok.mp hr
    obtain ⟨-, rfl⟩ := ok_pair_inj h4
    refine ⟨fun c => ?_, fun c hc => h.lt c (List.mem_cons_of_mem a hc), h2.held, h2.nodup, h2.rest⟩
    show (st1.inode c).ref = base c + refs.count c
    rw [iput_ref h3 c, h2.ref c, count_cons a c refs, ← Nat.add_assoc, Nat.add_sub_cancel]
  exact SatS.bind hput (fun _ k3 h3 => releasesleep_ret h3)

lemma iunlockput_ret (h : Own base rest (a :: refs) (a :: locks) k) :
    Ret (iunlockput cfg a) k (fun _ k' => Own base rest refs locks k') :=
  SatS.bind (iunlock_ret h) (fun _ _ h1 => iput_ret h1)

lemma modifyInode_ret (h : Own base rest refs locks k) {f : Inode → Inode}
    (hf : ∀ ip, (f ip).ref = ip.ref) :
    Ret (modifyInode a f) k (fun _ k' => Own base rest refs locks k') :=
  h.setCache (fun b => ref_setInode b (hf _))

lemma dispatch_ret {α : Type} (h : Own base rest refs locks k)
    (g : Iops → Nat → Dinode → Bcache → Except Err (α × Dinode × Bcache)) :
    Ret (dispatch a g) k (fun _ k' => Own base rest refs locks k') := by
  refine SatS.bind iops_ret ?_
  rintro f k1 rfl
  exact onCache_ret (fun r st hr => h.setCache (fun b => callOn_ref hr b))

lemma dirlookup_ret (h : Own base rest refs locks k) (name : List UInt8) :
    Ret (dirlookup cfg a name) k (fun r k' => match r with
      | none => Own base rest refs locks k'
      | some (_, b) => Own base rest (b :: refs) locks k') := by
  refine SatS.bind (dispatch_ret h _) (fun r k1 h1 => ?_)
  cases r with
  | none => exact h1
  | some r => exact bind_inode (SatS.bind (iget_ret h1 _ _) (fun b k2 h2 => h2))

lemma dirlink_ret (h : Own base rest refs locks k) (name : List UInt8) (inum : Nat) :
    Ret (dirlink cfg a name inum) k (fun _ k' => Own base rest refs locks k') := by
  refine SatS.bind (dirlookup_ret h name) (fun r k1 h1 => ?_)
  cases r with
  | none => exact dispatch_ret h1 _
  | some r => exact SatS.bind (iput_ret h1) (fun _ k2 h2 => h2)

lemma ialloc_ret (h : Own base rest refs locks k) (type : Nat) :
    Ret (ialloc cfg a type) k (fun b k' => Own base rest (b :: refs) locks k') := by
  refine SatS.bind iops_ret ?_
  rintro f k1 rfl
  refine SatS.bind (onCache_ret (fun r st hr => h.setCache (fun b => ?_)))
    (fun inum k2 h2 => bind_inode (iget_ret h2 _ _))
  obtain ⟨⟨inum, bc⟩, -, h2⟩ := bind_eq_ok.mp hr
  obtain ⟨-, rfl⟩ := ok_pair_inj h2
  rw [setDevice_inode]

lemma namexFrom_ret (parent : Bool) (size fuel : Nat) :
    ∀ (path : List UInt8) (a : Nat) (k : State), Own base rest (a :: refs) locks k →
      Ret (namexFrom cfg parent size fuel path a) k (fun r k' => match r with
        | none => Own base rest refs locks k'
        | some (b, _) => Own base rest (b :: refs) locks k') := by
  induction fuel with
  | zero => exact fun _ _ _ _ => stop_ret _
  | succ fuel ih =>
    intro path a k h
    rw [namexFrom]
    refine bind_inode ?_
    cases skipelem path with
    | none =>
      cases parent with
      | true => exact SatS.bind (iput_ret h) (fun _ k1 h1 => h1)
      | false => exact h
    | some r =>
      obtain ⟨elem, path⟩ := r
      refine SatS.ite (fun _ => stop_ret _) (fun _ => ?_)
      refine SatS.bind (ilock_ret h) (fun _ k1 h1 => bind_inode ?_)
      refine SatS.ite (fun _ => ?_) (fun _ => SatS.ite (fun _ => ?_) (fun _ => ?_))
      · exact SatS.bind (iunlockput_ret h1) (fun _ k2 h2 => h2)
      · exact SatS.bind (iunlock_ret h1) (fun _ k2 h2 => h2)
      · refine SatS.bind (dirlookup_ret h1 _) (fun found k2 h2 => ?_)
        cases found with
        | none => exact SatS.bind (iunlockput_ret h2) (fun _ k3 h3 => h3)
        | some next =>
          exact SatS.bind (iunlockput_ret h2.swap) (fun _ k3 h3 => ih path next.2 k3 h3)

lemma namex_ret (h : Own base rest refs locks k) (hcwd : (rest.proc rest.cur).cwd < NINODE)
    (parent : Bool) (size : Nat) (path : List UInt8) :
    Ret (namex cfg parent size path) k (fun r k' => match r with
      | none => Own base rest refs locks k'
      | some (b, _) => Own base rest (b :: refs) locks k') := by
  have hstart : Ret (namexStart path) k (fun r k' => Own base rest (r.1 :: refs) locks k') := by
    rw [namexStart]
    refine SatS.ite (fun _ => ?_) (fun _ => SatS.ite (fun _ => ?_) (fun _ => ?_))
    · exact SatS.bind (iget_ret h _ _) (fun _ k1 h1 => h1)
    · exact SatS.bind (iget_ret h _ _) (fun _ k1 h1 => h1)
    · have hc : Ret cwd k (fun a k' => a < NINODE ∧ k' = k) := by
        refine ⟨?_, rfl⟩
        have := h.rest
        rwa [← this] at hcwd
      refine SatS.bind hc ?_
      rintro a k1 ⟨ha, rfl⟩
      exact SatS.bind (idup_ret h ha) (fun _ k2 h2 => h2)
  exact SatS.bind hstart (fun r k1 h1 => namexFrom_ret parent size _ _ _ _ h1)

lemma namei_ret (h : Own base rest refs locks k) (hcwd : (rest.proc rest.cur).cwd < NINODE)
    (path : List UInt8) : Ret (namei cfg path) k (fun r k' => match r with
      | none => Own base rest refs locks k'
      | some b => Own base rest (b :: refs) locks k') := by
  refine SatS.bind (namex_ret h hcwd _ _ _) (fun r k1 h1 => ?_)
  cases r with
  | none => exact h1
  | some r => exact h1

lemma nameiparent_ret (h : Own base rest refs locks k)
    (hcwd : (rest.proc rest.cur).cwd < NINODE) (path : List UInt8) :
    Ret (nameiparent cfg path) k (fun r k' => match r with
      | none => Own base rest refs locks k'
      | some (b, _) => Own base rest (b :: refs) locks k') :=
  namex_ret h hcwd _ _ _

lemma createDots_ret (h : Own base rest refs locks k) (type dp ip : Nat) :
    Ret (createDots cfg type dp ip) k (fun _ k' => Own base rest refs locks k') := by
  refine SatS.ite (fun _ => ?_) (fun _ => h)
  refine SatS.bind (modifyInode_ret h (fun _ => rfl)) (fun _ k1 h1 => ?_)
  refine SatS.bind (dispatch_ret h1 _) (fun _ k2 h2 => bind_inode ?_)
  refine SatS.bind (dirlink_ret h2 _ _) (fun r k3 h3 => SatS.ite (fun _ => stop_ret _) (fun _ => ?_))
  refine bind_inode (SatS.bind (dirlink_ret h3 _ _) (fun r k4 h4 => ?_))
  exact SatS.ite (fun _ => stop_ret _) (fun _ => h4)

lemma createNew_ret {dp : Nat} (h : Own base rest (dp :: refs) (dp :: locks) k)
    (name : List UInt8) (type major minor : Nat) : Ret (createNew cfg dp name type major minor) k
      (fun ip k' => Own base rest (ip :: refs) (ip :: locks) k') := by
  refine SatS.bind (ialloc_ret h type) (fun ip k1 h1 => ?_)
  refine SatS.bind (ilock_ret h1) (fun _ k2 h2 => ?_)
  refine SatS.bind (modifyInode_ret h2 (fun _ => rfl)) (fun _ k3 h3 => ?_)
  refine SatS.bind (dispatch_ret h3 _) (fun _ k4 h4 => ?_)
  refine SatS.bind (createDots_ret h4 type dp ip) (fun _ k5 h5 => bind_inode ?_)
  refine SatS.bind (dirlink_ret h5 _ _) (fun r k6 h6 => ?_)
  refine SatS.ite (fun _ => stop_ret _) (fun _ => ?_)
  exact SatS.bind (iunlockput_ret h6.swap.swapLocks) (fun _ k7 h7 => h7)

lemma create_ret (h : Own base rest refs locks k) (hcwd : (rest.proc rest.cur).cwd < NINODE)
    (path : List UInt8) (type major minor : Nat) :
    Ret (create cfg path type major minor) k (fun r k' => match r with
      | none => Own base rest refs locks k'
      | some b => Own base rest (b :: refs) (b :: locks) k') := by
  refine SatS.bind (nameiparent_ret h hcwd path) (fun r k1 h1 => ?_)
  cases r with
  | none => exact h1
  | some r =>
    obtain ⟨dp, name⟩ := r
    refine SatS.bind (ilock_ret h1) (fun _ k2 h2 => ?_)
    refine SatS.bind (dirlookup_ret h2 name) (fun found k3 h3 => ?_)
    cases found with
    | some found =>
      obtain ⟨off, ip⟩ := found
      refine SatS.bind (iunlockput_ret h3.swap) (fun _ k4 h4 => ?_)
      refine SatS.bind (ilock_ret h4) (fun _ k5 h5 => bind_inode ?_)
      refine SatS.ite (fun _ => h5) (fun _ => ?_)
      exact SatS.bind (iunlockput_ret h5) (fun _ k6 h6 => h6)
    | none =>
      exact SatS.bind (createNew_ret h3 name type major minor) (fun ip k4 h4 => h4)

end Own

/-! ## The system calls -/

/-- After `begin_op`, and after `end_op`. -/
def Rest.begin_ (r : Rest) : Rest := { r with begun := r.begun + 1 }
def Rest.end_ (r : Rest) : Rest := { r with ended := r.ended + 1 }

/-- Nothing was begun, or one transaction was begun and ended. -/
def Done (base : Nat → Nat) (rest : Rest) (refs locks : List Nat) (k : State) : Prop :=
  Own base rest refs locks k ∨ Own base rest.begin_.end_ refs locks k

section Syscalls

variable {cfg : Config} {base : Nat → Nat} {rest : Rest} {refs locks : List Nat} {k : State}

lemma beginOp_ret (h : Own base rest refs locks k) :
    Ret beginOp k (fun _ k' => Own base rest.begin_ refs locks k') :=
  ⟨h.ref, h.lt, h.held, h.nodup, by rw [← h.rest]; rfl⟩

lemma endOp_ret (h : Own base rest refs locks k) :
    Ret endOp k (fun _ k' => Own base rest.end_ refs locks k') :=
  ⟨h.ref, h.lt, h.held, h.nodup, by rw [← h.rest]; rfl⟩

/-- `end_op(); return r;` -/
lemma endOp_return (h : Own base rest.begin_ refs locks k) (r : Int) :
    Ret (do endOp; return r) k (fun _ k' => Done base rest refs locks k') :=
  SatS.bind (endOp_ret h) (fun _ _ h1 => .inr h1)

lemma linkBad_ret {ip : Nat} (h : Own base rest.begin_ (ip :: refs) locks k) :
    Ret (linkBad cfg ip) k (fun _ k' => Done base rest refs locks k') := by
  refine SatS.bind (ilock_ret h) (fun _ k1 h1 => ?_)
  refine SatS.bind (modifyInode_ret h1 (fun _ => rfl)) (fun _ k2 h2 => ?_)
  refine SatS.bind (dispatch_ret h2 _) (fun _ k3 h3 => ?_)
  exact SatS.bind (iunlockput_ret h3) (fun _ k4 h4 => endOp_return h4 _)

lemma sysLink_ret (h : Own base rest refs locks k) (hcwd : (rest.proc rest.cur).cwd < NINODE)
    (old new : Option (List UInt8)) :
    Ret (sysLink cfg old new) k (fun _ k' => Done base rest refs locks k') := by
  cases old with
  | none => exact .inl h
  | some old =>
  cases new with
  | none => exact .inl h
  | some new =>
  refine SatS.bind (beginOp_ret h) (fun _ k0 h0 => ?_)
  refine SatS.bind (namei_ret h0 hcwd old) (fun r k1 h1 => ?_)
  cases r with
  | none => exact endOp_return h1 _
  | some ip =>
    refine SatS.bind (ilock_ret h1) (fun _ k2 h2 => bind_inode ?_)
    refine SatS.ite (fun _ => ?_) (fun _ => ?_)
    · exact SatS.bind (iunlockput_ret h2) (fun _ k3 h3 => endOp_return h3 _)
    refine SatS.bind (modifyInode_ret h2 (fun _ => rfl)) (fun _ k3 h3 => ?_)
    refine SatS.bind (dispatch_ret h3 _) (fun _ k4 h4 => ?_)
    refine SatS.bind (iunlock_ret h4) (fun _ k5 h5 => ?_)
    refine SatS.bind (nameiparent_ret h5 hcwd new) (fun r k6 h6 => ?_)
    cases r with
    | none => exact linkBad_ret h6
    | some r =>
      obtain ⟨dp, name⟩ := r
      refine SatS.bind (ilock_ret h6) (fun _ k7 h7 => bind_inode (bind_inode ?_))
      refine SatS.ite (fun _ => ?_) (fun _ => bind_inode ?_)
      · exact SatS.bind (iunlockput_ret h7) (fun _ k8 h8 => linkBad_ret h8)
      refine SatS.bind (dirlink_ret h7 _ _) (fun r k8 h8 => SatS.ite (fun _ => ?_) (fun _ => ?_))
      · exact SatS.bind (iunlockput_ret h8) (fun _ k9 h9 => linkBad_ret h9)
      refine SatS.bind (iunlockput_ret h8) (fun _ k9 h9 => ?_)
      exact SatS.bind (iput_ret h9) (fun _ k10 h10 => endOp_return h10 _)

lemma unlinkBad_ret {dp : Nat} (h : Own base rest.begin_ (dp :: refs) (dp :: locks) k) :
    Ret (unlinkBad cfg dp) k (fun _ k' => Done base rest refs locks k') :=
  SatS.bind (iunlockput_ret h) (fun _ _ h1 => endOp_return h1 _)

lemma notEmptyDir_ret (h : Own base rest refs locks k) (ip : Nat) :
    Ret (notEmptyDir cfg ip) k (fun _ k' => Own base rest refs locks k') := by
  refine bind_inode (SatS.ite (fun _ => ?_) (fun _ => h))
  exact SatS.bind (dispatch_ret h _) (fun _ k1 h1 => h1)

lemma dropDotDot_ret (h : Own base rest refs locks k) (dp ip : Nat) :
    Ret (dropDotDot cfg dp ip) k (fun _ k' => Own base rest refs locks k') := by
  refine bind_inode (SatS.ite (fun _ => ?_) (fun _ => h))
  exact SatS.bind (modifyInode_ret h (fun _ => rfl)) (fun _ k1 h1 => dispatch_ret h1 _)

lemma unlinkEntry_ret {dp : Nat} (h : Own base rest.begin_ (dp :: refs) locks k)
    (name : List UInt8) :
    Ret (unlinkEntry cfg dp name) k (fun _ k' => Done base rest refs locks k') := by
  refine SatS.bind (ilock_ret h) (fun _ k1 h1 => ?_)
  refine SatS.ite (fun _ => unlinkBad_ret h1) (fun _ => ?_)
  refine SatS.bind (dirlookup_ret h1 name) (fun found k2 h2 => ?_)
  cases found with
  | none => exact unlinkBad_ret h2
  | some found =>
    obtain ⟨off, ip⟩ := found
    refine SatS.bind (ilock_ret h2) (fun _ k3 h3 => bind_inode ?_)
    refine SatS.ite (fun _ => stop_ret _) (fun _ => ?_)
    refine SatS.bind (notEmptyDir_ret h3 ip) (fun full k4 h4 => ?_)
    refine SatS.ite (fun _ => ?_) (fun _ => ?_)
    · exact SatS.bind (iunlockput_ret h4) (fun _ k5 h5 => unlinkBad_ret h5)
    refine SatS.bind (dispatch_ret h4 _) (fun r k5 h5 => SatS.ite (fun _ => stop_ret _) (fun _ => ?_))
    refine SatS.bind (dropDotDot_ret h5 dp ip) (fun _ k6 h6 => ?_)
    refine SatS.bind (iunlockput_ret h6.swap.swapLocks) (fun _ k7 h7 => ?_)
    refine SatS.bind (modifyInode_ret h7 (fun _ => rfl)) (fun _ k8 h8 => ?_)
    refine SatS.bind (dispatch_ret h8 _) (fun _ k9 h9 => ?_)
    exact SatS.bind (iunlockput_ret h9) (fun _ k10 h10 => endOp_return h10 _)

lemma sysUnlink_ret (h : Own base rest refs locks k) (hcwd : (rest.proc rest.cur).cwd < NINODE)
    (path : Option (List UInt8)) :
    Ret (sysUnlink cfg path) k (fun _ k' => Done base rest refs locks k') := by
  cases path with
  | none => exact .inl h
  | some path =>
    refine SatS.bind (beginOp_ret h) (fun _ k0 h0 => ?_)
    refine SatS.bind (nameiparent_ret h0 hcwd path) (fun r k1 h1 => ?_)
    cases r with
    | none => exact endOp_return h1 _
    | some r => exact unlinkEntry_ret h1 r.2

lemma makeNode_ret (h : Own base rest refs locks k) (hcwd : (rest.proc rest.cur).cwd < NINODE)
    (path : Option (List UInt8)) (type major minor : Nat) :
    Ret (makeNode cfg path type major minor) k (fun _ k' => Done base rest refs locks k') := by
  refine SatS.bind (beginOp_ret h) (fun _ k0 h0 => ?_)
  cases path with
  | none => exact endOp_return h0 _
  | some path =>
    refine SatS.bind (create_ret h0 hcwd path type major minor) (fun r k1 h1 => ?_)
    cases r with
    | none => exact endOp_return h1 _
    | some ip => exact SatS.bind (iunlockput_ret h1) (fun _ k2 h2 => endOp_return h2 _)

lemma sysMknod_ret (h : Own base rest refs locks k) (hcwd : (rest.proc rest.cur).cwd < NINODE)
    (path : Option (List UInt8)) (major minor : Option Nat) :
    Ret (sysMknod cfg path major minor) k (fun _ k' => Done base rest refs locks k') := by
  have hnone : Ret (makeNode cfg none T_DEV 0 0) k (fun _ k' => Done base rest refs locks k') :=
    makeNode_ret h hcwd none T_DEV 0 0
  cases major with
  | none => exact hnone
  | some major =>
    cases minor with
    | none => exact hnone
    | some minor => exact makeNode_ret h hcwd path T_DEV _ _

lemma loaduvmFrom_ret (vm : Vm) (ip addr offset sz fuel : Nat) :
    ∀ (i : Nat) (k : State), Own base rest refs locks k →
      Ret (loaduvmFrom cfg vm ip addr offset sz fuel i) k
        (fun _ k' => Own base rest refs locks k') := by
  induction fuel with
  | zero => exact fun _ _ h => h
  | succ fuel ih =>
    intro i k h
    rw [loaduvmFrom]
    refine SatS.ite (fun _ => SatS.ite (fun _ => stop_ret _) (fun _ => ?_)) (fun _ => h)
    refine SatS.bind (dispatch_ret h _) (fun r k1 h1 => ?_)
    exact SatS.ite (fun _ => h1) (fun _ => ih _ k1 h1)

lemma loadSegment_ret (h : Own base rest refs locks k) (vm : Vm) (ip : Nat) (ph : ByteBlock.Block)
    (sz : Nat) : Ret (loadSegment cfg vm ip ph sz) k (fun _ k' => Own base rest refs locks k') := by
  refine SatS.ite (fun _ => h) (fun _ => SatS.ite (fun _ => h) (fun _ => ?_))
  refine SatS.ite (fun _ => h) (fun _ => SatS.ite (fun _ => h) (fun _ => ?_))
  refine SatS.ite (fun _ => h) (fun _ => ?_)
  refine SatS.bind (loaduvmFrom_ret vm ip _ _ _ _ 0 k h) (fun r k1 h1 => ?_)
  exact SatS.ite (fun _ => h1) (fun _ => h1)

lemma loadFrom_ret (vm : Vm) (ip fuel : Nat) :
    ∀ (off sz : Nat) (k : State), Own base rest refs locks k →
      Ret (loadFrom cfg vm ip fuel off sz) k (fun _ k' => Own base rest refs locks k') := by
  induction fuel with
  | zero => exact fun _ _ _ h => h
  | succ fuel ih =>
    intro off sz k h
    rw [loadFrom]
    refine SatS.bind (dispatch_ret h _) (fun r k1 h1 => ?_)
    refine SatS.ite (fun _ => h1) (fun _ => ?_)
    refine SatS.bind (loadSegment_ret h1 vm ip _ sz) (fun r k2 h2 => ?_)
    cases r with
    | none => exact h2
    | some sz => exact ih _ sz k2 h2

lemma loadProgram_ret (h : Own base rest refs locks k) (vm : Vm) (ip : Nat) :
    Ret (loadProgram cfg vm ip) k (fun _ k' => Own base rest refs locks k') := by
  refine SatS.bind (dispatch_ret h _) (fun r k1 h1 => ?_)
  refine SatS.ite (fun _ => h1) (fun _ => SatS.ite (fun _ => h1) (fun _ => ?_))
  exact SatS.ite (fun _ => h1) (fun _ => loadFrom_ret vm ip _ _ _ k1 h1)

lemma exec_ret (h : Own base rest refs locks k) (hcwd : (rest.proc rest.cur).cwd < NINODE)
    (vm : Vm) (path : List UInt8) (argv : List (List UInt8)) :
    Ret (exec cfg vm path argv) k (fun _ k' => Done base rest refs locks k') := by
  refine SatS.bind (beginOp_ret h) (fun _ k0 h0 => ?_)
  refine SatS.bind (namei_ret h0 hcwd path) (fun r k1 h1 => ?_)
  cases r with
  | none => exact endOp_return h1 _
  | some ip =>
    refine SatS.bind (ilock_ret h1) (fun _ k2 h2 => ?_)
    refine SatS.bind (loadProgram_ret h2 vm ip) (fun r k3 h3 => ?_)
    cases r with
    | none => exact SatS.bind (iunlockput_ret h3) (fun _ k4 h4 => endOp_return h4 _)
    | some sz =>
      refine SatS.bind (iunlockput_ret h3) (fun _ k4 h4 => ?_)
      refine SatS.bind (endOp_ret h4) (fun _ k5 h5 => ?_)
      cases newStack vm argv sz with
      | none => exact .inr h5
      | some sp => exact .inr h5

/-! ## Files and the current directory -/

/-- A file structure that is not in use has no type. -/
def FreeFiles (file : Nat → File) : Prop := ∀ f < NFILE, (file f).ref = 0 → (file f).type = .none

/-- The close of a file that has only been allocated. -/
lemma fileclose_new {f : Nat} {v : File} (hf : k.file f = v) (href : v.ref = 1)
    (htype : v.type = .none) :
    fileclose cfg f k = .ok ((), setFile f { v with ref := 0, type := .none } k) := by
  rw [fileclose, hf]
  dsimp only
  rw [if_neg (by omega), if_neg (by omega), htype]

lemma openFile_ret (h : Own base rest refs locks k) (hfree : FreeFiles rest.file) :
    Ret (openFile cfg) k (fun r k' => match r with
      | none => k' = k
      | some (f, _) => f < NFILE ∧ (rest.file f).ref = 0 ∧ ∃ proc,
          (proc rest.cur).cwd = (rest.proc rest.cur).cwd ∧ Own base { rest with
            file := update rest.file f { rest.file f with ref := 1 }, proc := proc }
            refs locks k') := by
  obtain ⟨hfile, hproc, hcur⟩ : k.file = rest.file ∧ k.proc = rest.proc ∧ k.cur = rest.cur := by
    rw [← h.rest]
    exact ⟨rfl, rfl, rfl⟩
  have halloc : Ret filealloc k (fun r k' => match r with
      | none => k' = k
      | some f => f < NFILE ∧ (rest.file f).ref = 0 ∧
          k' = setFile f { rest.file f with ref := 1 } k) := by
    show Sat (match firstFrom (fun f => decide ((k.file f).ref = 0)) NFILE 0 with
      | none => .ok (none, k)
      | some f => .ok (some f, setFile f { k.file f with ref := 1 } k)) _ _
    rw [hfile]
    cases hf : firstFrom (fun f => decide ((rest.file f).ref = 0)) NFILE 0 with
    | none => exact rfl
    | some f =>
      obtain ⟨-, h2, h3⟩ := firstFrom_some hf
      exact ⟨by omega, of_decide_eq_true h3, rfl⟩
  refine SatS.bind halloc (fun r k1 h1 => ?_)
  cases r with
  | none => exact h1
  | some f =>
    obtain ⟨hlt, h0, rfl⟩ := h1
    have hfd : Ret (fdalloc f) (setFile f { rest.file f with ref := 1 } k) (fun r k' =>
        match r with
        | none => k' = setFile f { rest.file f with ref := 1 } k
        | some _ => ∃ ofile, k' = setProc { rest.proc rest.cur with ofile := ofile }
            (setFile f { rest.file f with ref := 1 } k)) := by
      show Sat (match firstFrom _ NOFILE 0 with
        | none => .ok (none, _)
        | some fd => .ok (some fd, setProc { k.proc k.cur with
            ofile := update (k.proc k.cur).ofile fd (some f) } _)) _ _
      rw [hproc, hcur]
      cases firstFrom _ NOFILE 0 with
      | none => exact rfl
      | some fd => exact ⟨_, rfl⟩
    refine SatS.bind hfd (fun r k2 h2 => ?_)
    cases r with
    | none =>
      obtain rfl : k2 = setFile f { rest.file f with ref := 1 } k := h2
      -- the file is closed again, and had no type
      have htype : (rest.file f).type = .none := hfree f hlt h0
      have hclose : fileclose cfg f (setFile f { rest.file f with ref := 1 } k) = .ok ((), k) := by
        have hself : (setFile f { rest.file f with ref := 1 } k).file f
            = { rest.file f with ref := 1 } := update_self _ _ _
        rw [fileclose_new hself rfl htype]
        have hsame : ({ rest.file f with ref := 0, type := .none } : File) = rest.file f := by
          rw [← h0, ← htype]
        show Except.ok ((), setFile f { rest.file f with ref := 0, type := .none } _) = _
        rw [hsame]
        simp only [setFile, update_idem]
        rw [← hfile, Function.update_eq_self]
      have : Ret (fileclose cfg f) (setFile f { rest.file f with ref := 1 } k)
          (fun _ k' => k' = k) := by
        rw [Ret, SatS, hclose]
        exact rfl
      exact SatS.bind this (fun _ k3 h3 => h3)
    | some fd =>
      obtain ⟨ofile, rfl⟩ := h2
      refine ⟨hlt, h0, update rest.proc rest.cur { rest.proc rest.cur with ofile := ofile }, ?_, ?_⟩
      · rw [update_self]
      · refine ⟨h.ref, h.lt, h.held, h.nodup, ?_⟩
        show Rest.mk (update k.file f _) (update k.proc k.cur _) k.cur k.begun k.ended = _
        rw [← h.rest]
        rfl

lemma openInode_ret (h : Own base rest refs locks k) (hcwd : (rest.proc rest.cur).cwd < NINODE)
    (path : List UInt8) (omode : Nat) : Ret (openInode cfg path omode) k (fun r k' => match r with
      | none => Own base rest refs locks k'
      | some b => Own base rest (b :: refs) (b :: locks) k') := by
  refine SatS.ite (fun _ => create_ret h hcwd _ _ _ _) (fun _ => ?_)
  refine SatS.bind (namei_ret h hcwd path) (fun r k1 h1 => ?_)
  cases r with
  | none => exact h1
  | some ip =>
    refine SatS.bind (ilock_ret h1) (fun _ k2 h2 => bind_inode ?_)
    refine SatS.ite (fun _ => ?_) (fun _ => h2)
    exact SatS.bind (iunlockput_ret h2) (fun _ k3 h3 => h3)

lemma sysOpen_ret (h : Own base rest refs locks k) (hcwd : (rest.proc rest.cur).cwd < NINODE)
    (hfree : FreeFiles rest.file) (path : Option (List UInt8)) (omode : Option Nat) :
    Ret (sysOpen cfg path omode) k (fun _ k' => Done base rest refs locks k' ∨
      ∃ f ip v proc, f < NFILE ∧ (rest.file f).ref = 0 ∧ v.ref = 1 ∧ v.type = .inode ∧ v.ip = ip ∧
        (proc rest.cur).cwd = (rest.proc rest.cur).cwd ∧
        Own base { rest.begin_.end_ with file := update rest.file f v, proc := proc }
          (ip :: refs) locks k') := by
  cases path with
  | none => exact .inl (.inl h)
  | some path =>
  cases omode with
  | none => exact .inl (.inl h)
  | some omode =>
  refine SatS.bind (beginOp_ret h) (fun _ k0 h0 => ?_)
  refine SatS.bind (openInode_ret h0 hcwd path omode) (fun r k1 h1 => ?_)
  cases r with
  | none => exact (endOp_return h1 _).mono (fun _ _ hd => .inl hd)
  | some ip =>
    refine SatS.bind (openFile_ret h1 hfree) (fun r k2 h2 => ?_)
    cases r with
    | none =>
      obtain rfl : k2 = k1 := h2
      refine SatS.bind (iunlockput_ret h1) (fun _ k3 h3 => ?_)
      exact (endOp_return h3 _).mono (fun _ _ hd => .inl hd)
    | some r =>
      obtain ⟨f, fd⟩ := r
      obtain ⟨hlt, hunused, proc, hproc, h2⟩ := h2
      refine SatS.bind (iunlock_ret h2) (fun _ k3 h3 => ?_)
      refine SatS.bind (endOp_ret h3) (fun _ k4 h4 => ?_)
      have hfile : k4.file = update rest.file f { rest.file f with ref := 1 } := by
        rw [show k4.file = k4.rest.file from rfl, h4.rest]
        rfl
      have hfill : Ret (fillFile f ip omode) k4 (fun _ k' => ∃ v : File,
          v.ref = 1 ∧ v.type = .inode ∧ v.ip = ip ∧ k' = setFile f v k4) := by
        refine ⟨_, ?_, rfl, rfl, rfl⟩
        show (k4.file f).ref = 1
        rw [hfile, update_self]
      refine SatS.bind hfill ?_
      rintro _ k5 ⟨v, hv1, hv2, hv3, rfl⟩
      refine .inr ⟨f, ip, v, proc, hlt, hunused, hv1, hv2, hv3, hproc, h4.ref, h4.lt, h4.held,
        h4.nodup, ?_⟩
      show Rest.mk (update k4.file f v) k4.proc k4.cur k4.begun k4.ended = _
      rw [hfile, update_idem]
      have := h4.rest
      rw [show k4.proc = k4.rest.proc from rfl, show k4.cur = k4.rest.cur from rfl,
        show k4.begun = k4.rest.begun from rfl, show k4.ended = k4.rest.ended from rfl, this]
      rfl

/-- `sys_chdir` swaps the reference to the current directory for the one to the new. -/
lemma sysChdir_ret (h : Own base rest [(rest.proc rest.cur).cwd] locks k)
    (hcwd : (rest.proc rest.cur).cwd < NINODE) (path : Option (List UInt8)) :
    Ret (sysChdir cfg path) k (fun _ k' => Done base rest [(rest.proc rest.cur).cwd] locks k' ∨
      ∃ ip proc, (proc rest.cur).cwd = ip ∧
        Own base { rest.begin_.end_ with proc := proc } [ip] locks k') := by
  refine SatS.bind (beginOp_ret h) (fun _ k0 h0 => ?_)
  cases path with
  | none => exact (endOp_return h0 _).mono (fun _ _ hd => .inl hd)
  | some path =>
    refine SatS.bind (namei_ret h0 hcwd path) (fun r k1 h1 => ?_)
    cases r with
    | none => exact (endOp_return h1 _).mono (fun _ _ hd => .inl hd)
    | some ip =>
      refine SatS.bind (ilock_ret h1) (fun _ k2 h2 => bind_inode ?_)
      refine SatS.ite (fun _ => ?_) (fun _ => ?_)
      · refine SatS.bind (iunlockput_ret h2) (fun _ k3 h3 => ?_)
        exact (endOp_return h3 _).mono (fun _ _ hd => .inl hd)
      refine SatS.bind (iunlock_ret h2) (fun _ k3 h3 => ?_)
      have hread : Ret cwd k3 (fun a k' => a = (rest.proc rest.cur).cwd ∧ k' = k3) := by
        refine ⟨?_, rfl⟩
        show (k3.rest.proc k3.rest.cur).cwd = _
        rw [h3.rest]
        rfl
      refine SatS.bind hread ?_
      rintro a k4 ⟨rfl, rfl⟩
      refine SatS.bind (iput_ret h3.swap) (fun _ k5 h5 => ?_)
      refine SatS.bind (endOp_ret h5) (fun _ k6 h6 => ?_)
      refine .inr ⟨ip, update rest.proc rest.cur { rest.proc rest.cur with cwd := ip },
        by rw [update_self], h6.ref, h6.lt, h6.held, h6.nodup, ?_⟩
      show Rest.mk k6.file (update k6.proc k6.cur { k6.proc k6.cur with cwd := ip })
        k6.cur k6.begun k6.ended = _
      rw [show k6.file = k6.rest.file from rfl, show k6.proc = k6.rest.proc from rfl,
        show k6.cur = k6.rest.cur from rfl, show k6.begun = k6.rest.begun from rfl,
        show k6.ended = k6.rest.ended from rfl, h6.rest]
      rfl

end Syscalls

/-! ## The balance of a call -/

inductive Syscall where
  | sysOpen (path : Option (List UInt8)) (omode : Option Nat)
  | sysLink (old new : Option (List UInt8))
  | sysUnlink (path : Option (List UInt8))
  | sysMkdir (path : Option (List UInt8))
  | sysMknod (path : Option (List UInt8)) (major minor : Option Nat)
  | sysChdir (path : Option (List UInt8))
  | exec (vm : Vm) (path : List UInt8) (argv : List (List UInt8))

def Syscall.run (cfg : Config) : Syscall → Sys Int
  | .sysOpen path omode => Kernel.sysOpen cfg path omode
  | .sysLink old new => Kernel.sysLink cfg old new
  | .sysUnlink path => Kernel.sysUnlink cfg path
  | .sysMkdir path => Kernel.sysMkdir cfg path
  | .sysMknod path major minor => Kernel.sysMknod cfg path major minor
  | .sysChdir path => Kernel.sysChdir cfg path
  | .exec vm path argv => Kernel.exec cfg vm path argv

/-- The state in which a process enters the kernel: it holds no sleep-lock, and has a
    reference to its current directory. -/
structure Entered (k : State) : Prop where
  unlocked : ∀ a, k.locked a = false
  cwd_lt   : (k.proc k.cur).cwd < NINODE
  cwd_ref  : 0 < (k.cache.inode (k.proc k.cur).cwd).ref
  files    : FreeFiles k.file

/-- The file holds a reference to an inode. -/
def File.OnInode (v : File) : Prop := 0 < v.ref ∧ v.type = .inode

instance : DecidablePred File.OnInode := fun _ => inferInstanceAs (Decidable (_ ∧ _))

/-- Open inode files, all and of entry `a`. -/
def openFiles (k : State) : Nat := ((Finset.range NFILE).filter (fun f => (k.file f).OnInode)).card

def fileRefs (k : State) (a : Nat) : Nat :=
  ((Finset.range NFILE).filter (fun f => (k.file f).OnInode ∧ (k.file f).ip = a)).card

def cwdRefs (k : State) (a : Nat) : Nat := [(k.proc k.cur).cwd].count a

def refTotal (k : State) : Nat := ∑ a ∈ Finset.range NINODE, (k.cache.inode a).ref

/-- One `end_op` for a `begin_op`, no sleep-lock kept, and the counts of the cache change
    with the open inode files and the current directory; a process always has one. -/
structure Balanced (k k' : State) : Prop where
  ops   : ∃ n ≤ 1, k'.begun = k.begun + n ∧ k'.ended = k.ended + n
  locks : ∀ a, k'.locked a = false
  entry : ∀ a, (k'.cache.inode a).ref + (fileRefs k a + cwdRefs k a)
    = (k.cache.inode a).ref + (fileRefs k' a + cwdRefs k' a)
  total : refTotal k' + openFiles k = refTotal k + openFiles k'

section Balanced

variable {base : Nat → Nat} {rest : Rest} {refs refs' : List Nat} {k k' : State}

lemma Own.refTotal (h : Own base rest refs [] k) :
    refTotal k = ∑ a ∈ Finset.range NINODE, base a + refs.length := by
  have hcount : ∑ a ∈ Finset.range NINODE, refs.count a = refs.length := by
    have := Multiset.sum_count_eq_card (s := Finset.range NINODE) (m := (refs : Multiset Nat))
      (fun a ha => Finset.mem_range.mpr (h.lt a (by simpa using ha)))
    simpa using this
  rw [Kernel.refTotal, ← hcount, ← Finset.sum_add_distrib]
  exact Finset.sum_congr rfl (fun a _ => h.ref a)

/-- What a call keeps is what the files and the current directory account for. -/
lemma Own.balanced (h : Own base k.rest refs [] k) (h' : Own base rest refs' [] k')
    (hops : ∃ n ≤ 1, rest.begun = k.begun + n ∧ rest.ended = k.ended + n)
    (hentry : ∀ a, refs'.count a + (fileRefs k a + cwdRefs k a)
      = refs.count a + (fileRefs k' a + cwdRefs k' a))
    (htotal : refs'.length + openFiles k = refs.length + openFiles k') : Balanced k k' := by
  refine ⟨?_, fun a => ?_, fun a => ?_, ?_⟩
  · obtain ⟨n, hn, h1, h2⟩ := hops
    refine ⟨n, hn, ?_, ?_⟩
    · rw [← h1, ← h'.rest]; rfl
    · rw [← h2, ← h'.rest]; rfl
  · by_contra hl
    exact List.not_mem_nil ((h'.held a).mp (by simpa using hl))
  · have := hentry a
    rw [h.ref a, h'.ref a]
    omega
  · rw [h.refTotal, h'.refTotal]
    omega

lemma Done.balanced (h : Own base k.rest refs [] k) (h' : Done base k.rest refs [] k') :
    Balanced k k' := by
  have hsame : ∀ rest, rest.file = k.file → rest.proc = k.proc → rest.cur = k.cur →
      (∃ n ≤ 1, rest.begun = k.begun + n ∧ rest.ended = k.ended + n) →
      Own base rest refs [] k' → Balanced k k' := by
    intro rest h1 h2 h3 hops h'
    have hf : k'.file = k.file := by rw [← h1, ← h'.rest]; rfl
    have hp : k'.proc = k.proc := by rw [← h2, ← h'.rest]; rfl
    have hc : k'.cur = k.cur := by rw [← h3, ← h'.rest]; rfl
    refine h.balanced h' hops (fun a => ?_) ?_
    · rw [fileRefs, fileRefs, cwdRefs, cwdRefs, hf, hp, hc]
    · rw [openFiles, openFiles, hf]
  rcases h' with h' | h'
  · exact hsame _ rfl rfl rfl ⟨0, by omega, rfl, rfl⟩ h'
  · exact hsame _ rfl rfl rfl ⟨1, by omega, rfl, rfl⟩ h'

lemma card_filter_update (P : File → Prop) [DecidablePred P] {file : Nat → File} {f : Nat}
    {v : File} (hf : f < NFILE) (hno : ¬P (file f)) :
    ((Finset.range NFILE).filter (fun g => P (update file f v g))).card
      = ((Finset.range NFILE).filter (fun g => P (file g))).card + (if P v then 1 else 0) := by
  by_cases hv : P v
  · have hset : (Finset.range NFILE).filter (fun g => P (update file f v g))
        = insert f ((Finset.range NFILE).filter (fun g => P (file g))) := by
      ext g
      rw [Finset.mem_insert, Finset.mem_filter, Finset.mem_filter]
      by_cases hgf : g = f
      · subst hgf
        rw [update_self]
        exact ⟨fun _ => .inl rfl, fun _ => ⟨Finset.mem_range.mpr hf, hv⟩⟩
      · rw [update_of_ne hgf]
        exact ⟨.inr, fun h => h.resolve_left hgf⟩
    have hnew : f ∉ (Finset.range NFILE).filter (fun g => P (file g)) :=
      fun h => hno (Finset.mem_filter.mp h).2
    rw [hset, Finset.card_insert_of_notMem hnew, if_pos hv]
  · rw [if_neg hv, Nat.add_zero]
    congr 1
    refine Finset.filter_congr (fun g _ => ?_)
    by_cases hgf : g = f
    · subst hgf
      rw [update_self]
      exact ⟨fun h => absurd h hv, fun h => absurd h hno⟩
    · rw [update_of_ne hgf]

end Balanced

/-- **Main result.**  A system call that returns, with whatever result, has ended the
    transaction it began, holds no sleep-lock, and keeps exactly the references that
    belong to the file it opened or to the current directory. -/
theorem syscall_balanced (cfg : Config) (call : Syscall) (k k' : State) (r : Int)
    (hk : Entered k) (hrun : call.run cfg k = .ok (r, k')) : Balanced k k' := by
  have h0 : Own (fun a => (k.cache.inode a).ref) k.rest [] [] k :=
    ⟨fun a => by rw [List.count_nil, Nat.add_zero], fun a ha => absurd ha List.not_mem_nil,
      fun a => by rw [hk.unlocked a]; exact ⟨fun h => (nomatch h), fun h => absurd h List.not_mem_nil⟩,
      List.nodup_nil, rfl⟩
  have hcwd : (k.rest.proc k.rest.cur).cwd < NINODE := hk.cwd_lt
  cases call with
  | sysLink old new => exact Done.balanced h0 (SatS.of_ok (sysLink_ret h0 hcwd old new) hrun)
  | sysUnlink path => exact Done.balanced h0 (SatS.of_ok (sysUnlink_ret h0 hcwd path) hrun)
  | sysMkdir path => exact Done.balanced h0 (SatS.of_ok (makeNode_ret h0 hcwd path _ _ _) hrun)
  | sysMknod path major minor =>
    exact Done.balanced h0 (SatS.of_ok (sysMknod_ret h0 hcwd path major minor) hrun)
  | exec vm path argv => exact Done.balanced h0 (SatS.of_ok (exec_ret h0 hcwd vm path argv) hrun)
  | sysOpen path omode =>
    rcases SatS.of_ok (sysOpen_ret h0 hcwd hk.files path omode) hrun with hd |
      ⟨f, ip, v, proc, hf, hunused, hv1, hv2, hv3, hproc, h'⟩
    · exact Done.balanced h0 hd
    have hfile : k'.file = update k.file f v := by
      rw [show k'.file = k'.rest.file from rfl, h'.rest]
      rfl
    have hcwd' : (k'.proc k'.cur).cwd = (k.proc k.cur).cwd := by
      rwa [show k'.proc = k'.rest.proc from rfl, show k'.cur = k'.rest.cur from rfl, h'.rest]
    have hno : ¬(k.file f).OnInode := fun h => by
      have := h.1
      rw [show (k.file f).ref = 0 from hunused] at this
      exact nomatch this
    have hyes : v.OnInode := ⟨by omega, hv2⟩
    refine h0.balanced h' ⟨1, by omega, rfl, rfl⟩ (fun a => ?_) ?_
    · have hrefs : fileRefs k' a = fileRefs k a + (if v.OnInode ∧ v.ip = a then 1 else 0) := by
        have hno' : ¬((k.file f).OnInode ∧ (k.file f).ip = a) := fun h => hno h.1
        rw [fileRefs, fileRefs, hfile]
        exact card_filter_update (fun v => v.OnInode ∧ v.ip = a) hf hno'
      rw [hrefs, cwdRefs, cwdRefs, hcwd', count_singleton, List.count_nil, hv3]
      by_cases ha : a = ip
      · rw [if_pos ha, if_pos ⟨hyes, ha.symm⟩]
        omega
      · rw [if_neg ha, if_neg (fun h => ha h.2.symm)]
        omega
    · have hopen : openFiles k' = openFiles k + (if v.OnInode then 1 else 0) := by
        rw [openFiles, openFiles, hfile]
        exact card_filter_update File.OnInode hf hno
      rw [hopen, if_pos hyes]
      simp only [List.length_singleton, List.length_nil]
      omega
  | sysChdir path =>
    -- the reference to the current directory is one that the call can give back
    have h1 : Own (fun a => (k.cache.inode a).ref - [(k.proc k.cur).cwd].count a) k.rest
        [(k.rest.proc k.rest.cur).cwd] [] k := by
      refine ⟨fun a => ?_, fun a ha => ?_, h0.held, h0.nodup, rfl⟩
      · show _ = _ - [(k.proc k.cur).cwd].count a + [(k.proc k.cur).cwd].count a
        rw [count_singleton]
        by_cases ha : a = (k.proc k.cur).cwd
        · have := hk.cwd_ref
          rw [← ha] at this
          rw [if_pos ha]
          omega
        · rw [if_neg ha]
          omega
      · rwa [List.mem_singleton.mp ha]
    rcases SatS.of_ok (sysChdir_ret h1 hcwd path) hrun with hd | ⟨ip, proc, hproc, h'⟩
    · exact Done.balanced h1 hd
    have hfile : k'.file = k.file := by
      rw [show k'.file = k'.rest.file from rfl, h'.rest]
      rfl
    have hcwd' : (k'.proc k'.cur).cwd = ip := by
      rwa [show k'.proc = k'.rest.proc from rfl, show k'.cur = k'.rest.cur from rfl, h'.rest]
    refine h1.balanced h' ⟨1, by omega, rfl, rfl⟩ (fun a => ?_) ?_
    · rw [fileRefs, fileRefs, hfile, cwdRefs, cwdRefs, hcwd']
      show _ + (_ + [(k.proc k.cur).cwd].count a) = [(k.proc k.cur).cwd].count a + _
      omega
    · rw [openFiles, openFiles, hfile]
      rfl

/-- A kernel with an image of `mkfs`, and no device files. -/
def rootConfig : Config := ⟨Mkfs.sb, Ext2Layout.smallSuper, fun _ => ⟨none, none⟩, fun _ => 0⟩

/-- The first process on an image without host files. -/
def rootState : State := firstState ⟨Mkfs.rootImage, fun _ => none⟩ blankDevice

def createA : Syscall := .sysOpen (some [97]) (some (O_CREATE ||| O_WRONLY))

set_option maxRecDepth 4000 in
theorem syscall_balanced_createA :
    ∃ k', createA.run rootConfig rootState = .ok (0, k') ∧ Entered rootState ∧
      Balanced rootState k' ∧ openFiles k' = 1 := by
  have hok : (createA.run rootConfig rootState).map (fun r => (r.1, openFiles r.2)) = .ok (0, 1) := by
    decide +kernel
  have hentered : Entered rootState := ⟨fun _ => rfl, by decide, by decide, fun _ _ _ => rfl⟩
  cases hrun : createA.run rootConfig rootState with
  | error e => rw [hrun] at hok; exact nomatch hok
  | ok r =>
    obtain ⟨r, k'⟩ := r
    rw [hrun] at hok
    obtain ⟨rfl, hopen⟩ := ok_pair_inj hok
    exact ⟨k', rfl, hentered, syscall_balanced rootConfig createA rootState k' 0 hentered hrun,
      hopen⟩

end Kernel
