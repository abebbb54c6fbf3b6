import Xv6Ext2.BufCacheProofs
import Xv6Ext2.RunsProofs
import Xv6Ext2.SlotTableProofs

/-! # The process table (proc.c)

    `fork`, `exit`, `wait`, `kill` and the scheduler on the slots of `ptable`.  What runs
    under `ptable.lock` is one step, and so is each assignment that `fork` makes outside of
    it.  Slots are used again, so every `allocproc` starts a new life, numbered in the
    order of the calls; the history of the run is kept in terms of lives: the forks that
    returned, the lives that exited, and what `wait` returned to whom.

    - `family_kept` : children have a parent that can wait for them, and each of them is
      waited for at most once, by its parent or by init. -/

namespace Ptable

open BufCache Outcome Runs SlotTable

open Except (ok.inj)

open Function (update update_apply update_of_ne update_self)

open List (mem_append mem_append_left mem_singleton nodup_nil not_mem_nil)

def NPROC : Nat := 64

/-- The slot of `initproc`: `userinit` makes the first call of `allocproc`. -/
def INIT : Nat := 0

inductive PState where
  | unused
  | embryo
  | sleeping
  | runnable
  | running
  | zombie
  deriving DecidableEq

/-- What a process sleeps on: the slot of a process (in `wait`), or something else. -/
inductive Chan where
  | proc (p : Nat)
  | other (c : Nat)
  deriving DecidableEq

/-- The fields of `struct proc` that these functions use; `life` is the number of the life. -/
structure Proc where
  state  : PState
  pid    : Int
  parent : Option Nat
  killed : Bool
  chan   : Option Chan
  life   : Nat
  deriving DecidableEq

abbrev Table : Type := Nat → Proc

/-- Where a process is between two steps: in no call of these, in `fork` with the slot of the
    child (and whether the child has its parent), or asleep in `wait`. -/
inductive Pc where
  | user
  | forking (np : Nat) (parented : Bool)
  | waiting
  deriving DecidableEq

/-- A `fork` that returned `pid`: the life of the child, that of the caller, and `killed` of the
    child at this moment. -/
structure Fork where
  life   : Nat
  pid    : Int
  parent : Nat
  killed : Bool
  deriving DecidableEq

/-- A `wait` that returned `pid`: the life of the child and that of the caller. -/
structure Reap where
  life : Nat
  pid  : Int
  by_  : Nat
  deriving DecidableEq

/-- A `wait` that returned -1: whether the caller was killed, and the slots of its children at
    this moment. -/
structure NoChild where
  killed   : Bool
  children : List Nat
  deriving DecidableEq

structure State where
  proc    : Table
  nextpid : Int
  pc      : Nat → Pc
  allocs  : Nat
  forked  : List Fork
  exited  : List Nat
  reaped  : List Reap
  failed  : List NoChild

inductive Act where
  | schedule (p : Nat)
  | yield (p : Nat)
  | sleep (p c : Nat)
  | wakeup (c : Nat)
  | fault (p : Nat)
  | allocproc (p : Nat)
  /-- `kalloc` or `copyuvm` fails. -/
  | forkFails (p : Nat)
  | forkParent (p : Nat)
  | forkReturns (p : Nat)
  | exit (p : Nat)
  | wait (p : Nat)
  | kill (pid : Int)
  deriving DecidableEq

/-! ## The functions on the table -/

def Table.modify (T : Table) (q : Nat) (f : Proc → Proc) : Table := update T q (f (T q))

/-- Number of values of an `int`. -/
def INTS : Nat := 2 ^ 32

def incr (pid : Int) : Int := Int.bmod (pid + 1) INTS

def wakeup1 (c : Chan) (T : Table) : Table := fun q =>
  if q < NPROC ∧ (T q).state = .sleeping ∧ (T q).chan = some c then
    { T q with state := .runnable }
  else T q

def findUnused (T : Table) : Option Nat :=
  firstFrom (fun q => decide ((T q).state = .unused)) NPROC 0

/-- What `exit` does to the child in slot `q`. -/
def passChild (p : Nat) (T : Table) (q : Nat) : Table :=
  if (T q).parent = some p then
    let T' := T.modify q (fun x => { x with parent := some INIT })
    if (T q).state = .zombie then wakeup1 (.proc INIT) T' else T'
  else T

/-- `exit` under `ptable.lock`. -/
def exitLocked (p : Nat) (T : Table) : Table :=
  let T₁ := match (T p).parent with
    | some r => wakeup1 (.proc r) T
    | none => T
  ((List.range NPROC).foldl (passChild p) T₁).modify p (fun x => { x with state := .zombie })

/-- The first exited child that the scan of `wait` finds. -/
def findZombie (p : Nat) (T : Table) : Option Nat :=
  firstFrom (fun q => decide ((T q).parent = some p ∧ (T q).state = .zombie)) NPROC 0

/-- The slots whose parent is `p`; `havekids` if there is one. -/
def kids (p : Nat) (T : Table) : List Nat :=
  (List.range NPROC).filter (fun q => decide ((T q).parent = some p))

/-- `wait` clears the slot of the child. -/
def Proc.reap (x : Proc) : Proc :=
  { x with pid := 0, parent := none, killed := false, state := .unused }

def findPid (pid : Int) (T : Table) : Option Nat :=
  firstFrom (fun q => decide ((T q).pid = pid)) NPROC 0

/-- `kill` under `ptable.lock`, with its return value. -/
def kill (pid : Int) (T : Table) : Table × Int :=
  match findPid pid T with
  | some q => (T.modify q (fun x => { x with
      killed := true
      state  := if x.state = .sleeping then .runnable else x.state }), 0)
  | none => (T, -1)

/-! ## Steps -/

def State.setPc (s : State) (p : Nat) (pc : Pc) : State :=
  { s with pc := update s.pc p pc }

def State.modify (s : State) (q : Nat) (f : Proc → Proc) : State :=
  { s with proc := s.proc.modify q f }

/-- `wait` from the start of its scan. -/
def wait (p : Nat) (s : State) : State :=
  match findZombie p s.proc with
  | some q =>
    { (s.modify q Proc.reap).setPc p .user with
      reaped := s.reaped ++ [⟨(s.proc q).life, (s.proc q).pid, (s.proc p).life⟩] }
  | none =>
    if kids p s.proc = [] ∨ (s.proc p).killed = true then
      { s.setPc p .user with failed := s.failed ++ [⟨(s.proc p).killed, kids p s.proc⟩] }
    else (s.modify p (fun x =>
      { x with state := .sleeping, chan := some (.proc p) })).setPc p .waiting

/-- The child gets its slot and its pid. -/
def allocproc (p : Nat) (s : State) : State :=
  match findUnused s.proc with
  | none => s
  | some q =>
    { (s.modify q (fun x => { x with
        state := .embryo, pid := s.nextpid, life := s.allocs })).setPc p (.forking q false) with
      nextpid := incr s.nextpid
      allocs  := s.allocs + 1 }

/-- One step.  An action for which its process is not ready does nothing. -/
def step (s : State) : Act → Except Err State
  | .schedule p =>
    .ok (if (s.proc p).state = .runnable then
      s.modify p (fun x => { x with state := .running, chan := none }) else s)
  | .yield p =>
    .ok (if (s.proc p).state = .running then
      s.modify p (fun x => { x with state := .runnable }) else s)
  | .sleep p c =>
    .ok (if (s.proc p).state = .running ∧ s.pc p = .user then
      s.modify p (fun x => { x with state := .sleeping, chan := some (.other c) }) else s)
  | .wakeup c => .ok { s with proc := wakeup1 (.other c) s.proc }
  | .fault p =>
    .ok (if (s.proc p).state = .running then
      s.modify p (fun x => { x with killed := true }) else s)
  | .allocproc p =>
    .ok (if (s.proc p).state = .running ∧ s.pc p = .user then allocproc p s else s)
  | .forkFails p =>
    match s.pc p with
    | .forking q false =>
      .ok (if (s.proc p).state = .running then
        (s.modify q (fun x => { x with state := .unused })).setPc p .user else s)
    | _ => .ok s
  | .forkParent p =>
    match s.pc p with
    | .forking q false =>
      .ok (if (s.proc p).state = .running then
        (s.modify q (fun x => { x with parent := some p })).setPc p (.forking q true) else s)
    | _ => .ok s
  | .forkReturns p =>
    match s.pc p with
    | .forking q true =>
      .ok (if (s.proc p).state = .running then
        { ((s.modify q (fun x => { x with state := .runnable })).setPc q .user).setPc p .user with
          forked := s.forked ++
            [⟨(s.proc q).life, (s.proc q).pid, (s.proc p).life, (s.proc q).killed⟩] }
      else s)
    | _ => .ok s
  | .exit p =>
    if (s.proc p).state = .running ∧ s.pc p = .user then
      if p = INIT then .error (.panic "init exiting")
      else .ok { s with proc := exitLocked p s.proc, exited := s.exited ++ [(s.proc p).life] }
    else .ok s
  | .wait p =>
    .ok (if (s.proc p).state = .running ∧ (s.pc p = .user ∨ s.pc p = .waiting) then wait p s
      else s)
  | .kill pid => .ok { s with proc := (kill pid s.proc).1 }

/-- After `userinit`: init is RUNNABLE in the first slot with pid 1. -/
def start : State where
  proc    := fun q =>
    if q = INIT then ⟨.runnable, 1, none, false, none, 0⟩ else ⟨.unused, 0, none, false, none, 0⟩
  nextpid := 2
  pc      := fun _ => .user
  allocs  := 1
  forked  := []
  exited  := []
  reaped  := []
  failed  := []

/-! ## What the functions change -/

lemma Table.modify_self (T : Table) (q : Nat) (f : Proc → Proc) : T.modify q f q = f (T q) :=
  update_self _ _ _

lemma Table.modify_ne (T : Table) {q r : Nat} (f : Proc → Proc) (h : r ≠ q) :
    T.modify q f r = T r := update_of_ne h _ _

/-- A process that can run again. -/
def PState.active : PState → Bool
  | .sleeping => true
  | .runnable => true
  | .running => true
  | _ => false

/-- A change of the table that leaves the lives as they are: flags, channels, parents, and which
    of the active states a process is in. -/
def Same (T T' : Table) : Prop :=
  ∀ q, (T' q).pid = (T q).pid ∧ (T' q).life = (T q).life ∧
    ((T' q).state = (T q).state ∨ (T q).state.active = true ∧ (T' q).state.active = true)

lemma Same.refl (T : Table) : Same T T := fun _ => ⟨rfl, rfl, .inl rfl⟩

variable {T T' T'' : Table}

lemma Same.trans (h : Same T T') (h' : Same T' T'') : Same T T'' := by
  intro q
  refine ⟨(h' q).1.trans (h q).1, (h' q).2.1.trans (h q).2.1, ?_⟩
  rcases (h' q).2.2 with hs | ⟨ha, hs⟩
  · rw [hs]
    exact (h q).2.2
  rcases (h q).2.2 with hs' | ⟨ha', -⟩
  · exact .inr ⟨hs' ▸ ha, hs⟩
  · exact .inr ⟨ha', hs⟩

variable {f : Proc → Proc}

lemma Same.modify (T : Table) (p : Nat) (hpid : (f (T p)).pid = (T p).pid)
    (hlife : (f (T p)).life = (T p).life) (hstate : (f (T p)).state = (T p).state ∨
      (T p).state.active = true ∧ (f (T p)).state.active = true) : Same T (T.modify p f) := by
  intro q
  by_cases hq : q = p
  · rw [hq, Table.modify_self]
    exact ⟨hpid, hlife, hstate⟩
  · rw [Table.modify_ne T f hq]
    exact ⟨rfl, rfl, .inl rfl⟩

/-- A change that leaves the parents as well. -/
structure Quiet (T T' : Table) : Prop where
  same   : Same T T'
  parent : ∀ q, (T' q).parent = (T q).parent

lemma Quiet.modify (T : Table) (p : Nat) (hpid : (f (T p)).pid = (T p).pid)
    (hlife : (f (T p)).life = (T p).life) (hparent : (f (T p)).parent = (T p).parent)
    (hstate : (f (T p)).state = (T p).state ∨
      (T p).state.active = true ∧ (f (T p)).state.active = true) : Quiet T (T.modify p f) := by
  refine ⟨Same.modify T p hpid hlife hstate, fun q => ?_⟩
  by_cases hq : q = p
  · rwa [hq, Table.modify_self]
  · rw [Table.modify_ne T f hq]

lemma wakeup1_cases (c : Chan) (T : Table) (q : Nat) : wakeup1 c T q = T q ∨
    (T q).state = .sleeping ∧ wakeup1 c T q = { T q with state := .runnable } := by
  rw [wakeup1]
  split
  · next h => exact .inr ⟨h.2.1, rfl⟩
  · exact .inl rfl

lemma Quiet.wakeup1 (c : Chan) (T : Table) : Quiet T (wakeup1 c T) := by
  refine ⟨fun q => ?_, fun q => ?_⟩ <;> rcases wakeup1_cases c T q with hq | ⟨hs, hq⟩ <;> rw [hq]
  · exact ⟨rfl, rfl, .inl rfl⟩
  · exact ⟨rfl, rfl, .inr ⟨by rw [hs]; rfl, rfl⟩⟩

/-- `kill` changes the flag of the first slot with the pid, and wakes the process. -/
lemma Quiet.kill (pid : Int) (T : Table) : Quiet T (kill pid T).1 := by
  rw [Ptable.kill]
  cases findPid pid T with
  | none => exact ⟨Same.refl T, fun _ => rfl⟩
  | some q =>
    dsimp only
    refine Quiet.modify T q rfl rfl rfl ?_
    by_cases hs : (T q).state = .sleeping
    · exact .inr ⟨by rw [hs]; rfl, by dsimp only; rw [if_pos hs]; rfl⟩
    · exact .inl (by dsimp only; rw [if_neg hs])

/-- The children of `p` in the first `n` slots have gone to init; nothing else has changed for
    the families. -/
structure Passed (p n : Nat) (T T' : Table) : Prop where
  same   : Same T T'
  parent : ∀ q, (T' q).parent = if q < n ∧ (T q).parent = some p then some INIT else (T q).parent

lemma Passed.quiet {p n : Nat} (h : Passed p n T T') (hq : Quiet T' T'') : Passed p n T T'' :=
  ⟨h.same.trans hq.same, fun q => (hq.parent q).trans (h.parent q)⟩

lemma Passed.succ {p n : Nat} (h : Passed p n T T') : Passed p (n + 1) T (passChild p T' n) := by
  have hn : (T' n).parent = (T n).parent := by
    rw [h.parent n, if_neg (fun hlt => Nat.lt_irrefl n hlt.1)]
  rw [passChild]
  split
  · next hc =>
    have hone : Passed p (n + 1) T (T'.modify n (fun x => { x with parent := some INIT })) := by
      refine ⟨h.same.trans (Same.modify T' n rfl rfl (.inl rfl)), fun q => ?_⟩
      by_cases hq : q = n
      · rw [hq, Table.modify_self, if_pos ⟨Nat.lt_succ_self n, hn ▸ hc⟩]
      · rw [Table.modify_ne _ _ hq, h.parent q]
        exact if_congr (and_congr_left' (by omega)) rfl rfl
    dsimp only
    split
    · exact hone.quiet (Quiet.wakeup1 _ _)
    · exact hone
  · next hc =>
    refine ⟨h.same, fun q => ?_⟩
    rw [h.parent q]
    by_cases hq : q = n
    · subst hq
      rw [if_neg (fun hlt => Nat.lt_irrefl q hlt.1), if_neg (fun hlt => hc (hn.trans hlt.2))]
    · exact if_congr (and_congr_left' (by omega)) rfl rfl

/-- What `exit` leaves: the children are init's, and the process is a ZOMBIE. -/
lemma exitLocked_spec (p : Nat) (T : Table) : ∃ T', Passed p NPROC T T' ∧
    exitLocked p T = T'.modify p (fun x => { x with state := .zombie }) := by
  have hfold : ∀ n T₁, Passed p 0 T T₁ → Passed p n T ((List.range n).foldl (passChild p) T₁) := by
    intro n T₁ h₁
    induction n with
    | zero => exact h₁
    | succ n ih =>
      rw [List.range_succ, List.foldl_append]
      exact ih.succ
  have hnone : Passed p 0 T T :=
    ⟨Same.refl T, fun q => by rw [if_neg (fun h => Nat.not_lt_zero q h.1)]⟩
  refine ⟨_, hfold NPROC _ ?_, rfl⟩
  cases (T p).parent with
  | none => exact hnone
  | some r => exact hnone.quiet (Quiet.wakeup1 _ _)

/-! ## The invariant -/

/-- The pid of a life: `nextpid` counts the lives and wraps. -/
def pidOf (life : Nat) : Int := Int.bmod (life + 1) INTS

lemma incr_pidOf (life : Nat) : incr (pidOf life) = pidOf (life + 1) := by
  rw [incr, pidOf, pidOf, Int.bmod_add_bmod, Int.natCast_add]
  rfl

/-- A process that was forked and not yet waited for. -/
def PState.live (st : PState) : Bool := st.active || decide (st = .zombie)

/-- The slots and the calls of `fork` in progress. -/
structure Slots (T : Table) (pc : Nat → Pc) : Prop where
  slots   : ∀ q, (T q).state ≠ .unused → q < NPROC
  init    : (T INIT).state.active = true ∧ (T INIT).parent = none
  orphan  : ∀ q, (T q).state = .unused → (T q).parent = none
  forking : ∀ p q b, pc p = .forking q b → (T p).state.active = true ∧ (T q).state = .embryo ∧
    (T q).parent = if b = true then some p else none
  unique  : ∀ p p' q b b', pc p = .forking q b → pc p' = .forking q b' → p = p'

/-- Slots in use have lives of their own, and the lives that exited are ZOMBIE until they are
    waited for. -/
structure Lives (T : Table) (nextpid : Int) (allocs : Nat) (exited : List Nat) : Prop where
  init    : (T INIT).life = 0
  lt      : ∀ q, (T q).state ≠ .unused → (T q).life < allocs
  inj     : ∀ q q', (T q).state ≠ .unused → (T q').state ≠ .unused →
    (T q).life = (T q').life → q = q'
  pid     : ∀ q, (T q).state ≠ .unused → (T q).pid = pidOf (T q).life
  nextpid : nextpid = pidOf allocs
  zombie  : ∀ q, (T q).state ≠ .unused → ((T q).life ∈ exited ↔ (T q).state = .zombie)
  past    : ∀ l ∈ exited, l < allocs

/-- Who may wait for the child of a fork: the caller, or init once the caller has exited. -/
def Heir (exited : List Nat) (f : Fork) (l : Nat) : Prop :=
  l = f.parent ∨ l = 0 ∧ f.parent ∈ exited

/-- The process in slot `q` has a parent that can wait for it. -/
def Cared (T : Table) (forked : List Fork) (exited : List Nat) (q : Nat) : Prop :=
  ∃ r, (T q).parent = some r ∧ (T r).state.active = true ∧
    ∃ f ∈ forked, f.life = (T q).life ∧ f.pid = (T q).pid ∧ Heir exited f (T r).life

/-- The forks that returned, and the children that were waited for. -/
structure History (T : Table) (allocs : Nat) (forked : List Fork) (exited : List Nat)
    (reaped : List Reap) : Prop where
  child    : ∀ q, (T q).state.live = true → q ≠ INIT → Cared T forked exited q
  numbered : ∀ f ∈ forked, f.life < allocs ∧ f.pid = pidOf f.life
  unforked : ∀ q, (T q).state = .embryo → ∀ f ∈ forked, f.life ≠ (T q).life
  once     : (forked.map Fork.life).Nodup
  waited   : ∀ r ∈ reaped, r.life ∈ exited ∧
    (∀ q, (T q).state ≠ .unused → (T q).life ≠ r.life) ∧
    ∃ f ∈ forked, f.life = r.life ∧ f.pid = r.pid ∧ Heir exited f r.by_
  nodup    : (reaped.map Reap.life).Nodup

structure Inv (s : State) : Prop where
  slots   : Slots s.proc s.pc
  lives   : Lives s.proc s.nextpid s.allocs s.exited
  history : History s.proc s.allocs s.forked s.exited s.reaped
  failed  : ∀ w ∈ s.failed, w.killed = false → w.children = []

variable {s s' : State} {T T' : Table} {pc : Nat → Pc} {p q : Nat}
variable {nextpid : Int} {allocs : Nat} {forked : List Fork} {exited : List Nat}
variable {reaped : List Reap}

lemma PState.used_of_active {st : PState} (h : st.active = true) : st ≠ .unused := by
  rintro rfl
  exact nomatch h

lemma PState.used_of_live {st : PState} (h : st.live = true) : st ≠ .unused := by
  rintro rfl
  exact nomatch h

variable {exited' : List Nat}

lemma Heir.mono {f : Fork} {l : Nat} (h : Heir exited f l)
    (hsub : ∀ l ∈ exited, l ∈ exited') : Heir exited' f l :=
  h.imp_right (fun h => ⟨h.1, hsub _ h.2⟩)

/-- A change of the table under which slots in use keep their lives and active processes stay
    active. -/
structure Keeps (T T' : Table) : Prop where
  used   : ∀ q, (T' q).state ≠ .unused → (T q).state ≠ .unused ∧ (T' q).life = (T q).life ∧
    (T' q).pid = (T q).pid
  active : ∀ q, (T q).state.active = true → (T' q).state.active = true ∧ (T' q).life = (T q).life
  embryo : ∀ q, (T' q).state = .embryo → (T q).state = .embryo

lemma Lives.keeps (h : Lives T nextpid allocs exited) (hk : Keeps T T')
    (hinit : (T INIT).state.active = true)
    (hz : ∀ q, (T' q).state ≠ .unused → ((T' q).state = .zombie ↔ (T q).state = .zombie)) :
    Lives T' nextpid allocs exited := by
  refine ⟨?_, fun q hq => ?_, fun q q' hq hq' e => ?_, fun q hq => ?_, h.nextpid, fun q hq => ?_,
    h.past⟩
  · rw [(hk.active INIT hinit).2]
    exact h.init
  · obtain ⟨hu, hlife, -⟩ := hk.used q hq
    rw [hlife]
    exact h.lt q hu
  · obtain ⟨hu, hlife, -⟩ := hk.used q hq
    obtain ⟨hu', hlife', -⟩ := hk.used q' hq'
    rw [hlife, hlife'] at e
    exact h.inj q q' hu hu' e
  · obtain ⟨hu, hlife, hpid⟩ := hk.used q hq
    rw [hlife, hpid]
    exact h.pid q hu
  · obtain ⟨hu, hlife, -⟩ := hk.used q hq
    rw [hlife, hz q hq]
    exact h.zombie q hu

lemma Cared.keeps {forked' : List Fork} (h : Cared T forked exited q)
    (hk : Keeps T T') (hu : (T' q).state ≠ .unused) (hparent : (T' q).parent = (T q).parent)
    (hf : ∀ f ∈ forked, f ∈ forked') (he : ∀ l ∈ exited, l ∈ exited') :
    Cared T' forked' exited' q := by
  obtain ⟨r, hr, hact, f, hmem, hlife, hpid, hheir⟩ := h
  obtain ⟨-, hlife', hpid'⟩ := hk.used q hu
  obtain ⟨hact', hr'⟩ := hk.active r hact
  refine ⟨r, hparent.trans hr, hact', f, hf f hmem, hlife.trans hlife'.symm, hpid.trans hpid'.symm, ?_⟩
  rw [hr']
  exact hheir.mono he

lemma History.keeps (h : History T allocs forked exited reaped) (hk : Keeps T T')
    (hlive : ∀ q, (T' q).state.live = true →
      (T q).state.live = true ∧ (T' q).parent = (T q).parent) :
    History T' allocs forked exited reaped := by
  refine ⟨fun q hq hne => ?_, h.numbered, fun q hq f hf => ?_, h.once, fun w hw => ?_, h.nodup⟩
  · obtain ⟨hl, hparent⟩ := hlive q hq
    exact (h.child q hl hne).keeps hk (PState.used_of_live hq) hparent (fun _ => id) (fun _ => id)
  · have hu : (T' q).state ≠ .unused := by
      rw [hq]
      exact nofun
    rw [(hk.used q hu).2.1]
    exact h.unforked q (hk.embryo q hq) f hf
  · obtain ⟨h1, h2, h3⟩ := h.waited w hw
    refine ⟨h1, fun q hq => ?_, h3⟩
    obtain ⟨hu, hlife, -⟩ := hk.used q hq
    rw [hlife]
    exact h2 q hu

section Same

variable (h : Same T T')

include h

lemma Same.active (q : Nat) : (T' q).state.active = (T q).state.active := by
  rcases (h q).2.2 with hs | ⟨h1, h2⟩
  · rw [hs]
  · rw [h1, h2]

lemma Same.state_iff {st : PState} (hst : st.active = false) (q : Nat) :
    (T' q).state = st ↔ (T q).state = st := by
  rcases (h q).2.2 with hs | ⟨h1, h2⟩
  · rw [hs]
  constructor
  · intro he
    rw [he, hst] at h2
    exact nomatch h2
  · intro he
    rw [he, hst] at h1
    exact nomatch h1

lemma Same.live (q : Nat) : (T' q).state.live = (T q).state.live := by
  rw [PState.live, PState.live, h.active q]
  congr 1
  exact decide_eq_decide.mpr (h.state_iff rfl q)

lemma Same.used (q : Nat) : (T' q).state ≠ .unused ↔ (T q).state ≠ .unused :=
  not_congr (h.state_iff rfl q)

lemma Same.keeps : Keeps T T' := ⟨fun q hq => ⟨(h.used q).mp hq, (h q).2.1, (h q).1⟩,
    fun q hq => ⟨(h.active q).trans hq, (h q).2.1⟩, fun q => (h.state_iff rfl q).mp⟩

end Same

lemma Slots.quiet (h : Quiet T T') (hs : Slots T pc) : Slots T' pc := by
  refine ⟨fun q hq => hs.slots q ((h.same.used q).mp hq), ?_, fun q hq => ?_, fun p q b hp => ?_,
    hs.unique⟩
  · rw [h.same.active, h.parent]
    exact hs.init
  · rw [h.parent]
    exact hs.orphan q ((h.same.state_iff rfl q).mp hq)
  · rw [h.same.active, h.same.state_iff rfl, h.parent]
    exact hs.forking p q b hp

/-- A quiet change of the table keeps the invariant. -/
lemma Inv.quiet (h : Inv s) (hq : Quiet s.proc T') : Inv { s with proc := T' } :=
  ⟨h.slots.quiet hq, h.lives.keeps hq.same.keeps h.slots.init.1 (fun q _ => hq.same.state_iff rfl q),
    h.history.keeps hq.same.keeps (fun q hl => ⟨hq.same.live q ▸ hl, hq.parent q⟩), h.failed⟩

lemma Inv.setPc (h : Inv s) {c : Pc} (hc : ∀ q b, c ≠ .forking q b) : Inv (s.setPc p c) := by
  have hsub : ∀ r q b, update s.pc p c r = .forking q b → s.pc r = .forking q b := by
    intro r q b hr
    by_cases hrp : r = p
    · rw [hrp, update_self] at hr
      exact absurd hr (hc q b)
    · rwa [update_of_ne hrp] at hr
  exact ⟨⟨h.slots.slots, h.slots.init, h.slots.orphan,
    fun r q b hr => h.slots.forking r q b (hsub r q b hr),
    fun r r' q b b' hr hr' => h.slots.unique r r' q b b' (hsub r q b hr) (hsub r' q b' hr')⟩,
    h.lives, h.history, h.failed⟩

/-! ## fork -/

variable {x : Proc}

lemma Slots.alloc (h : Slots T pc) (hp : (T p).state.active = true)
    (hlt : q < NPROC) (hq : (T q).state = .unused) (hx : x.state = .embryo)
    (hpar : x.parent = (T q).parent) : Slots (update T q x) (update pc p (.forking q false)) := by
  obtain ⟨hslots, hinit, horphan, hforking, hunique⟩ := h
  constructor <;> simp only [update_apply] <;> grind [PState.active]

lemma Lives.alloc (h : Lives T nextpid allocs exited) (hinit : INIT ≠ q) (hx : x.state = .embryo)
    (hpid : x.pid = nextpid) (hlife : x.life = allocs) :
    Lives (update T q x) (incr nextpid) (allocs + 1) exited := by
  obtain ⟨hfirst, hold, hinj, hpids, hnext, hzombie, hpast⟩ := h
  refine ⟨?_, ?_, ?_, ?_, by rw [hnext, incr_pidOf], ?_, fun l hl => Nat.lt_succ_of_lt (hpast l hl)⟩ <;>
    simp only [update_apply] <;> grind

lemma Slots.init_ne (h : Slots T pc) (hq : (T q).state.active = false) : INIT ≠ q := by
  rintro rfl
  rw [h.init.1] at hq
  exact nomatch hq

lemma History.alloc (h : History T allocs forked exited reaped)
    (hl : Lives T nextpid allocs exited) (hq : (T q).state = .unused) (hx : x.state = .embryo)
    (hlife : x.life = allocs) : History (update T q x) (allocs + 1) forked exited reaped := by
  obtain ⟨hchild, hnumbered, hunforked, honce, hwaited, hnodup⟩ := h
  have hpast := hl.past
  refine ⟨?_, ?_, ?_, honce, ?_, hnodup⟩ <;> simp only [update_apply, Cared] at * <;>
    grind [PState.active, PState.live]

lemma Inv.allocproc (h : Inv s) (hp : (s.proc p).state = .running) :
    Inv (allocproc p s) := by
  rw [Ptable.allocproc]
  cases hfind : findUnused s.proc with
  | none => exact h
  | some q =>
    obtain ⟨-, hlt, hq⟩ := firstFrom_some hfind
    replace hq : (s.proc q).state = .unused := of_decide_eq_true hq
    rw [Nat.zero_add] at hlt
    have hinit : INIT ≠ q := h.slots.init_ne (by rw [hq]; rfl)
    have hact : (s.proc p).state.active = true := by rw [hp]; rfl
    exact ⟨h.slots.alloc hact hlt hq rfl rfl, h.lives.alloc hinit rfl rfl rfl,
      h.history.alloc h.lives hq rfl rfl, h.failed⟩

/-- A slot that no live process depends on is emptied: a child whose `fork` failed, or one that
    was waited for. -/
lemma Inv.clear (h : Inv s) (hstate : x.state = .unused) (hparent : x.parent = none)
    (hq : (s.proc q).state.active = false) (hfree : ∀ r b, s.pc r ≠ .forking q b) :
    Inv { s with proc := update s.proc q x } := by
  obtain ⟨⟨hslots, hinit, horphan, hforking, hunique⟩, hl, hh, hfailed⟩ := h
  have hk : Keeps s.proc (update s.proc q x) := by
    constructor <;> simp only [update_apply] <;> grind
  refine ⟨?_, hl.keeps hk hinit.1 ?_, hh.keeps hk ?_, hfailed⟩
  · constructor <;> simp only [update_apply] <;> grind
  · simp only [update_apply]
    grind
  · simp only [update_apply]
    grind [PState.live, PState.active]

lemma Inv.forkFails (h : Inv s) (hp : s.pc p = .forking q false) :
    Inv ((s.modify q (fun x => { x with state := .unused })).setPc p .user) := by
  obtain ⟨-, hq, hpar⟩ := h.slots.forking p q false hp
  have h1 : Inv (s.setPc p .user) := h.setPc (fun _ _ he => (nomatch he))
  refine h1.clear (q := q) rfl hpar (hq ▸ rfl : (s.proc q).state.active = false) (fun r b hr => ?_)
  -- the process that forks into the slot has just given up
  replace hr : update s.pc p .user r = .forking q b := hr
  by_cases hrp : r = p
  · rw [hrp, update_self] at hr
    exact nomatch hr
  · rw [update_of_ne hrp] at hr
    exact hrp (h.slots.unique r p q b false hr hp)

lemma Inv.forkParent (h : Inv s) (hp : s.pc p = .forking q false) :
    Inv ((s.modify q (fun x => { x with parent := some p })).setPc p (.forking q true)) := by
  obtain ⟨hact, hq, -⟩ := h.slots.forking p q false hp
  have hk : Keeps s.proc (s.proc.modify q (fun x => { x with parent := some p })) :=
    (Same.modify s.proc q rfl rfl (.inl rfl)).keeps
  obtain ⟨hslots, hinit, horphan, hforking, hunique⟩ := h.slots
  refine ⟨?_, h.lives.keeps hk hinit.1 ?_, h.history.keeps hk ?_, h.failed⟩
  · constructor <;> simp only [State.setPc, State.modify, Table.modify, update_apply] <;>
      grind [PState.active]
  · simp only [State.setPc, State.modify, Table.modify, update_apply]
    grind
  · simp only [State.setPc, State.modify, Table.modify, update_apply]
    grind [PState.live, PState.active]

lemma Inv.forkReturns (h : Inv s) (hp : s.pc p = .forking q true) :
    Inv { ((s.modify q (fun x => { x with state := .runnable })).setPc q .user).setPc p .user with
      forked := s.forked ++
        [⟨(s.proc q).life, (s.proc q).pid, (s.proc p).life, (s.proc q).killed⟩] } := by
  obtain ⟨hact, hq, hpar⟩ := h.slots.forking p q true hp
  have hk : Keeps s.proc (s.proc.modify q (fun x => { x with state := .runnable })) := by
    constructor <;> simp only [Table.modify, update_apply] <;> grind [PState.active]
  obtain ⟨hslots, hinit, horphan, hforking, hunique⟩ := h.slots
  obtain ⟨hchild, hnumbered, hunforked, honce, hwaited, hnodup⟩ := h.history
  have hlives := h.lives
  refine ⟨?_, hlives.keeps hk hinit.1 ?_, ⟨fun r hr hri => ?_, ?_, ?_, ?_, ?_, hnodup⟩, h.failed⟩
  · constructor <;> simp only [State.setPc, State.modify, Table.modify, update_apply] <;>
      grind [PState.active]
  · simp only [State.setPc, State.modify, Table.modify, update_apply]
    grind
  · by_cases hrq : r = q
    · -- the new child
      subst hrq
      have hself := Table.modify_self s.proc r (fun x => { x with state := .runnable })
      exact ⟨p, (congrArg Proc.parent hself).trans hpar, (hk.active p hact).1, _,
        List.mem_append_right _ List.mem_cons_self, (congrArg Proc.life hself).symm,
        (congrArg Proc.pid hself).symm, .inl (hk.active p hact).2⟩
    · have hsame : s.proc.modify q (fun x => { x with state := .runnable }) r = s.proc r :=
        Table.modify_ne _ _ hrq
      exact (hchild r (hsame ▸ hr) hri).keeps hk (PState.used_of_live hr)
        (congrArg Proc.parent hsame) (fun f hf => mem_append_left _ hf) (fun _ => id)
  all_goals
    obtain ⟨-, hlt, hinj, hpid, -⟩ := hlives
    simp only [State.setPc, State.modify, Table.modify, update_apply]
  · grind
  · grind
  · grind [List.nodup_append]
  · grind

/-! ## exit and wait -/

/-- What `exit` of `p` does to the families: its children are init's, and it is a ZOMBIE. -/
structure Exits (p : Nat) (T T' : Table) : Prop where
  life   : ∀ r, (T' r).life = (T r).life ∧ (T' r).pid = (T r).pid
  parent : ∀ r, (T' r).parent = if r < NPROC ∧ (T r).parent = some p then some INIT
    else (T r).parent
  self   : (T' p).state = .zombie
  other  : ∀ r, r ≠ p → (T' r).state.active = (T r).state.active ∧
    ∀ st, st.active = false → ((T' r).state = st ↔ (T r).state = st)

lemma exitLocked_exits (p : Nat) (T : Table) : Exits p T (exitLocked p T) := by
  obtain ⟨T₁, hpass, heq⟩ := exitLocked_spec p T
  have hself : exitLocked p T p = { T₁ p with state := .zombie } := heq ▸ Table.modify_self _ _ _
  have hother : ∀ r, r ≠ p → exitLocked p T r = T₁ r := fun r hr => heq ▸ Table.modify_ne _ _ hr
  refine ⟨fun r => ?_, fun r => ?_, by rw [hself], fun r hr => ?_⟩
  · by_cases hrp : r = p
    · rw [hrp, hself]
      exact ⟨(hpass.same p).2.1, (hpass.same p).1⟩
    · rw [hother r hrp]
      exact ⟨(hpass.same r).2.1, (hpass.same r).1⟩
  · by_cases hrp : r = p
    · rw [hrp, hself]
      exact hpass.parent p
    · rw [hother r hrp]
      exact hpass.parent r
  · rw [hother r hr]
    exact ⟨hpass.same.active r, fun st hst => hpass.same.state_iff hst r⟩

section Exits

variable (he : Exits p T T') (hp : (T p).state = .running) (hinit : p ≠ INIT)

include he hp

lemma Exits.used (r : Nat) : (T' r).state = .unused ↔ (T r).state = .unused := by
  have h := he.other r
  have hself := he.self
  grind [PState.active]

lemma Exits.embryo (r : Nat) : (T' r).state = .embryo ↔ (T r).state = .embryo := by
  have h := he.other r
  have hself := he.self
  grind [PState.active]

omit hp in
lemma Exits.zombie (r : Nat) : (T' r).state = .zombie ↔ (T r).state = .zombie ∨ r = p := by
  have h := he.other r
  have hself := he.self
  grind [PState.active]

include hinit

lemma Slots.exits (h : Slots T pc) (huser : pc p = .user) : Slots T' pc := by
  obtain ⟨hslots, hfirst, horphan, hforking, hunique⟩ := h
  have hused := he.used hp
  have hembryo := he.embryo hp
  have hparent := he.parent
  have hactive : ∀ r, r ≠ p → (T' r).state.active = (T r).state.active := fun r hr => (he.other r hr).1
  clear he
  constructor <;> grind

omit hinit in
lemma Lives.exits (h : Lives T nextpid allocs exited) :
    Lives T' nextpid allocs (exited ++ [(T p).life]) := by
  obtain ⟨hfirst, hlt, hinj, hpid, hnext, hzombie, hpast⟩ := h
  have hused := he.used hp
  have hz := he.zombie
  have hlife := he.life
  clear he
  constructor <;> grind

lemma History.exits (h : History T allocs forked exited reaped) (hs : Slots T pc)
    (hl : Lives T nextpid allocs exited) :
    History T' allocs forked (exited ++ [(T p).life]) reaped := by
  obtain ⟨hchild, hnumbered, hunforked, honce, hwaited, hnodup⟩ := h
  have hused := he.used hp
  have hembryo := he.embryo hp
  have hz := he.zombie
  have hlife := he.life
  have hparent := he.parent
  have hactive : ∀ r, r ≠ p → (T' r).state.active = (T r).state.active := fun r hr => (he.other r hr).1
  have hmono : ∀ f l, Heir exited f l → Heir (exited ++ [(T p).life]) f l := fun f l hf =>
    hf.mono (fun _ => mem_append_left _)
  refine ⟨fun r hr hri => ?_, hnumbered, ?_, honce, ?_, hnodup⟩
  · have hlive : (T r).state.live = true := by
      have h := he.other r
      grind [PState.live, PState.active]
    obtain ⟨t, ht, hta, f, hf, h1, h2, h3⟩ := hchild r hlive hri
    have hfirst := hs.init
    have hslot := hs.slots r (PState.used_of_live hlive)
    by_cases htp : t = p
    · -- a child of the process that exits is init's now
      refine ⟨INIT, ?_, ?_, f, hf, ?_, ?_, .inr ?_⟩
      · grind
      · grind
      · grind
      · grind
      · have := hl.init
        have := hl.inj
        grind [Heir, PState.active]
    · exact ⟨t, by grind, by grind, f, hf, by grind, by grind, by grind⟩
  · grind
  · grind

end Exits

lemma Inv.exit (h : Inv s) (hinit : p ≠ INIT) (hp : (s.proc p).state = .running)
    (huser : s.pc p = .user) :
    Inv { s with proc := exitLocked p s.proc, exited := s.exited ++ [(s.proc p).life] } := by
  have he := exitLocked_exits p s.proc
  exact ⟨h.slots.exits he hp hinit huser, h.lives.exits he hp,
    h.history.exits he hp hinit h.slots h.lives, h.failed⟩

lemma Inv.wait (h : Inv s) (hp : (s.proc p).state = .running) : Inv (wait p s) := by
  rw [Ptable.wait]
  cases hz : findZombie p s.proc with
  | some q =>
    obtain ⟨-, -, hq⟩ := firstFrom_some hz
    obtain ⟨hpar, hq⟩ := of_decide_eq_true hq
    have hu : (s.proc q).state ≠ .unused := by
      rw [hq]
      exact nofun
    have hinit : q ≠ INIT := by
      rintro rfl
      rw [h.slots.init.2] at hpar
      exact nomatch hpar
    have h1 : Inv (s.setPc p .user) := h.setPc (fun _ _ he => (nomatch he))
    have h2 : Inv ((s.modify q Proc.reap).setPc p .user) := by
      refine h1.clear (q := q) rfl rfl (hq ▸ rfl : (s.proc q).state.active = false)
        (fun r b hr => ?_)
      have hbad : PState.embryo = .zombie := (h1.slots.forking r q b hr).2.1.symm.trans hq
      exact nomatch hbad
    obtain ⟨r, hr, -, f, hf, hfl, hfp, hheir⟩ := h.history.child q (by rw [hq]; rfl) hinit
    obtain rfl := Option.some.inj (hpar.symm.trans hr)
    -- no slot in use has the life of the child any more
    have hgone : ∀ r, (s.proc.modify q Proc.reap r).state ≠ .unused →
        (s.proc.modify q Proc.reap r).life ≠ (s.proc q).life := by
      intro r hr e
      by_cases hrq : r = q
      · rw [hrq, Table.modify_self] at hr
        exact hr rfl
      · rw [Table.modify_ne _ _ hrq] at hr e
        exact hrq (h.lives.inj r q hr hu e)
    refine ⟨h2.slots, h2.lives, ⟨h2.history.child, h2.history.numbered, h2.history.unforked,
      h2.history.once, fun w hw => ?_, ?_⟩, h.failed⟩
    · rcases mem_append.mp hw with hw | hw
      · exact h2.history.waited w hw
      · rw [mem_singleton.mp hw]
        exact ⟨(h.lives.zombie q hu).mpr hq, hgone, f, hf, hfl, hfp, hheir⟩
    · show ((s.reaped ++ [_]).map Reap.life).Nodup
      rw [List.map_append, List.nodup_append]
      refine ⟨h.history.nodup, List.nodup_cons.mpr ⟨not_mem_nil, nodup_nil⟩,
        fun l hl l' hl' e => ?_⟩
      obtain ⟨w, hw, rfl⟩ := List.mem_map.mp hl
      rw [List.map_singleton, mem_singleton] at hl'
      exact (h.history.waited w hw).2.1 q hu (e.trans hl').symm
  | none =>
    dsimp only
    split
    · next hc =>
      have h1 : Inv (s.setPc p .user) := h.setPc (fun _ _ he => (nomatch he))
      refine ⟨h1.slots, h1.lives, h1.history, fun w hw hk => ?_⟩
      rcases mem_append.mp hw with hw | hw
      · exact h.failed w hw hk
      rw [mem_singleton.mp hw] at hk ⊢
      refine hc.resolve_right (fun hkilled => ?_)
      rw [hkilled] at hk
      exact nomatch hk
    · have h1 : Inv (s.modify p (fun x =>
          { x with state := .sleeping, chan := some (.proc p) })) :=
        h.quiet (Quiet.modify s.proc p rfl rfl rfl (.inr ⟨by rw [hp]; rfl, rfl⟩))
      exact h1.setPc (fun _ _ he => (nomatch he))

lemma Inv.step {a : Act} (h : Inv s) (hr : step s a = .ok s') : Inv s' := by
  cases a with
  | schedule p =>
    rw [← ok.inj hr]
    split
    · next hp => exact h.quiet (Quiet.modify s.proc p rfl rfl rfl (.inr ⟨by rw [hp]; rfl, rfl⟩))
    · exact h
  | yield p =>
    rw [← ok.inj hr]
    split
    · next hp => exact h.quiet (Quiet.modify s.proc p rfl rfl rfl (.inr ⟨by rw [hp]; rfl, rfl⟩))
    · exact h
  | sleep p c =>
    rw [← ok.inj hr]
    split
    · next hp => exact h.quiet (Quiet.modify s.proc p rfl rfl rfl (.inr ⟨by rw [hp.1]; rfl, rfl⟩))
    · exact h
  | wakeup c =>
    rw [← ok.inj hr]
    exact h.quiet (Quiet.wakeup1 _ _)
  | fault p =>
    rw [← ok.inj hr]
    split
    · exact h.quiet (Quiet.modify s.proc p rfl rfl rfl (.inl rfl))
    · exact h
  | allocproc p =>
    rw [← ok.inj hr]
    split
    · next hp => exact h.allocproc hp.1
    · exact h
  | forkFails p =>
    rw [Ptable.step] at hr
    split at hr
    · next q hp =>
      rw [← ok.inj hr]
      split
      · exact h.forkFails hp
      · exact h
    · rwa [← ok.inj hr]
  | forkParent p =>
    rw [Ptable.step] at hr
    split at hr
    · next q hp =>
      rw [← ok.inj hr]
      split
      · exact h.forkParent hp
      · exact h
    · rwa [← ok.inj hr]
  | forkReturns p =>
    rw [Ptable.step] at hr
    split at hr
    · next q hp =>
      rw [← ok.inj hr]
      split
      · exact h.forkReturns hp
      · exact h
    · rwa [← ok.inj hr]
  | exit p =>
    rw [Ptable.step] at hr
    split at hr
    · next hp =>
      split at hr
      · exact nomatch hr
      · next hinit =>
        rw [← ok.inj hr]
        exact h.exit hinit hp.1 hp.2
    · rwa [← ok.inj hr]
  | wait p =>
    rw [← ok.inj hr]
    split
    · next hp => exact h.wait hp.1
    · exact h
  | kill pid =>
    rw [← ok.inj hr]
    exact h.quiet (Quiet.kill _ _)

lemma Inv.start : Inv start := by
  have hproc : ∀ q, q ≠ INIT → Ptable.start.proc q = ⟨.unused, 0, none, false, none, 0⟩ :=
    fun q hq => if_neg hq
  have hused : ∀ q, (Ptable.start.proc q).state ≠ .unused → q = INIT := by
    intro q hq
    by_contra hne
    rw [hproc q hne] at hq
    exact hq rfl
  refine ⟨⟨fun q hq => ?_, ⟨rfl, rfl⟩, fun q hq => ?_, fun p q b hp => (nomatch hp),
      fun p p' q b b' hp => (nomatch hp)⟩,
    ⟨rfl, fun q hq => ?_, fun q q' hq hq' _ => (hused q hq).trans (hused q' hq').symm,
      fun q hq => ?_, by decide, fun q hq => ?_, fun l hl => absurd hl not_mem_nil⟩,
    ⟨fun q hq hne => absurd (hused q (PState.used_of_live hq)) hne,
      fun f hf => absurd hf not_mem_nil, fun q hq f hf => absurd hf not_mem_nil,
      nodup_nil, fun w hw => absurd hw not_mem_nil, nodup_nil⟩, fun w hw => absurd hw not_mem_nil⟩
  · rw [hused q hq]
    decide
  · by_cases hne : q = INIT
    · rw [hne]
      rfl
    · rw [hproc q hne]
  · rw [hused q hq]
    exact Nat.zero_lt_one
  · rw [hused q hq]
    decide
  · rw [hused q hq]
    exact ⟨fun hl => absurd hl not_mem_nil, fun he => (nomatch he)⟩

/-! ## Families -/

/-- What holds of parents and children. -/
structure Family (s : State) : Prop where
  /-- Whoever was forked and not yet waited for has a parent that can wait for it. -/
  parent : ∀ q < NPROC, q ≠ INIT → (s.proc q).state.live = true →
    ∃ r < NPROC, (s.proc q).parent = some r ∧ (s.proc r).state ≠ .unused ∧
      (s.proc r).state ≠ .zombie
  /-- The process of a fork is waited for at most once. -/
  once   : (s.forked.map Fork.life).Nodup ∧ (s.reaped.map Reap.life).Nodup
  /-- It has exited then, and the caller of `wait` is the caller of `fork`, or init if that one
      has exited. -/
  waited : ∀ r ∈ s.reaped, r.life ∈ s.exited ∧ ∃ f ∈ s.forked, f.life = r.life ∧ f.pid = r.pid ∧
    (r.by_ = f.parent ∨ r.by_ = (s.proc INIT).life ∧ f.parent ∈ s.exited)
  /-- Before `nextpid` has gone through all its values no pid is returned twice by `wait`. -/
  pids   : s.allocs ≤ INTS → (s.reaped.map Reap.pid).Nodup
  /-- A `wait` that returns -1 to a process that is not killed finds no child. -/
  failed : ∀ w ∈ s.failed, w.killed = false → w.children = []

lemma pidOf_inj {a b : Nat} (ha : a < INTS) (hb : b < INTS) (h : pidOf a = pidOf b) : a = b := by
  have hmod : ((a : Int) + 1) % INTS = ((b : Int) + 1) % INTS := by
    have := congrArg (fun x => x % (INTS : Int)) h
    simpa only [pidOf, Int.bmod_emod] using this
  unfold INTS at *
  omega

lemma Inv.family (h : Inv s) : Family s := by
  refine ⟨fun q hq hne hlive => ?_, ⟨h.history.once, h.history.nodup⟩, fun r hr => ?_,
    fun hle => ?_, h.failed⟩
  · obtain ⟨r, hr, hact, -⟩ := h.history.child q hlive hne
    refine ⟨r, h.slots.slots r (PState.used_of_active hact), hr, PState.used_of_active hact, ?_⟩
    intro he
    rw [he] at hact
    exact nomatch hact
  · obtain ⟨h1, -, f, hf, h2, h3, h4⟩ := h.history.waited r hr
    rw [h.lives.init]
    exact ⟨h1, f, hf, h2, h3, h4⟩
  · -- different lives have different pids
    have hpid : ∀ r ∈ s.reaped, r.life < INTS ∧ r.pid = pidOf r.life := by
      intro r hr
      obtain ⟨-, -, f, hf, h2, h3, -⟩ := h.history.waited r hr
      obtain ⟨h4, h5⟩ := h.history.numbered f hf
      rw [← h2, ← h3]
      exact ⟨Nat.lt_of_lt_of_le h4 hle, h5⟩
    have hnodup := h.history.nodup
    rw [List.Nodup, List.pairwise_map] at hnodup ⊢
    refine hnodup.imp_of_mem (fun {a b} ha hb hne e => hne ?_)
    obtain ⟨h1, h2⟩ := hpid a ha
    obtain ⟨h3, h4⟩ := hpid b hb
    rw [h2, h4] at e
    exact pidOf_inj h1 h3 e

/-- **Every child has a parent that can wait for it, and is waited for at most once.** -/
theorem family_kept (as : List Act) (u : State) (hrun : exec step as start = .ok u) : Family u :=
  (exec_invariant_of_step (fun _ _ _ h hr => h.step hr) Inv.start hrun).family

/-- Init forks a child, which forks one of its own and exits; init adopts the grandchild and
    waits for both. -/
def adoption : List Act :=
  [.schedule 0, .allocproc 0, .forkParent 0, .forkReturns 0, .wait 0, .schedule 1, .allocproc 1,
   .forkParent 1, .forkReturns 1, .exit 1, .schedule 2, .exit 2, .schedule 0, .wait 0, .wait 0,
   .wait 0]

theorem family_kept_adoption : ∃ u, exec step adoption start = .ok u ∧
    u.reaped = [⟨1, 2, 0⟩, ⟨2, 3, 0⟩] ∧ u.failed = [⟨false, []⟩] ∧ Family u := by
  have hok : (exec step adoption start).map (fun u => (u.reaped, u.failed)) =
      .ok ([⟨1, 2, 0⟩, ⟨2, 3, 0⟩], [⟨false, []⟩]) := by decide +kernel
  obtain ⟨u, hu, heq⟩ := exists_ok_of_map hok
  exact ⟨u, hu, congrArg Prod.fst heq, congrArg Prod.snd heq, family_kept adoption u hu⟩

/-- **A pid names one process** until `nextpid` has gone through all its values. -/
theorem pids_distinct (as : List Act) (u : State) (hrun : exec step as start = .ok u)
    (hpid : u.allocs ≤ INTS) (q q' : Nat) (hq : (u.proc q).state ≠ .unused)
    (hq' : (u.proc q').state ≠ .unused) (h : (u.proc q).pid = (u.proc q').pid) : q = q' := by
  have hl := (exec_invariant_of_step (fun _ _ _ h hr => Inv.step h hr) Inv.start hrun).lives
  rw [hl.pid q hq, hl.pid q' hq'] at h
  exact hl.inj q q' hq hq' (pidOf_inj ((hl.lt q hq).trans_le hpid) ((hl.lt q' hq').trans_le hpid) h)

theorem pids_distinct_adoption : ∃ u, exec step adoption start = .ok u ∧
    ∀ q q', (u.proc q).state ≠ .unused → (u.proc q').state ≠ .unused →
      (u.proc q).pid = (u.proc q').pid → q = q' := by
  refine (exists_ok_of_map (f := State.allocs) (b := 3) ?_).imp
    fun u ⟨hu, hallocs⟩ => ⟨hu, pids_distinct adoption u hu (hallocs ▸ by decide)⟩
  decide +kernel

end Ptable
