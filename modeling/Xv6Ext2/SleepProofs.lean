import Xv6Ext2.BufCacheProofs
import Xv6Ext2.RunsProofs

/-! # sleep and wakeup (proc.c, spinlock.c)

    Any number of processes that wait for a condition with `acquire(lk); while(!cond) sleep(chan,
    lk)`, and processes that make it true while they hold `lk` and then call `wakeup(chan)`, before
    or after they release `lk`.  The steps are those of `acquire`, `release`, `sleep`, `wakeup1` and
    the scheduler, one after another: the assignments in `sleep` are steps of their own, and
    `wakeup1` looks at one slot of the process table at a time.  `lk` may be `ptable.lock` itself.

    A process that holds no lock may be preempted; this only delays its next step, so the
    scheduler appears here for the processes that called `sleep`.

    - `no_lost_wakeup` : in no reachable state does a process sleep although the condition
      holds, unless a process still owes the wakeup. -/

namespace SleepWakeup

open BufCache Outcome Runs

open Except (ok.inj)

open Function (update update_apply update_of_ne update_self)

inductive ProcState where
  | running
  | runnable
  | sleeping
  deriving DecidableEq

/-- Who holds a spinlock: a process, or a CPU in `scheduler`. -/
inductive Holder where
  | proc (p : Nat)
  | scheduler
  deriving DecidableEq

inductive Pc where
  /-- Without `lk`; `owes` if it made the condition true and has not called `wakeup`. -/
  | out (owes : Bool)
  /-- Between `acquire(lk)` and `release(lk)`. -/
  | crit (owes : Bool)
  /-- In `sleep`, before `acquire(&ptable.lock)`. -/
  | sleeplock
  /-- In `sleep`, before `release(lk)`. -/
  | unlocks
  /-- In `sleep`, before `p->chan = chan`. -/
  | setsChan
  /-- In `sleep`, before `p->state = SLEEPING`. -/
  | setsState
  /-- In `sleep`, before `sched()`. -/
  | sched
  /-- Switched away in `sched`. -/
  | away
  /-- Back from `sched`, before `p->chan = 0`. -/
  | tidies
  /-- In `sleep`, before `release(&ptable.lock)`. -/
  | unlocksTable
  /-- In `sleep`, before `acquire(lk)`. -/
  | relocks
  /-- In `wakeup`, before `acquire(&ptable.lock)`; `lk` is held or not. -/
  | wakeup (inLk : Bool)
  /-- In `wakeup1`, at slot `k`. -/
  | wakeup1 (inLk : Bool) (k : Nat)
  deriving DecidableEq

structure State where
  lock  : Nat → Option Holder
  cond  : Bool
  state : Nat → ProcState
  chan  : Nat → Nat
  pc    : Nat → Pc

/-- What a process does next, where it has a choice. -/
inductive Op where
  | acquire
  | check
  | setCond (v : Bool)
  | release
  | wakeup
  | next
  deriving DecidableEq

inductive Act where
  | run (p : Nat) (op : Op)
  /-- `scheduler` takes `ptable.lock`, gives it back, or runs a process. -/
  | schedAcquire
  | schedRelease
  | schedRun (p : Nat)
  /-- `kill`, or a wakeup for another reason. -/
  | rouse (p : Nat)
  deriving DecidableEq

def PTABLE : Nat := 0

def State.setPc (s : State) (p : Nat) (pc : Pc) : State :=
  { s with pc := update s.pc p pc }

def State.setLock (s : State) (x : Nat) (v : Option Holder) : State :=
  { s with lock := update s.lock x v }

/-- `acquire(x)`, then on to `pc`; while another holds the lock the process spins. -/
def acquire (s : State) (p x : Nat) (pc : Pc) : Except Err State :=
  if s.lock x = some (.proc p) then .error (.panic "acquire")
  else if s.lock x = none then .ok ((s.setLock x (some (.proc p))).setPc p pc)
  else .ok s

/-- `release(x)`, then on to `pc`. -/
def release (s : State) (p x : Nat) (pc : Pc) : Except Err State :=
  if s.lock x = some (.proc p) then .ok ((s.setLock x none).setPc p pc)
  else .error (.panic "release")

/-- `wakeup1` at slot `k`. -/
def wakeSlot (chan : Nat) (s : State) (k : Nat) : State :=
  if s.state k = .sleeping ∧ s.chan k = chan then
    { s with state := update s.state k .runnable }
  else s

variable (NPROC lk chan : Nat)

def runProc (s : State) (p : Nat) (op : Op) : Except Err State :=
  match s.pc p, op with
  | .out owes, .acquire => acquire s p lk (.crit owes)
  | .out true, .wakeup => .ok (s.setPc p (.wakeup false))
  | .crit true, .wakeup => .ok (s.setPc p (.wakeup true))
  | .crit owes, .release => release s p lk (.out owes)
  | .crit owes, .setCond v => .ok { s.setPc p (.crit (owes || v)) with cond := v }
  | .crit false, .check =>
    -- the test of the loop; `sleep` compares `lk` with `&ptable.lock` first
    if s.cond = true then .ok s
    else .ok (s.setPc p (if lk = PTABLE then .setsChan else .sleeplock))
  | .sleeplock, .next => acquire s p PTABLE .unlocks
  | .unlocks, .next => release s p lk .setsChan
  | .setsChan, .next =>
    .ok { s.setPc p .setsState with chan := update s.chan p chan }
  | .setsState, .next =>
    .ok { s.setPc p .sched with state := update s.state p .sleeping }
  | .sched, .next =>
    if s.lock PTABLE = some (.proc p) then
      .ok ((s.setLock PTABLE (some .scheduler)).setPc p .away)
    else .error (.panic "sched ptable.lock")
  | .tidies, .next =>
    .ok { s.setPc p (if lk = PTABLE then .crit false else .unlocksTable) with
      chan := update s.chan p 0 }
  | .unlocksTable, .next => release s p PTABLE .relocks
  | .relocks, .next => acquire s p lk (.crit false)
  | .wakeup inLk, .next => acquire s p PTABLE (.wakeup1 inLk 0)
  | .wakeup1 inLk k, .next =>
    if k < NPROC then .ok ((wakeSlot chan s k).setPc p (.wakeup1 inLk (k + 1)))
    else release s p PTABLE (if inLk = true then .crit false else .out false)
  | _, _ => .ok s

def step (s : State) : Act → Except Err State
  | .run p op => if p < NPROC then runProc NPROC lk chan s p op else .ok s
  | .schedAcquire =>
    .ok (if s.lock PTABLE = none then s.setLock PTABLE (some .scheduler) else s)
  | .schedRelease =>
    .ok (if s.lock PTABLE = some .scheduler then s.setLock PTABLE none else s)
  | .schedRun p =>
    .ok (if s.lock PTABLE = some .scheduler ∧ s.pc p = .away ∧ s.state p = .runnable then
      { (s.setLock PTABLE (some (.proc p))).setPc p .tidies with
        state := update s.state p .running }
    else s)
  | .rouse p =>
    .ok (if s.lock PTABLE = none ∧ s.state p = .sleeping then
      { s with state := update s.state p .runnable }
    else s)

/-- No process is in a call, and the condition holds or not. -/
def start (cond : Bool) : State where
  lock  := fun _ => none
  cond  := cond
  state := fun _ => .running
  chan  := fun _ => 0
  pc    := fun _ => .out false

/-- The process made the condition true and has not finished its `wakeup`. -/
@[grind] def Pc.owing : Pc → Bool
  | .out owes => owes
  | .crit owes => owes
  | .wakeup _ => true
  | .wakeup1 _ _ => true
  | _ => false

/-- A lost wakeup: the condition holds and nobody will tell the sleeping process. -/
def Lost (s : State) : Prop :=
  s.cond = true ∧ s.lock lk = none ∧
  ∃ p < NPROC, s.state p = .sleeping ∧ s.chan p = chan ∧ ∀ w < NPROC, (s.pc w).owing = false

/-! ## The invariant -/

@[grind] def Pc.inLk : Pc → Bool
  | .crit _ => true
  | .sleeplock => true
  | .unlocks => true
  | .wakeup inLk => inLk
  | .wakeup1 inLk _ => inLk
  | _ => false

@[grind] def Pc.inTable : Pc → Bool
  | .unlocks => true
  | .setsChan => true
  | .setsState => true
  | .sched => true
  | .tidies => true
  | .unlocksTable => true
  | .wakeup1 _ _ => true
  | _ => false

@[grind] def Holds (pc : Pc) (x : Nat) : Prop := (x = lk ∧ pc.inLk = true) ∨ (x = PTABLE ∧ pc.inTable = true)

/-- The process found the condition false and still holds `lk`. -/
@[grind] def Pc.checked : Pc → Bool
  | .sleeplock => true
  | .unlocks => true
  | _ => false

/-- The process gave up `lk` and is about to be SLEEPING. -/
@[grind] def Pc.committed : Pc → Bool
  | .setsChan => true
  | .setsState => true
  | _ => false

/-- The process will look at slot `p` before it finishes its `wakeup`. -/
@[grind] def Pc.willWake (pc : Pc) (p : Nat) : Prop :=
  match pc with
  | .wakeup1 _ k => k ≤ p
  | pc => pc.owing = true

/-- A process that only a `wakeup` brings back. -/
def Waits (s : State) (p : Nat) : Prop := (s.pc p).committed = true ∨ s.state p = .sleeping

structure Inv (s : State) : Prop where
  held     : ∀ p x, Holds lk (s.pc p) x → s.lock x = some (.proc p)
  checked  : ∀ p, (s.pc p).checked = true → s.cond = false
  woken    : ∀ p, Waits s p → s.cond = true → ∃ w < NPROC, (s.pc w).willWake p
  sleeping : ∀ p, s.state p = .sleeping → p < NPROC ∧ s.chan p = chan ∧
    (s.pc p = .sched ∨ s.pc p = .away)
  chan     : ∀ p, s.pc p = .setsState → s.chan p = chan
  apart    : ∀ p, (s.pc p).inLk = true → (s.pc p).inTable = true → lk ≠ PTABLE

variable {NPROC lk chan : Nat} {s s' : State} {p : Nat}

lemma Inv.start (cond : Bool) : Inv NPROC lk chan (start cond) := by
  refine ⟨fun p x hx => ?_, fun p hp => (nomatch hp), fun p hp => ?_, fun p hp => (nomatch hp),
    fun p hp => (nomatch hp), fun p hp => (nomatch hp)⟩
  · rcases hx with ⟨-, hx⟩ | ⟨-, hx⟩ <;> exact nomatch hx
  · rcases hp with hp | hp <;> exact nomatch hp

variable {x : Nat}

/-- A lock has one holder. -/
lemma Inv.unique (h : Inv NPROC lk chan s) {q : Nat} (hp : Holds lk (s.pc p) x)
    (hq : Holds lk (s.pc q) x) : q = p := by
  have := h.held q x hq
  rw [h.held p x hp] at this
  exact (Holder.proc.inj (Option.some.inj this)).symm

variable {pc : Pc}

/-- A process goes on to `pc`, and locks change hands: what has to be checked about the new
    place. -/
lemma Inv.move (h : Inv NPROC lk chan s) {L : Nat → Option Holder}
    (hlock : ∀ x, Holds lk pc x → L x = some (.proc p))
    (hkeep : ∀ q x, q ≠ p → s.lock x = some (.proc q) → L x = some (.proc q))
    (hchecked : pc.checked = true → s.cond = false)
    (hcommitted : pc.committed = true → s.cond = false ∨ (s.pc p).committed = true)
    (hwake : ∀ q, Waits s q → (s.pc p).willWake q → pc.willWake q)
    (hsleep : s.state p = .sleeping → pc = .sched ∨ pc = .away)
    (hchan : pc = .setsState → s.chan p = chan)
    (hapart : pc.inLk = true → pc.inTable = true → lk ≠ PTABLE) :
    Inv NPROC lk chan { s with lock := L, pc := update s.pc p pc } := by
  obtain ⟨hheld, hcheck, hwoken, hsleeping, hchans, hboth⟩ := h
  constructor <;> simp only [Waits, update_apply] at * <;> grind

lemma Inv.awake (h : Inv NPROC lk chan s) (hp : s.pc p = pc) (h1 : pc ≠ .sched)
    (h2 : pc ≠ .away) : s.state p ≠ .sleeping := by
  intro hs
  rcases (h.sleeping p hs).2.2 with h3 | h3
  · exact h1 (hp.symm.trans h3)
  · exact h2 (hp.symm.trans h3)

lemma Inv.acquire (h : Inv NPROC lk chan s) (hr : acquire s p x pc = .ok s')
    (hholds : ∀ y, Holds lk pc y → y = x ∨ Holds lk (s.pc p) y)
    (hchecked : pc.checked = true → s.cond = false) (hcommitted : pc.committed = false)
    (hwake : ∀ q, (s.pc p).willWake q → pc.willWake q) (hawake : s.state p ≠ .sleeping)
    (hboth : pc.inLk = true → pc.inTable = true → x = PTABLE ∧ (s.pc p).inLk = true) :
    Inv NPROC lk chan s' := by
  rw [SleepWakeup.acquire] at hr
  split at hr
  · exact nomatch hr
  split at hr
  · next hfree =>
    rw [← ok.inj hr]
    refine h.move (fun y hy => ?_) (fun q y hq hy => ?_) hchecked
      (fun hc => by rw [hcommitted] at hc; exact nomatch hc) (fun q _ => hwake q)
      (fun hs => absurd hs hawake)
      (fun hc => by rw [hc] at hcommitted; exact nomatch hcommitted) (fun h1 h2 he => ?_)
    · by_cases hyx : y = x
      · rw [hyx]
        exact update_self _ _ _
      show update s.lock x _ y = _
      rw [update_of_ne hyx]
      exact h.held p y ((hholds y hy).resolve_left hyx)
    · have hyx : y ≠ x := by
        rintro rfl
        rw [hfree] at hy
        exact nomatch hy
      show update s.lock x _ y = _
      rwa [update_of_ne hyx]
    · -- the lock was free, and the process holds `lk`
      obtain ⟨hx, hin⟩ := hboth h1 h2
      have hheld := h.held p lk (.inl ⟨rfl, hin⟩)
      rw [he, ← hx, hfree] at hheld
      exact nomatch hheld
  · rwa [← ok.inj hr]

variable {v : Option Holder}

lemma Inv.giveUp (h : Inv NPROC lk chan s)
    (hx : s.lock x = some (.proc p)) (hholds : ∀ y, Holds lk pc y → y ≠ x ∧ Holds lk (s.pc p) y)
    (hchecked : pc.checked = false) (hcommitted : pc.committed = true → s.cond = false)
    (hstate : pc ≠ .setsState) (hwake : ∀ q, Waits s q → (s.pc p).willWake q → pc.willWake q)
    (hsleep : s.state p = .sleeping → pc = .sched ∨ pc = .away)
    (hone : pc.inLk = false ∨ pc.inTable = false) :
    Inv NPROC lk chan ((s.setLock x v).setPc p pc) := by
  refine h.move (fun y hy => ?_) (fun q y hq hy => ?_)
    (fun hc => by rw [hchecked] at hc; exact nomatch hc) (fun hc => .inl (hcommitted hc)) hwake
    hsleep (fun hc => absurd hc hstate) (fun h1 h2 => ?_)
  · show update s.lock x _ y = _
    rw [update_of_ne (hholds y hy).1]
    exact h.held p y (hholds y hy).2
  · have hyx : y ≠ x := by
      rintro rfl
      rw [hx] at hy
      exact hq (Holder.proc.inj (Option.some.inj hy)).symm
    show update s.lock x _ y = _
    rwa [update_of_ne hyx]
  · rw [h1, h2] at hone
    rcases hone with hone | hone <;> exact nomatch hone

lemma Inv.release (h : Inv NPROC lk chan s) (hr : release s p x pc = .ok s')
    (hholds : ∀ y, Holds lk pc y → y ≠ x ∧ Holds lk (s.pc p) y) (hchecked : pc.checked = false)
    (hcommitted : pc.committed = true → s.cond = false) (hstate : pc ≠ .setsState)
    (hwake : ∀ q, Waits s q → (s.pc p).willWake q → pc.willWake q) (hawake : s.state p ≠ .sleeping)
    (hone : pc.inLk = false ∨ pc.inTable = false) : Inv NPROC lk chan s' := by
  rw [SleepWakeup.release] at hr
  split at hr
  · next hx =>
    rw [← ok.inj hr]
    exact h.giveUp hx hholds hchecked hcommitted hstate hwake (fun hs => absurd hs hawake) hone
  · exact nomatch hr

lemma Inv.goto (h : Inv NPROC lk chan s) (hholds : ∀ y, Holds lk pc y → Holds lk (s.pc p) y)
    (hchecked : pc.checked = true → s.cond = false)
    (hcommitted : pc.committed = true → s.cond = false ∨ (s.pc p).committed = true)
    (hwake : ∀ q, Waits s q → (s.pc p).willWake q → pc.willWake q)
    (hawake : s.state p ≠ .sleeping) (hchan : pc = .setsState → s.chan p = chan)
    (hapart : pc.inLk = true → pc.inTable = true → lk ≠ PTABLE) :
    Inv NPROC lk chan (s.setPc p pc) :=
  h.move (fun x hx => h.held p x (hholds x hx)) (fun _ _ _ hx => hx) hchecked hcommitted hwake
    (fun hs => absurd hs hawake) hchan hapart

lemma Inv.setCond (h : Inv NPROC lk chan s) {owes v : Bool} (hlt : p < NPROC)
    (hp : s.pc p = .crit owes) :
    Inv NPROC lk chan { s.setPc p (.crit (owes || v)) with cond := v } := by
  have hin : Holds lk (s.pc p) lk := .inl ⟨rfl, by rw [hp]; rfl⟩
  have hgo : Inv NPROC lk chan (s.setPc p (.crit (owes || v))) := by
    refine h.goto (fun y hy => ?_) nofun nofun (fun q _ hq => ?_) (h.awake hp nofun nofun)
      nofun nofun
    · rwa [hp]
    · rw [hp] at hq
      show (owes || v) = true
      rw [show owes = true from hq, Bool.true_or]
  -- who has checked the condition holds `lk` as well
  have hone : ∀ q, (s.pc q).checked = true → q = p := fun q hq => h.unique hin (.inl ⟨rfl, by
    cases hpc : s.pc q <;> rw [hpc] at hq <;> first | rfl | exact nomatch hq⟩)
  refine ⟨hgo.held, fun q hq => ?_, fun q _ hv => ⟨p, hlt, ?_⟩, hgo.sleeping, hgo.chan, hgo.apart⟩
  all_goals simp only [State.setPc, update_apply] at *
  · grind
  · grind

lemma Inv.setChan (h : Inv NPROC lk chan s) (hawake : s.state p ≠ .sleeping)
    (hp : s.pc p ≠ .setsState) (c : Nat) :
    Inv NPROC lk chan { s with chan := update s.chan p c } := by
  have hsleeping := h.sleeping
  have hchan := h.chan
  refine ⟨h.held, h.checked, h.woken, ?_, ?_, h.apart⟩ <;> simp only [update_apply] <;> grind

lemma Inv.setsChan (h : Inv NPROC lk chan s) (hp : s.pc p = .setsChan) :
    Inv NPROC lk chan { s.setPc p .setsState with chan := update s.chan p chan } := by
  have hawake := h.awake hp nofun nofun
  refine (h.setChan hawake (fun he => (nomatch hp.symm.trans he)) chan).goto (fun y hy => ?_)
    nofun (fun _ => .inr ?_) (fun q _ hq => ?_) hawake (fun _ => update_self _ _ _) nofun
  · rwa [show s.pc p = _ from hp]
  · rw [show s.pc p = _ from hp]
    rfl
  · rw [show s.pc p = _ from hp] at hq
    exact nomatch hq

lemma Inv.tidies (h : Inv NPROC lk chan s) (hp : s.pc p = .tidies) :
    Inv NPROC lk chan { s.setPc p (if lk = PTABLE then .crit false else .unlocksTable) with
      chan := update s.chan p 0 } := by
  have hawake := h.awake hp nofun nofun
  have h1 := h.setChan hawake (fun he => (nomatch hp.symm.trans he)) 0
  have hwake : ∀ q pc, (s.pc p).willWake q → Pc.willWake pc q := by
    intro q pc hq
    rw [hp] at hq
    exact nomatch hq
  split
  · next hlk =>
    refine h1.goto (fun y hy => ?_) nofun nofun (fun q _ hq => hwake q _ hq) hawake nofun nofun
    -- `lk` is the lock that the scheduler handed over
    rw [show s.pc p = _ from hp]
    rcases hy with ⟨rfl, -⟩ | ⟨-, hy⟩
    · exact .inr ⟨hlk, rfl⟩
    · exact nomatch hy
  · refine h1.goto (fun y hy => ?_) nofun nofun (fun q _ hq => hwake q _ hq) hawake nofun nofun
    rwa [show s.pc p = _ from hp]

lemma Inv.setsState (h : Inv NPROC lk chan s) (hlt : p < NPROC) (hp : s.pc p = .setsState) :
    Inv NPROC lk chan { s.setPc p .sched with state := update s.state p .sleeping } := by
  have hgo : Inv NPROC lk chan (s.setPc p .sched) := by
    refine h.goto (fun y hy => ?_) nofun nofun (fun q _ hq => ?_) (h.awake hp nofun nofun)
      nofun nofun
    · rwa [hp]
    · rw [hp] at hq
      exact nomatch hq
  -- the process was committed before
  have hold : Waits s p := .inl (by rw [hp]; rfl)
  have hwoken := h.woken
  have hchan := h.chan p hp
  have hsleeping := hgo.sleeping
  refine ⟨hgo.held, hgo.checked, ?_, ?_, hgo.chan, hgo.apart⟩ <;>
    simp only [Waits, State.setPc, update_apply] at * <;> grind

lemma Inv.setAwake (h : Inv NPROC lk chan s) {x : ProcState} (hx : x ≠ .sleeping) :
    Inv NPROC lk chan { s with state := update s.state p x } := by
  have hwoken := h.woken
  have hsleeping := h.sleeping
  refine ⟨h.held, h.checked, ?_, ?_, h.chan, h.apart⟩ <;> simp only [Waits, update_apply] at * <;> grind

lemma Inv.wakeSlot (h : Inv NPROC lk chan s) (k : Nat) : Inv NPROC lk chan (wakeSlot chan s k) := by
  rw [SleepWakeup.wakeSlot]
  split
  · exact h.setAwake nofun
  · exact h

variable {inLk : Bool} {k : Nat}

/-- The slots before `k` need no look: after `wakeup1` looked at slot `k`, nobody waits there. -/
lemma Inv.scanned (h : Inv NPROC lk chan s)
    (hp : s.pc p = .wakeup1 inLk k) {q : Nat} (hq : Waits s q) : s.state q = .sleeping := by
  rcases hq with hq | hq
  · -- a process that is about to sleep would hold `ptable.lock` as well
    have hqp := h.unique (p := p) (q := q) (x := PTABLE) (.inr ⟨rfl, by rw [hp]; rfl⟩)
      (.inr ⟨rfl, by cases hpc : s.pc q <;> rw [hpc] at hq <;> first | rfl | exact nomatch hq⟩)
    rw [hqp, hp] at hq
    exact nomatch hq
  · exact hq

lemma Inv.scan (h : Inv NPROC lk chan s) (hp : s.pc p = .wakeup1 inLk k) :
    Inv NPROC lk chan ((SleepWakeup.wakeSlot chan s k).setPc p (.wakeup1 inLk (k + 1))) := by
  have h1 := h.wakeSlot k
  have hpc : (SleepWakeup.wakeSlot chan s k).pc = s.pc := by
    rw [SleepWakeup.wakeSlot]
    split <;> rfl
  have hp1 : (SleepWakeup.wakeSlot chan s k).pc p = .wakeup1 inLk k := (congrFun hpc p).trans hp
  refine h1.goto (fun y hy => ?_) nofun nofun (fun q hq hwill => ?_) (h1.awake hp1 nofun nofun)
    nofun (fun hin htab => ?_)
  · rwa [hp1]
  · have hsleep := h1.scanned hp1 hq
    rw [hp1] at hwill
    replace hwill : k ≤ q := hwill
    rcases Nat.eq_or_lt_of_le hwill with rfl | hlt
    · exfalso
      rw [SleepWakeup.wakeSlot] at hsleep
      split at hsleep
      · replace hsleep : update s.state k .runnable k = .sleeping := hsleep
        rw [update_self] at hsleep
        exact nomatch hsleep
      · next hno => exact hno ⟨hsleep, (h.sleeping k hsleep).2.1⟩
    · exact hlt
  · have := h1.apart p
    rw [hp1] at this
    exact this hin rfl

/-- The steps outside `sleep` and `wakeup`. -/
lemma Inv.locks (h : Inv NPROC lk chan s) {owes : Bool} :
    (s.pc p = .out owes → SleepWakeup.acquire s p lk (.crit owes) = .ok s' → Inv NPROC lk chan s') ∧
    (s.pc p = .crit owes → SleepWakeup.release s p lk (.out owes) = .ok s' → Inv NPROC lk chan s') := by
  have hawake := h.awake (p := p) rfl
  refine ⟨fun hp hr => ?_, fun hp hr => ?_⟩
  · refine h.acquire hr ?_ ?_ ?_ ?_ ?_ ?_ <;> grind
  · refine h.release hr ?_ ?_ ?_ ?_ ?_ ?_ ?_ <;> grind

/-- A process that owes a wakeup may call `wakeup` with `lk` or without it. -/
lemma Inv.wakes (h : Inv NPROC lk chan s) :
    (s.pc p = .out true → Inv NPROC lk chan (s.setPc p (.wakeup false))) ∧
    (s.pc p = .crit true → Inv NPROC lk chan (s.setPc p (.wakeup true))) := by
  have hawake := h.awake (p := p) rfl
  refine ⟨fun hp => ?_, fun hp => ?_⟩ <;> refine h.goto ?_ ?_ ?_ ?_ ?_ ?_ ?_ <;> grind

/-- The test of the loop has failed: on to `sleep`. -/
lemma Inv.check (h : Inv NPROC lk chan s) (hp : s.pc p = .crit false) (hcond : s.cond ≠ true) :
    Inv NPROC lk chan (s.setPc p (if lk = PTABLE then .setsChan else .sleeplock)) := by
  have hawake := h.awake hp nofun nofun
  refine h.goto ?_ ?_ ?_ ?_ hawake ?_ ?_ <;> grind

/-- `sleep` takes `ptable.lock` and gives up `lk`, and the other way round at its end. -/
lemma Inv.sleepLocks (h : Inv NPROC lk chan s) :
    (s.pc p = .sleeplock → SleepWakeup.acquire s p PTABLE .unlocks = .ok s' → Inv NPROC lk chan s') ∧
    (s.pc p = .unlocks → SleepWakeup.release s p lk .setsChan = .ok s' → Inv NPROC lk chan s') ∧
    (s.pc p = .unlocksTable → SleepWakeup.release s p PTABLE .relocks = .ok s' → Inv NPROC lk chan s') ∧
    (s.pc p = .relocks → SleepWakeup.acquire s p lk (.crit false) = .ok s' → Inv NPROC lk chan s') := by
  have hawake := h.awake (p := p) rfl
  have hcheck := h.checked p
  have hapart := h.apart p
  refine ⟨fun hp hr => ?_, fun hp hr => ?_, fun hp hr => ?_, fun hp hr => ?_⟩
  · refine h.acquire hr ?_ ?_ ?_ ?_ ?_ ?_ <;> grind
  · refine h.release hr ?_ ?_ ?_ ?_ ?_ ?_ ?_ <;> grind
  · refine h.release hr ?_ ?_ ?_ ?_ ?_ ?_ ?_ <;> grind
  · refine h.acquire hr ?_ ?_ ?_ ?_ ?_ ?_ <;> grind

lemma Inv.sched (h : Inv NPROC lk chan s) (hp : s.pc p = .sched)
    (hheld : s.lock PTABLE = some (.proc p)) :
    Inv NPROC lk chan ((s.setLock PTABLE (some .scheduler)).setPc p .away) := by
  refine h.giveUp hheld ?_ ?_ ?_ ?_ ?_ ?_ ?_ <;> grind

lemma Inv.wakeup (h : Inv NPROC lk chan s) (hp : s.pc p = .wakeup inLk)
    (hr : SleepWakeup.acquire s p PTABLE (.wakeup1 inLk 0) = .ok s') : Inv NPROC lk chan s' := by
  have hawake := h.awake hp nofun nofun
  refine h.acquire hr ?_ ?_ ?_ ?_ hawake ?_ <;> grind

/-- The scan is complete, so the process owes nothing to those that wait. -/
lemma Inv.scanEnds (h : Inv NPROC lk chan s) (hp : s.pc p = .wakeup1 inLk k) (hk : ¬k < NPROC)
    (hr : SleepWakeup.release s p PTABLE (if inLk = true then .crit false else .out false) = .ok s') :
    Inv NPROC lk chan s' := by
  have hawake := h.awake hp nofun nofun
  have hapart := h.apart p
  have hwake : ∀ q, Waits s q → ¬(s.pc p).willWake q := by
    intro q hq hwill
    have hlt := (h.sleeping q (h.scanned hp hq)).1
    rw [hp] at hwill
    replace hwill : k ≤ q := hwill
    omega
  refine h.release hr ?_ ?_ ?_ ?_ ?_ hawake ?_ <;> grind

lemma Inv.runProc (h : Inv NPROC lk chan s) (hlt : p < NPROC) (op : Op)
    (hr : runProc NPROC lk chan s p op = .ok s') : Inv NPROC lk chan s' := by
  rw [SleepWakeup.runProc.eq_def] at hr
  split at hr
  · next hp => exact h.locks.1 hp hr
  · next hp => exact ok.inj hr ▸ h.wakes.1 hp
  · next hp => exact ok.inj hr ▸ h.wakes.2 hp
  · next hp => exact h.locks.2 hp hr
  · next hp => exact ok.inj hr ▸ h.setCond hlt hp
  · next hp =>
    split at hr
    · rwa [← ok.inj hr]
    · next hcond => exact ok.inj hr ▸ h.check hp hcond
  · next hp => exact h.sleepLocks.1 hp hr
  · next hp => exact h.sleepLocks.2.1 hp hr
  · next hp => exact ok.inj hr ▸ h.setsChan hp
  · next hp => exact ok.inj hr ▸ h.setsState hlt hp
  · next hp =>
    split at hr
    · next hheld => exact ok.inj hr ▸ h.sched hp hheld
    · exact nomatch hr
  · next hp => exact ok.inj hr ▸ h.tidies hp
  · next hp => exact h.sleepLocks.2.2.1 hp hr
  · next hp => exact h.sleepLocks.2.2.2 hp hr
  · next hp => exact h.wakeup hp hr
  · next hp =>
    split at hr
    · exact ok.inj hr ▸ h.scan hp
    · next hk => exact h.scanEnds hp hk hr
  · rwa [← ok.inj hr]

lemma Inv.setTable (h : Inv NPROC lk chan s)
    (hfree : ∀ q, s.lock PTABLE ≠ some (.proc q)) : Inv NPROC lk chan (s.setLock PTABLE v) := by
  refine ⟨fun q x hx => ?_, h.checked, h.woken, h.sleeping, h.chan, h.apart⟩
  have hheld := h.held q x hx
  have hxp : x ≠ PTABLE := fun e => hfree q (e ▸ hheld)
  show update s.lock PTABLE v x = _
  rwa [update_of_ne hxp]

lemma Inv.step {a : Act} (h : Inv NPROC lk chan s) (hr : step NPROC lk chan s a = .ok s') :
    Inv NPROC lk chan s' := by
  have hother : ∀ {v : Option Holder}, s.lock PTABLE = v → (∀ q, v ≠ some (.proc q)) →
      ∀ q, s.lock PTABLE ≠ some (.proc q) := fun hv hne q he => hne q (hv.symm.trans he)
  cases a with
  | run p op =>
    rw [SleepWakeup.step] at hr
    split at hr
    · next hlt => exact h.runProc hlt op hr
    · rwa [← ok.inj hr]
  | schedAcquire =>
    rw [← ok.inj hr]
    split
    · next hv => exact h.setTable (hother hv (fun q he => (nomatch he)))
    · exact h
  | schedRelease =>
    rw [← ok.inj hr]
    split
    · next hv => exact h.setTable (hother hv (fun q he => (nomatch he)))
    · exact h
  | schedRun p =>
    rw [← ok.inj hr]
    split
    · next hv =>
      obtain ⟨hv, hp, -⟩ := hv
      have hne := hother hv (fun q he => (nomatch he))
      have h1 := h.setAwake (p := p) (x := .running) nofun
      refine h1.move (fun y hy => ?_) (fun q y _ hy => ?_) nofun
        nofun (fun q _ hq => ?_) (fun hs => ?_) nofun nofun
      · rcases hy with ⟨-, hy⟩ | ⟨rfl, -⟩
        · exact nomatch hy
        · exact update_self PTABLE (some (Holder.proc p)) s.lock
      · have hyp : y ≠ PTABLE := fun e => hne q (e ▸ hy)
        show update s.lock PTABLE _ y = _
        rwa [update_of_ne hyp]
      · rw [show s.pc p = _ from hp] at hq
        exact nomatch hq
      · replace hs : update s.state p .running p = .sleeping := hs
        rw [update_self] at hs
        exact nomatch hs
    · exact h
  | rouse p =>
    rw [← ok.inj hr]
    split
    · exact h.setAwake nofun
    · exact h

/-! ## Wakeups are not lost -/

lemma Pc.owing_of_willWake (h : pc.willWake p) : pc.owing = true := by
  cases pc with
  | wakeup1 inLk k => rfl
  | _ => exact h

lemma Inv.not_lost (h : Inv NPROC lk chan s) : ¬Lost NPROC lk chan s := by
  rintro ⟨hcond, -, p, -, hsleep, -, hnone⟩
  obtain ⟨w, hw, hwill⟩ := h.woken p (.inr hsleep) hcond
  have := hnone w hw
  rw [Pc.owing_of_willWake hwill] at this
  exact nomatch this

/-- **Wakeups are never lost.** -/
theorem no_lost_wakeup (NPROC lk chan : Nat) (cond : Bool) (as : List Act) (u : State)
    (hrun : exec (step NPROC lk chan) as (start cond) = .ok u) : ¬Lost NPROC lk chan u :=
  (exec_invariant_of_step (fun _ _ _ h hr => h.step hr) (Inv.start cond) hrun).not_lost

/-- Process 0 goes to sleep; after it has released `lk`, process 1 makes the condition true and
    calls `wakeup`, and waits for `ptable.lock` until process 0 is SLEEPING. -/
def handover : List Act :=
  [.run 0 .acquire, .run 0 .check, .run 0 .next, .run 0 .next, .run 1 .acquire,
   .run 1 (.setCond true), .run 1 .release, .run 1 .wakeup, .run 1 .next, .run 0 .next,
   .run 0 .next, .run 0 .next, .schedRelease]

theorem no_lost_wakeup_handover : ∃ u, exec (step 2 1 7) handover (start false) = .ok u ∧
    u.state 0 = .sleeping ∧ u.cond = true ∧ ¬Lost 2 1 7 u :=
  ⟨_, rfl, rfl, rfl, no_lost_wakeup 2 1 7 false handover _ rfl⟩

end SleepWakeup
