import Xv6Ext2.BufCacheProofs
import Xv6Ext2.RunsProofs

/-! # The IDE driver (ide.c, trap.c)

    One queue of buffers for the disks of both buses.  `iderw` appends a buffer, starts the disk if
    the buffer is the first, and sleeps until the buffer is valid and clean; `ideintr` finishes the
    first buffer of the queue and starts the next.  What runs under `idelock` is one step: a process
    that sleeps in `iderw` can be woken at any time and looks at its buffer again.

    The state keeps the history: the buffers in the order in which they were appended, the
    commands sent to the disks, the requests that were finished with the bus whose interrupt
    finished them, and the requests for which the disk raised its interrupt.  Request `i` is
    the `i`-th one that was appended.

    - `completes_on_own_bus_iff` : interrupts finish buffers of their own bus only, exactly
      if each of them comes from the bus of the first buffer of the queue;
    - `requests_in_order` : with one interrupt for each started request, every request is
      started once and finished once, in the order of the queue. -/

namespace Ide

open ByteBlock BufCache Param Outcome Runs

open Except (ok.inj)

open Option (some.inj)

open Function (update update_apply update_of_ne update_self)

open List (append_nil length_append length_map map_append not_mem_nil)

def EXT2FSSIZE : Nat := 20000

def SECTOR_SIZE : Nat := 512

inductive Bus where
  | primary
  | secondary
  deriving DecidableEq, Repr

/-- The fields of `struct buf` that the driver uses; the flags are `B_VALID` and `B_DIRTY`. -/
structure Buf where
  valid   : Bool
  dirty   : Bool
  dev     : Nat
  blockno : Nat
  data    : Block

/-- The bus that `idestart` uses for a device. -/
def busOf (dev : Nat) : Bus := if dev ≤ 1 then .primary else .secondary

/-- What `idestart` sends to a bus: the drive, the first sector and their number, and
    whether the data of the buffer follows. -/
structure Command where
  buf    : Nat
  bus    : Bus
  drive  : Nat
  sector : Nat
  count  : Nat
  write  : Bool
  deriving DecidableEq

/-- A buffer that `ideintr` finished: its device, the bus of the interrupt, and the port from
    which the buffer was filled, if it was. -/
structure Completion where
  buf    : Nat
  dev    : Nat
  bus    : Bus
  filled : Option Bus
  deriving DecidableEq

/-- Where a process is: outside `iderw`, or asleep in it with its request. -/
inductive Pc where
  | idle
  | waiting (b i : Nat)
  deriving DecidableEq

structure State where
  queue     : List Nat
  buf       : Nat → Buf
  lock      : Nat → Option Nat
  pc        : Nat → Pc
  appended  : List Nat
  started   : List Command
  completed : List Completion
  raised    : List Nat
  returned  : List Nat

/-- Which disks `ideinit` found. -/
structure Disks where
  havedisk1 : Bool
  havedisk2 : Bool

/-- `acquire` and `release` are those of a buffer's sleep-lock, and `assign` is a change of
    a buffer outside `iderw`.  An interrupt comes from a bus; `err` and `port` are what
    `idewait` and `insl` find there, and `req` is the request for which the disk raised it,
    if it is not a spurious one. -/
inductive Act where
  | acquire (p b : Nat)
  | release (p b : Nat)
  | assign (b : Nat) (x : Buf)
  | iderw (p b : Nat)
  | wake (p : Nat)
  | intr (bus : Bus) (err : Bool) (port : Bus → Block) (req : Option Nat)

/-- `b->flags & (B_VALID|B_DIRTY)) == B_VALID`. -/
def Buf.done (x : Buf) : Bool := x.valid && !x.dirty

def command (b : Nat) (x : Buf) : Command where
  buf    := b
  bus    := busOf x.dev
  drive  := x.dev &&& 1
  sector := x.blockno * (BSIZE / SECTOR_SIZE) % 2 ^ 32
  count  := BSIZE / SECTOR_SIZE
  write  := x.dirty

def idestart (b : Nat) (s : State) : Except Err State :=
  if (s.buf b).dev = ROOTDEV ∧ FSSIZE ≤ (s.buf b).blockno then
    .error (.panic "incorrect xv6 blockno")
  else if (s.buf b).dev = EXT2DEV ∧ EXT2FSSIZE ≤ (s.buf b).blockno then
    .error (.panic "incorrect ext2 blockno")
  else .ok { s with started := s.started ++ [command b (s.buf b)] }

/-- `idestart(idequeue)` if the queue is not empty. -/
def startFirst (s : State) : Except Err State :=
  match s.queue with
  | [] => .ok s
  | b :: _ => idestart b s

/-- What `ideintr` does to the first buffer. -/
def finish (bus : Bus) (err : Bool) (port : Bus → Block) (x : Buf) : Buf :=
  { x with valid := true, dirty := false,
           data := if x.dirty = false ∧ err = false then port bus else x.data }

/-- The state after `ideintr` has finished the first buffer `b`, before the next is started. -/
def finished (bus : Bus) (err : Bool) (port : Bus → Block) (b : Nat) (q : List Nat) (s : State) :
    State :=
  { s with
    queue     := q
    buf       := update s.buf b (finish bus err port (s.buf b))
    completed := s.completed ++ [{
      buf    := b
      dev    := (s.buf b).dev
      bus    := bus
      filled := if (s.buf b).dirty = false ∧ err = false then some bus else none }] }

/-- Interrupt handler, for an interrupt from `bus`. -/
def ideintr (bus : Bus) (err : Bool) (port : Bus → Block) (s : State) : Except Err State :=
  match s.queue with
  | [] => .ok s
  | b :: q => startFirst (finished bus err port b q s)

variable (disks : Disks)

/-- `iderw` up to the `sleep`; the buffer is not done when it has just been appended. -/
def iderw (p b : Nat) (s : State) : Except Err State :=
  if s.lock b ≠ some p then .error (.panic "iderw: buf not locked")
  else if (s.buf b).done = true then .error (.panic "iderw: nothing to do")
  else if (s.buf b).dev ≠ 0 ∧ disks.havedisk1 = false then
    .error (.panic "iderw: ide disk 1 not present")
  else if (s.buf b).dev ≠ 0 ∧ disks.havedisk2 = false then
    .error (.panic "iderw: ide disk 2 not present")
  else do
    let s' := { s with queue    := s.queue ++ [b]
                       appended := s.appended ++ [b]
                       pc       := update s.pc p (.waiting b s.appended.length) }
    if s'.queue.head? = some b then idestart b s' else .ok s'

/-- A change of a buffer is one by the holder of its lock outside `iderw`, or by `bget` while
    nobody holds the lock. -/
def mayAssign (s : State) (b : Nat) : Bool :=
  match s.lock b with
  | none => true
  | some p => decide (s.pc p = .idle)

/-- One step.  An action for which its process is not ready does nothing. -/
def step (s : State) : Act → Except Err State
  | .acquire p b =>
    if s.pc p = .idle ∧ s.lock b = none then
      .ok { s with lock := update s.lock b (some p) }
    else .ok s
  | .release p b =>
    if s.pc p = .idle ∧ s.lock b = some p then
      .ok { s with lock := update s.lock b none }
    else .ok s
  | .assign b x =>
    if mayAssign s b = true then .ok { s with buf := update s.buf b x } else .ok s
  | .iderw p b => if s.pc p = .idle then iderw disks p b s else .ok s
  | .wake p =>
    match s.pc p with
    | .idle => .ok s
    | .waiting b i =>
      -- the condition of the loop around `sleep`
      if (s.buf b).done = true then
        .ok { s with pc := update s.pc p .idle, returned := s.returned ++ [i] }
      else .ok s
  | .intr bus err port req =>
    ideintr bus err port { s with raised := s.raised ++ req.toList }

/-! ## What the parts do -/

variable {b : Nat} {s s' : State}

lemma idestart_ok (h : idestart b s = .ok s') :
    s' = { s with started := s.started ++ [command b (s.buf b)] } := by
  rw [idestart] at h
  split at h
  · exact nomatch h
  split at h
  · exact nomatch h
  · exact (ok.inj h).symm

lemma startFirst_ok (h : startFirst s = .ok s') :
    s' = { s with started := s.started ++ (s.queue.take 1).map (fun b => command b (s.buf b)) } := by
  rw [startFirst] at h
  cases hq : s.queue with
  | nil =>
    rw [hq] at h
    rw [← ok.inj h, List.take_nil, List.map_nil, append_nil, ← hq]
  | cons b q =>
    rw [hq] at h
    rw [idestart_ok h]
    simp only [hq]
    rfl

lemma ideintr_ok {bus : Bus} {err : Bool} {port : Bus → Block}
    (h : ideintr bus err port s = .ok s') : (s.queue = [] ∧ s' = s) ∨ ∃ b q, s.queue = b :: q ∧
      s' = { finished bus err port b q s with
        started := s.started ++ (q.take 1).map (fun c =>
          command c ((finished bus err port b q s).buf c)) } := by
  rw [ideintr] at h
  cases hq : s.queue with
  | nil =>
    rw [hq] at h
    exact .inl ⟨rfl, (ok.inj h).symm⟩
  | cons b q =>
    rw [hq] at h
    exact .inr ⟨b, q, rfl, startFirst_ok h⟩

lemma iderw_ok {disks : Disks} {p : Nat} (h : iderw disks p b s = .ok s') :
    s.lock b = some p ∧ (s.buf b).done = false ∧ s' = { s with
      queue    := s.queue ++ [b]
      appended := s.appended ++ [b]
      pc       := update s.pc p (.waiting b s.appended.length)
      started  := s.started ++
        if (s.queue ++ [b]).head? = some b then [command b (s.buf b)] else [] } := by
  rw [iderw] at h
  by_cases hlock : s.lock b = some p
  · rw [if_neg (not_not_intro hlock)] at h
    split at h
    · exact nomatch h
    · next hdone =>
      refine ⟨hlock, Bool.not_eq_true _ ▸ hdone, ?_⟩
      split at h
      · exact nomatch h
      split at h
      · exact nomatch h
      dsimp only at h
      split at h
      · next hfirst =>
        rw [idestart_ok h, if_pos hfirst]
      · next hfirst =>
        rw [← ok.inj h, if_neg hfirst, append_nil]
  · rw [if_pos hlock] at h
    exact nomatch h

/-! ## Interrupts of the own bus -/

/-- An interrupt comes from the bus that serves the first buffer of the queue, if there is one. -/
def FromServing (s : State) : Act → Prop
  | .intr bus _ _ _ => ∀ b ∈ s.queue.head?, bus = busOf (s.buf b).dev
  | _ => True

/-- A buffer was finished by an interrupt from its own bus, and filled from the port of its
    own bus if it was filled. -/
def Completion.own (d : Completion) : Prop :=
  d.bus = busOf d.dev ∧ ∀ port ∈ d.filled, port = busOf d.dev

/-- What a step adds to the finished requests. -/
lemma step_completed {disks : Disks} {a : Act} (h : step disks s a = .ok s') :
    (∃ new, s'.completed = s.completed ++ new ∧ ((∀ d ∈ new, d.own) ↔ FromServing s a)) := by
  have hsame : s'.completed = s.completed → FromServing s a →
      ∃ new, s'.completed = s.completed ++ new ∧ ((∀ d ∈ new, d.own) ↔ FromServing s a) := by
    intro hc hf
    exact ⟨[], by rw [hc, append_nil], fun _ => hf, fun _ d hd => absurd hd not_mem_nil⟩
  cases a with
  | acquire p b =>
    rw [step] at h
    split at h <;> exact hsame (by rw [← ok.inj h]) trivial
  | release p b =>
    rw [step] at h
    split at h <;> exact hsame (by rw [← ok.inj h]) trivial
  | assign b x =>
    rw [step] at h
    split at h <;> exact hsame (by rw [← ok.inj h]) trivial
  | iderw p b =>
    rw [step] at h
    split at h
    · rw [(iderw_ok h).2.2] at hsame ⊢
      exact hsame rfl trivial
    · exact hsame (by rw [← ok.inj h]) trivial
  | wake p =>
    rw [step] at h
    split at h
    · exact hsame (by rw [← ok.inj h]) trivial
    · split at h <;> exact hsame (by rw [← ok.inj h]) trivial
  | intr bus err port req =>
    rw [step] at h
    rcases ideintr_ok h with ⟨hq, rfl⟩ | ⟨b, q, hq, rfl⟩
    · refine hsame rfl (fun b hb => ?_)
      rw [show s.queue = [] from hq] at hb
      exact nomatch hb
    have hq : s.queue = b :: q := hq
    refine ⟨_, rfl, ?_⟩
    rw [List.forall_mem_singleton, FromServing, hq]
    constructor
    · rintro ⟨hown, -⟩ c hc
      obtain rfl := some.inj hc
      exact hown
    · intro hf
      have hown : bus = busOf (s.buf b).dev := hf b rfl
      refine ⟨hown, fun port hport => ?_⟩
      dsimp only at hport
      split at hport
      · rwa [← some.inj hport]
      · exact nomatch hport

/-- **Buffers are finished on interrupts of their own bus, exactly when every interrupt comes
    from the bus that serves the first buffer.** -/
theorem completes_on_own_bus_iff (disks : Disks) (as : List Act) :
    ∀ (s u : State), exec (step disks) as s = .ok u → ∃ new, u.completed = s.completed ++ new ∧
        ((∀ d ∈ new, d.own) ↔ AllSteps (step disks) FromServing as s) := by
  induction as with
  | nil =>
    intro s u h
    obtain rfl := ok.inj h
    exact ⟨[], (append_nil _).symm, fun _ => trivial, fun _ d hd => absurd hd not_mem_nil⟩
  | cons a as ih =>
    intro s u h
    obtain ⟨s₁, h₁, h₂⟩ := exec_cons_ok h
    obtain ⟨new₁, hnew₁, hiff₁⟩ := step_completed h₁
    obtain ⟨new₂, hnew₂, hiff₂⟩ := ih s₁ u h₂
    refine ⟨new₁ ++ new₂, by rw [hnew₂, hnew₁, List.append_assoc], ?_⟩
    rw [AllSteps, h₁, List.forall_mem_append, hiff₁, hiff₂]

/-- Nothing is queued, and the history is empty. -/
def start (buf : Nat → Buf) : State :=
  ⟨[], buf, fun _ => none, fun _ => .idle, [], [], [], [], []⟩

/-- Every buffer is for block 7 of the ext2 disk and not yet read. -/
def unread : Nat → Buf := fun _ => ⟨false, false, 2, 7, fun _ => 0⟩

/-- A read of block 7 of the ext2 disk into buffer 5, and an interrupt from `bus`. -/
def readBlock7 (bus : Bus) : List Act :=
  [.acquire 0 5, .iderw 0 5, .intr bus false (fun _ _ => 170) none]

theorem completes_on_own_bus_secondary : ∃ u new, exec (step ⟨true, true⟩) (readBlock7 .secondary)
      (start unread) = .ok u ∧ u.completed = new ∧
    ((∀ d ∈ new, d.own) ↔ AllSteps (step ⟨true, true⟩) FromServing (readBlock7 .secondary)
      (start unread)) := by
  obtain ⟨new, hnew, hiff⟩ := completes_on_own_bus_iff ⟨true, true⟩ (readBlock7 .secondary)
    (start unread) _ rfl
  exact ⟨_, new, rfl, hnew, hiff⟩

/-- An interrupt from the primary bus finishes a read of the secondary one: the buffer is
    marked valid with the bytes of the other port. -/
theorem spurious_interrupt_completes : ∃ u, exec (step ⟨true, true⟩) (readBlock7 .primary)
      (start unread) = .ok u ∧
    u.completed = [⟨5, 2, .primary, some .primary⟩] ∧ (u.buf 5).done = true ∧
    (u.buf 5).data 0 = 170 ∧ u.queue = [] ∧ ¬∀ d ∈ u.completed, d.own := by
  refine ⟨_, rfl, rfl, rfl, rfl, rfl, fun h => ?_⟩
  exact absurd (h _ List.mem_cons_self).1 (by decide)

/-! ## One interrupt for each request -/

/-- The disk raises one interrupt for each command that it got, on the bus of the command. -/
def FromDisk (s : State) : Act → Prop
  | .intr bus _ _ req => ∃ i, req = some i ∧ i ∉ s.raised ∧
      (s.started[i]?).map Command.bus = some bus
  | _ => True

/-- What holds between two steps.  A process that sleeps in `iderw` holds the lock of its
    buffer, so nobody else changes the buffer or appends it again. -/
structure Inv (s : State) : Prop where
  fifo     : s.appended = s.completed.map Completion.buf ++ s.queue
  started  : ∃ old, s.started = old ++ (s.queue.take 1).map (fun b => command b (s.buf b)) ∧
    old.map Command.buf = s.completed.map Completion.buf
  nodup    : s.queue.Nodup
  owner    : ∀ b ∈ s.queue, ∃ p i, s.pc p = .waiting b i ∧ s.completed.length ≤ i
  waiting  : ∀ p b i, s.pc p = .waiting b i → s.lock b = some p ∧ s.appended[i]? = some b ∧
    ((s.buf b).done = true ↔ i < s.completed.length)
  raised   : ∀ i, i ∈ s.raised ↔ i < s.completed.length
  returned : ∀ i ∈ s.returned, i < s.completed.length

lemma Inv.start (buf : Nat → Buf) : Inv (start buf) := by
  refine ⟨rfl, ⟨[], rfl, rfl⟩, List.nodup_nil, fun b hb => absurd hb not_mem_nil,
    fun p b i h => (nomatch h), fun i => ⟨fun h => absurd h not_mem_nil, fun h => ?_⟩,
    fun i h => absurd h not_mem_nil⟩
  exact absurd h (Nat.not_lt_zero i)

section Steps

variable {disks : Disks} {s s' : State}

variable {p b i : Nat}

/-- The buffer of a process in `iderw` is on the queue until it is finished. -/
lemma Inv.mem_queue (h : Inv s) (hp : s.pc p = .waiting b i)
    (hi : s.completed.length ≤ i) : s.queue[i - s.completed.length]? = some b := by
  have hget := (h.waiting p b i hp).2.1
  rwa [h.fifo, List.getElem?_append_right (by rw [length_map]; exact hi), length_map] at hget

lemma Inv.not_mem_queue (h : Inv s) (hp : s.pc p = .waiting b i)
    (hi : i < s.completed.length) : b ∉ s.queue := by
  intro hb
  obtain ⟨q, j, hq, hj⟩ := h.owner b hb
  have hlock := (h.waiting p b i hp).1
  rw [(h.waiting q b j hq).1] at hlock
  obtain rfl := some.inj hlock
  rw [hp] at hq
  obtain ⟨-, rfl⟩ := Pc.waiting.inj hq
  omega

lemma Inv.setLock (h : Inv s) {v : Option Nat} (hp : s.pc p = .idle)
    (hb : s.lock b = none ∨ s.lock b = some p) : Inv { s with lock := update s.lock b v } := by
  obtain ⟨hfifo, hstarted, hnodup, howner, hwaiting, hraised, hreturned⟩ := h
  refine ⟨hfifo, hstarted, hnodup, howner, ?_, hraised, hreturned⟩
  simp only [update_apply]
  grind

lemma Inv.assign (h : Inv s) {x : Buf} (hb : mayAssign s b = true) :
    Inv { s with buf := update s.buf b x } := by
  have hne : ∀ p c i, s.pc p = .waiting c i → c ≠ b := by
    rintro p c i hp rfl
    rw [mayAssign, (h.waiting p c i hp).1] at hb
    have := of_decide_eq_true hb
    rw [hp] at this
    exact nomatch this
  refine ⟨h.fifo, ?_, h.nodup, h.owner, fun q c i hq => ?_, h.raised, h.returned⟩
  · obtain ⟨old, hst, hold⟩ := h.started
    refine ⟨old, hst.trans ?_, hold⟩
    congr 1
    refine List.map_congr_left (fun c hc => ?_)
    obtain ⟨p, i, hp, -⟩ := h.owner c (List.mem_of_mem_take hc)
    dsimp only
    rw [update_of_ne (hne p c i hp)]
  · obtain ⟨hlock, hget, hdone⟩ := h.waiting q c i hq
    refine ⟨hlock, hget, ?_⟩
    show (update s.buf b x c).done = true ↔ _
    rwa [update_of_ne (hne q c i hq)]

lemma Inv.wake (h : Inv s) (hp : s.pc p = .waiting b i) (hdone : (s.buf b).done = true) :
    Inv { s with pc := update s.pc p .idle, returned := s.returned ++ [i] } := by
  have hi : i < s.completed.length := (h.waiting p b i hp).2.2.mp hdone
  -- the buffer of the process that leaves is not on the queue any more
  have hgone := h.not_mem_queue hp hi
  obtain ⟨hfifo, hstarted, hnodup, howner, hwaiting, hraised, hreturned⟩ := h
  refine ⟨hfifo, hstarted, hnodup, fun c hc => ?_, ?_, hraised, ?_⟩ <;> simp only [update_apply]
  · obtain ⟨q, j, hq, hj⟩ := howner c hc
    exact ⟨q, j, by grind, hj⟩
  · grind
  · grind

lemma Inv.iderw (h : Inv s) (hp : s.pc p = .idle) (hr : iderw disks p b s = .ok s') : Inv s' := by
  obtain ⟨hlock, hdone, rfl⟩ := iderw_ok hr
  have hlen : s.completed.length ≤ s.appended.length := by
    rw [h.fifo, length_append, length_map]
    omega
  obtain ⟨hfifo, hstarted, hnodup, howner, hwaiting, hraised, hreturned⟩ := h
  -- the process holds the lock, so the buffer is not on the queue
  have hb : b ∉ s.queue := by
    intro hb
    obtain ⟨q, i, hq, -⟩ := howner b hb
    grind
  refine ⟨?_, ?_, ?_, fun c hc => ?_, ?_, hraised, hreturned⟩
  · show s.appended ++ [b] = _
    rw [hfifo, List.append_assoc]
  · obtain ⟨old, hst, hold⟩ := hstarted
    refine ⟨old, ?_, hold⟩
    show s.started ++ _ = _
    rw [hst, List.append_assoc]
    congr 1
    cases hq : s.queue with
    | nil => simp
    | cons c q =>
      rw [hq] at hb
      have hcb : c ≠ b := fun e => hb (e ▸ List.mem_cons_self)
      simp [hcb]
  · grind [List.nodup_append]
  · rcases List.mem_append.mp hc with hc | hc
    · obtain ⟨q, i, hq, hi⟩ := howner c hc
      exact ⟨q, i, by simp only [update_apply]; grind, hi⟩
    · rw [List.mem_singleton.mp hc]
      exact ⟨p, s.appended.length, update_self _ _ _, hlen⟩
  · simp only [update_apply]
    grind

/-- The interrupt that the disk raises next is the one of the first buffer. -/
lemma Inv.next_interrupt (h : Inv s) {bus : Bus} (hi : i ∉ s.raised)
    (hbus : (s.started[i]?).map Command.bus = some bus) :
    i = s.completed.length ∧ ∃ b q, s.queue = b :: q ∧ bus = busOf (s.buf b).dev := by
  obtain ⟨old, hst, hold⟩ := h.started
  have hlen : old.length = s.completed.length := by
    have := congrArg List.length hold
    rwa [length_map, length_map] at this
  have hge : s.completed.length ≤ i := by
    by_contra hlt
    exact hi ((h.raised i).mpr (by omega))
  rw [hst, List.getElem?_append_right (by omega), hlen] at hbus
  cases hq : s.queue with
  | nil =>
    rw [hq] at hbus
    exact nomatch hbus
  | cons b q =>
    rw [hq] at hbus
    have hzero : i - s.completed.length = 0 := by
      by_contra hne
      obtain ⟨j, hj⟩ := Nat.exists_eq_succ_of_ne_zero hne
      rw [hj] at hbus
      exact nomatch hbus
    rw [hzero] at hbus
    exact ⟨by omega, b, q, rfl, (some.inj hbus).symm⟩

lemma Inv.intr (h : Inv s) {bus : Bus} {err : Bool} {port : Bus → Block}
    (hi : i ∉ s.raised) (hbus : (s.started[i]?).map Command.bus = some bus)
    (hr : ideintr bus err port { s with raised := s.raised ++ [i] } = .ok s') : Inv s' := by
  obtain ⟨rfl, b, q, hq, -⟩ := h.next_interrupt hi hbus
  rcases ideintr_ok hr with ⟨hempty, -⟩ | ⟨b', q', hq', rfl⟩
  · rw [show s.queue = [] from hempty] at hq
    exact nomatch hq
  rw [show s.queue = b' :: q' from hq'] at hq
  obtain ⟨rfl, rfl⟩ := List.cons.inj hq
  have hq : s.queue = b' :: q' := hq'
  have hnodup := h.nodup
  rw [hq, List.nodup_cons] at hnodup
  -- only the buffer that was finished changes
  have hbuf : ∀ c, c ≠ b' → (finished bus err port b' q' s).buf c = s.buf c :=
    fun c hc => update_of_ne hc _ _
  -- a request that is not the first one keeps its place
  have hlater : ∀ p c i, s.pc p = .waiting c i → s.completed.length ≤ i → c ≠ b' →
      s.completed.length + 1 ≤ i := by
    intro p c i hp hi hc
    rcases Nat.eq_or_lt_of_le hi with rfl | hlt
    · have := h.mem_queue hp le_rfl
      rw [Nat.sub_self, hq] at this
      exact absurd (some.inj this).symm hc
    · exact hlt
  have hget := fun p c i => h.mem_queue (p := p) (b := c) (i := i)
  obtain ⟨hfifo, ⟨old, hst, hold⟩, -, howner, hwaiting, hraised, hreturned⟩ := h
  refine ⟨?_, ⟨old ++ [command b' (s.buf b')], ?_, ?_⟩, hnodup.2, fun c hc => ?_,
    fun p c i hp => ?_, ?_, ?_⟩
  · show s.appended = (s.completed ++ [_]).map Completion.buf ++ q'
    rw [hfifo, hq, map_append, List.append_assoc]
    rfl
  · show s.started ++ _ = _
    rw [hst, hq]
    rfl
  · show _ = (s.completed ++ [_]).map Completion.buf
    rw [map_append, map_append, hold]
    rfl
  · obtain ⟨p, i, hp, hi⟩ := howner c (hq ▸ List.mem_cons_of_mem b' hc)
    have := hlater p c i hp hi (fun e => hnodup.1 (e ▸ hc))
    exact ⟨p, i, hp, by simp only [finished]; grind⟩
  · obtain ⟨h1, h2, h3⟩ := hwaiting p c i hp
    refine ⟨h1, h2, ?_⟩
    -- a later place would put the buffer on the queue a second time
    have hlate : c = b' → s.completed.length < i → False := by
      rintro rfl hge
      have := hget p c i hp (by omega)
      obtain ⟨j, hj⟩ := Nat.exists_eq_succ_of_ne_zero (show i - s.completed.length ≠ 0 by omega)
      rw [hq, hj, List.getElem?_cons_succ] at this
      exact hnodup.1 (List.mem_of_getElem? this)
    have hfin : (finish bus err port (s.buf b')).done = true := rfl
    have := hlater p c i hp
    clear hr
    simp only [finished, length_append, List.length_singleton, update_apply]
    grind
  · simp only [finished]
    grind
  · simp only [finished]
    grind

lemma Inv.step {a : Act} (h : Inv s) (ha : FromDisk s a) (hr : step disks s a = .ok s') :
    Inv s' := by
  cases a with
  | acquire p b =>
    rw [Ide.step] at hr
    split at hr
    · next hc =>
      rw [← ok.inj hr]
      exact h.setLock hc.1 (.inl hc.2)
    · rwa [← ok.inj hr]
  | release p b =>
    rw [Ide.step] at hr
    split at hr
    · next hc =>
      rw [← ok.inj hr]
      exact h.setLock hc.1 (.inr hc.2)
    · rwa [← ok.inj hr]
  | assign b x =>
    rw [Ide.step] at hr
    split at hr
    · next hc =>
      rw [← ok.inj hr]
      exact h.assign hc
    · rwa [← ok.inj hr]
  | iderw p b =>
    rw [Ide.step] at hr
    split at hr
    · next hc => exact h.iderw hc hr
    · rwa [← ok.inj hr]
  | wake p =>
    rw [Ide.step] at hr
    split at hr
    · rwa [← ok.inj hr]
    · next b i hp =>
      split at hr
      · next hdone =>
        rw [← ok.inj hr]
        exact h.wake hp hdone
      · rwa [← ok.inj hr]
  | intr bus err port req =>
    obtain ⟨i, rfl, hi, hbus⟩ := ha
    exact h.intr hi hbus hr

end Steps

/-- The requests as a whole: those that were finished and then those on the queue are the
    requests in the order in which they were appended, and the started ones are the finished
    ones and the first of the queue. -/
structure InOrder (s : State) : Prop where
  appended  : s.completed.map Completion.buf ++ s.queue = s.appended
  started   : s.completed.map Completion.buf ++ s.queue.take 1 = s.started.map Command.buf
  one       : s.started.length ≤ s.completed.length + 1
  nodup     : s.queue.Nodup
  own       : ∀ p b i, s.pc p = .waiting b i → s.appended[i]? = some b
  returned  : ∀ i ∈ s.returned, i < s.completed.length
  returns   : ∀ p b i, s.pc p = .waiting b i → i < s.completed.length → (s.buf b).done = true
  drained   : (∀ i < s.started.length, i ∈ s.raised) →
    s.started.map Command.buf = s.appended ∧ s.completed.map Completion.buf = s.appended

lemma Inv.inOrder (h : Inv s) : InOrder s := by
  obtain ⟨old, hst, hold⟩ := h.started
  have hbufs : s.started.map Command.buf = s.completed.map Completion.buf ++ s.queue.take 1 := by
    rw [hst, map_append, hold, List.map_map]
    congr 1
    exact List.map_id _
  have hlen : s.started.length = s.completed.length + (s.queue.take 1).length := by
    have := congrArg List.length hbufs
    rwa [length_map, length_append, length_map] at this
  have hone : (s.queue.take 1).length ≤ 1 := List.length_take_le _ _
  refine ⟨h.fifo.symm, hbufs.symm, by omega, h.nodup, fun p b i hp => (h.waiting p b i hp).2.1,
    h.returned, fun p b i hp => (h.waiting p b i hp).2.2.mpr, fun hall => ?_⟩
  -- with all interrupts raised nothing is left on the queue
  have hq : s.queue = [] := by
    cases hq : s.queue with
    | nil => rfl
    | cons b q =>
      rw [hq] at hlen
      have hmem := hall s.completed.length (by rw [hlen]; exact Nat.lt_succ_self _)
      exact absurd ((h.raised _).mp hmem) (Nat.lt_irrefl _)
  rw [hbufs, h.fifo, hq]
  exact ⟨rfl, (append_nil _).symm⟩

/-- **Every request is started once and finished once, in the order of the queue.** -/
theorem requests_in_order (disks : Disks) (buf : Nat → Buf) (as : List Act) (u : State)
    (hdisk : AllSteps (step disks) FromDisk as (start buf))
    (hrun : exec (step disks) as (start buf) = .ok u) : InOrder u :=
  have hstep : ∀ s a s', Inv s → FromDisk s a → step disks s a = .ok s' → Inv s' :=
    fun _ _ _ h ha hr => h.step ha hr
  (exec_invariant hstep as (start buf) u (Inv.start buf) hdisk hrun).inOrder

/-- Two processes read blocks of the ext2 disk; the second request waits for the first. -/
def twoReads : List Act :=
  [.acquire 0 5, .acquire 1 6, .iderw 0 5, .iderw 1 6,
   .intr .secondary false (fun _ _ => 170) (some 0), .wake 0, .wake 1,
   .intr .secondary false (fun _ _ => 187) (some 1), .wake 1]

theorem requests_in_order_twoReads : ∃ u, exec (step ⟨true, true⟩) twoReads (start unread) = .ok u ∧
    u.appended = [5, 6] ∧ u.returned = [0, 1] ∧ InOrder u := by
  refine ⟨_, rfl, rfl, rfl, requests_in_order ⟨true, true⟩ unread twoReads _ ?_ rfl⟩
  exact ⟨trivial, trivial, trivial, trivial, ⟨0, rfl, by decide, rfl⟩, trivial, trivial,
    ⟨1, rfl, by decide, rfl⟩, trivial, trivial⟩

end Ide
