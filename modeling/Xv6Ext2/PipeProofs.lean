import Xv6Ext2.BufCacheProofs
import Xv6Ext2.RingBufProofs
import Xv6Ext2.RunsProofs

/-! # Pipes (pipe.c)

    One pipe and any number of processes that call `pipewrite`, `piperead` and `pipeclose` on it.
    What runs between `acquire(&p->lock)` or the return of a `sleep` and the next `sleep` or
    `release(&p->lock)` is one step; a process that sleeps may be woken at any time, also by a
    wakeup for another reason, and looks at the condition of its loop again. A call on a pipe that
    `pipeclose` has freed follows a wild pointer.

    The state keeps the history: the calls of `pipewrite`, the bytes appended with the call
    that appended them, the bytes delivered, and the calls of `piperead` that returned.

    - `pipe_fifo` : the pipe is a queue, over whole runs and across the wrap of the
      counters. -/

namespace Pipes

open BufCache Param Outcome Runs

open Except (ok.inj)

def PIPESIZE : Nat := 512

structure Pipe extends RingBuf UInt8 where
  readopen  : Bool
  writeopen : Bool

/-- How the loop of `pipewrite` stops: all bytes are written, the pipe is full and nobody can
    read it (or the process was killed), or the process sleeps. -/
inductive Status where
  | done
  | failed
  | sleeps
  deriving DecidableEq

/-- The loop of `pipewrite` with `m` bytes to go, `addr[i]` first; also returns the index at
    which it stops. -/
def writeLoop (killed : Bool) (addr : Nat → UInt8) : Nat → Nat → Pipe → Pipe × Nat × Status
  | 0, i, p => (p, i, .done)
  | m + 1, i, p =>
    if p.toRingBuf.isFull PIPESIZE UINT = true then
      (p, i, if p.readopen = false ∨ killed = true then .failed else .sleeps)
    else writeLoop killed addr m (i + 1)
      { p with toRingBuf := p.toRingBuf.push PIPESIZE UINT (addr i) }

/-- The loop of `piperead` that copies at most `m` bytes. -/
def readLoop : Nat → Pipe → Pipe × List UInt8
  | 0, p => (p, [])
  | m + 1, p =>
    if p.toRingBuf.isEmpty = true then (p, [])
    else
      let r := readLoop m { p with toRingBuf := p.toRingBuf.pop UINT }
      (r.1, p.toRingBuf.front PIPESIZE :: r.2)

/-- `pipeclose`, and whether it frees the pipe. -/
def pipeclose (writable : Bool) (p : Pipe) : Pipe × Bool :=
  let p' := if writable then { p with writeopen := false } else { p with readopen := false }
  (p', decide (p'.readopen = false ∧ p'.writeopen = false))

/-! ## Processes -/

/-- Where a process is: in no call on the pipe, asleep in its `pipewrite` (the number of the
    call, and the next index), or asleep in `piperead`. -/
inductive Pc where
  | idle
  | writing (c i : Nat)
  | reading (n : Int)
  deriving DecidableEq

/-- A call `pipewrite(p, addr, n)` of a process, and what it returned. -/
structure Write where
  proc : Nat
  addr : Nat → UInt8
  n    : Int
  ret  : Option Int

/-- A byte in the pipe, with the process and the call of `pipewrite` that appended it. -/
structure Byte where
  proc : Nat
  call : Nat
  byte : UInt8

/-- A call `piperead(p, addr, n)` that returned, and the pipe at that moment: whether the
    write end was open, and the numbers of bytes appended and delivered in all. -/
structure Read where
  n         : Int
  ret       : Int
  writeopen : Bool
  appended  : Nat
  delivered : Nat

structure State where
  pipe      : Pipe
  freed     : Bool
  pc        : Nat → Pc
  writes    : List Write
  appended  : List Byte
  delivered : List UInt8
  reads     : List Read

/-- `killed` is the flag of the calling process at that moment. -/
inductive Act where
  | pipewrite (proc : Nat) (killed : Bool) (addr : Nat → UInt8) (n : Int)
  | piperead (proc : Nat) (killed : Bool) (n : Int)
  | pipeclose (writable : Bool)
  | wake (proc : Nat) (killed : Bool)

def State.returned (s : State) (c : Nat) (ret : Int) : List Write :=
  s.writes.modify c (fun w => { w with ret := some ret })

/-- `pipewrite` in call `c` from index `i` on. -/
def pipewrite (q : Nat) (killed : Bool) (c i : Nat) (w : Write) (s : State) : State :=
  let r := writeLoop killed w.addr (w.n.toNat - i) i s.pipe
  let s' := { s with
    pipe     := r.1
    appended := s.appended ++ (List.range' i (r.2.1 - i)).map (fun j => (⟨q, c, w.addr j⟩ : Byte)) }
  match r.2.2 with
  | .done => { s' with pc := Function.update s.pc q .idle, writes := s.returned c w.n }
  | .failed => { s' with pc := Function.update s.pc q .idle, writes := s.returned c (-1) }
  | .sleeps => { s' with pc := Function.update s.pc q (.writing c r.2.1) }

/-- `piperead` from the test of its first loop on. -/
def piperead (q : Nat) (killed : Bool) (n : Int) (s : State) : State :=
  if s.pipe.toRingBuf.isEmpty = true ∧ s.pipe.writeopen = true then
    if killed = true then
      { s with
        pc    := Function.update s.pc q .idle
        reads := s.reads ++ [⟨n, -1, s.pipe.writeopen, s.appended.length, s.delivered.length⟩] }
    else { s with pc := Function.update s.pc q (.reading n) }
  else
    let r := readLoop n.toNat s.pipe
    let delivered := s.delivered ++ r.2
    { s with
      pipe      := r.1
      pc        := Function.update s.pc q .idle
      delivered := delivered
      reads     := s.reads ++
        [⟨n, r.2.length, r.1.writeopen, s.appended.length, delivered.length⟩] }

/-- One step.  An action for which its process is not ready does nothing. -/
def step (s : State) (a : Act) : Except Err State :=
  if s.freed = true then .error .wild
  else match a with
    | .pipewrite q killed addr n =>
      if s.pc q = .idle then
        let w : Write := ⟨q, addr, n, none⟩
        .ok (pipewrite q killed s.writes.length 0 w { s with writes := s.writes ++ [w] })
      else .ok s
    | .piperead q killed n => .ok (if s.pc q = .idle then piperead q killed n s else s)
    | .pipeclose writable =>
      let r := pipeclose writable s.pipe
      .ok { s with pipe := r.1, freed := r.2 }
    | .wake q killed =>
      match s.pc q with
      | .idle => .ok s
      | .writing c i =>
        match s.writes[c]? with
        | some w => .ok (pipewrite q killed c i w s)
        | none => .ok s
      | .reading n => .ok (piperead q killed n s)

/-- The pipe that `pipealloc` makes of a page with any bytes. -/
def start (data : Nat → UInt8) : State where
  pipe      := ⟨⟨data, 0, 0⟩, true, true⟩
  freed     := false
  pc        := fun _ => .idle
  writes    := []
  appended  := []
  delivered := []
  reads     := []

/-! ## The loops -/

/-- The ring of the pipe holds what was appended and not delivered. -/
def Holds (p : Pipe) (appended delivered : List UInt8) : Prop :=
  RingBuf.Rep PIPESIZE UINT p.toRingBuf appended delivered

lemma pipesize_dvd : PIPESIZE ∣ UINT := by decide

lemma pipesize_lt : PIPESIZE < UINT := by decide

/-- What the loop of `pipewrite` does: it appends the bytes up to the index at which it
    stops, which is the last one unless the pipe is full. -/
lemma writeLoop_spec (killed : Bool) (addr : Nat → UInt8) (m : Nat) :
    ∀ (i : Nat) (p : Pipe) (A D : List UInt8), Holds p A D →
      ∃ p' k st, writeLoop killed addr m i p = (p', i + k, st) ∧ k ≤ m ∧
        Holds p' (A ++ (List.range' i k).map addr) D ∧ p'.writeopen = p.writeopen ∧
        (st = .done → k = m) ∧ (st = .sleeps → k < m) := by
  induction m with
  | zero =>
    intro i p A D h
    refine ⟨p, 0, .done, rfl, Nat.le_refl 0, ?_, rfl, fun _ => rfl, fun h => nomatch h⟩
    rwa [List.range'_zero, List.map_nil, List.append_nil]
  | succ m ih =>
    intro i p A D h
    rw [writeLoop]
    split
    · refine ⟨p, 0, _, rfl, Nat.zero_le _, ?_, rfl, fun hst => ?_, fun _ => Nat.succ_pos m⟩
      · rwa [List.range'_zero, List.map_nil, List.append_nil]
      · split at hst <;> exact nomatch hst
    · next hfull =>
      have hroom : A.length < D.length + PIPESIZE :=
        Nat.lt_of_le_of_ne h.room (fun e => hfull ((h.isFull_iff pipesize_lt).mpr e))
      have hpush : Holds { p with toRingBuf := p.toRingBuf.push PIPESIZE UINT (addr i) }
          (A ++ [addr i]) D := h.push pipesize_dvd hroom (addr i)
      obtain ⟨p', k, st, hr, hk, hh, hopen, hdone, hsleep⟩ := ih (i + 1) _ _ _ hpush
      refine ⟨p', k + 1, st, ?_, Nat.succ_le_succ hk, ?_, hopen,
        fun e => congrArg (· + 1) (hdone e), fun e => Nat.succ_lt_succ (hsleep e)⟩
      · rw [hr, Nat.add_right_comm, Nat.add_assoc i k 1]
      · rwa [List.append_assoc] at hh

/-- What the loop of `piperead` does: it delivers the oldest bytes, and it stops early only if
    none is left. -/
lemma readLoop_spec (m : Nat) : ∀ (p : Pipe) (A D : List UInt8), Holds p A D →
      Holds (readLoop m p).1 A (D ++ (readLoop m p).2) ∧ (readLoop m p).1.writeopen = p.writeopen ∧
      ((readLoop m p).2.length < m → D ++ (readLoop m p).2 = A) := by
  induction m with
  | zero =>
    intro p A D h
    refine ⟨?_, rfl, fun hlt => absurd hlt (Nat.not_lt_zero _)⟩
    rwa [readLoop, List.append_nil]
  | succ m ih =>
    intro p A D h
    rw [readLoop]
    by_cases hempty : p.toRingBuf.isEmpty = true
    · rw [if_pos hempty, List.append_nil]
      exact ⟨h, rfl, fun _ => (h.isEmpty_iff pipesize_lt).mp hempty⟩
    rw [if_neg hempty]
    have hlt : D.length < A.length := by
      refine Nat.lt_of_le_of_ne h.length_le (fun e => hempty ?_)
      exact (h.isEmpty_iff pipesize_lt).mpr (h.before.eq_of_length e)
    have hpop : Holds { p with toRingBuf := p.toRingBuf.pop UINT } A
        (D ++ [p.toRingBuf.front PIPESIZE]) := h.pop pipesize_dvd hlt
    obtain ⟨hh, hopen, hall⟩ := ih _ _ _ hpop
    rw [List.append_assoc] at hh hall
    exact ⟨hh, hopen, fun hlen => hall (Nat.lt_of_succ_lt_succ hlen)⟩

/-! ## The invariant -/

def Write.bytes (w : Write) : List UInt8 := (List.range w.n.toNat).map w.addr

/-- The bytes that call `c` has appended. -/
def sentBy (A : List Byte) (c : Nat) : List UInt8 := (A.filter (fun e => e.call = c)).map Byte.byte

/-- Process `q` is in call `c` of `pipewrite`, the last of its calls, and has appended the
    bytes before index `i`. -/
structure InCall (ws : List Write) (A : List Byte) (q c i : Nat) (w : Write) : Prop where
  call  : ws[c]? = some w
  proc  : w.proc = q
  ret   : w.ret = none
  le    : i ≤ w.n.toNat
  sent  : sentBy A c = (List.range i).map w.addr
  last  : ∀ e ∈ A, e.proc = q → e.call ≤ c

/-- What holds between two steps. -/
structure Inv (s : State) : Prop where
  holds   : Holds s.pipe (s.appended.map Byte.byte) s.delivered
  called  : ∀ e ∈ s.appended, e.call < s.writes.length
  sent    : ∀ c w, s.writes[c]? = some w → sentBy s.appended c <+: w.bytes ∧
    (∀ r, w.ret = some r → 0 ≤ r → sentBy s.appended c = w.bytes)
  order   : s.appended.Pairwise (fun e e' => e.proc = e'.proc → e.call ≤ e'.call)
  writing : ∀ q c i, s.pc q = .writing c i → ∃ w, InCall s.writes s.appended q c i w
  eof     : ∀ r ∈ s.reads, 0 < r.n → r.ret = 0 → r.writeopen = false ∧ r.delivered = r.appended

lemma Inv.start (data : Nat → UInt8) : Inv (start data) := by
  refine ⟨⟨rfl, rfl, List.nil_prefix, Nat.zero_le _, fun k _ hk => absurd hk (Nat.not_lt_zero k)⟩,
    fun e he => absurd he List.not_mem_nil, fun c w hw => (nomatch hw), List.Pairwise.nil,
    fun q c i hq => (nomatch hq), fun r hr => absurd hr List.not_mem_nil⟩

section Writes

variable {s : State} {q c i : Nat} {w : Write}

lemma sentBy_append (A B : List Byte) (c : Nat) : sentBy (A ++ B) c = sentBy A c ++ sentBy B c := by
  rw [sentBy, List.filter_append, List.map_append]
  rfl

/-- The bytes appended by a stretch of call `c`. -/
def stretch (q c i k : Nat) (addr : Nat → UInt8) : List Byte :=
  (List.range' i k).map (fun j => ⟨q, c, addr j⟩)

lemma mem_stretch {k : Nat} {addr : Nat → UInt8} {e : Byte} (h : e ∈ stretch q c i k addr) :
    e.proc = q ∧ e.call = c := by
  obtain ⟨j, -, rfl⟩ := List.mem_map.mp h
  exact ⟨rfl, rfl⟩

lemma stretch_bytes (k : Nat) (addr : Nat → UInt8) :
    (stretch q c i k addr).map Byte.byte = (List.range' i k).map addr := by
  rw [stretch, List.map_map]
  rfl

lemma sentBy_stretch_self (k : Nat) (addr : Nat → UInt8) :
    sentBy (stretch q c i k addr) c = (List.range' i k).map addr := by
  rw [sentBy, List.filter_eq_self.mpr (fun e he => decide_eq_true (mem_stretch he).2), stretch_bytes]

lemma sentBy_stretch_other {c' : Nat} (hc : c' ≠ c) (k : Nat) (addr : Nat → UInt8) :
    sentBy (stretch q c i k addr) c' = [] := by
  rw [sentBy, List.filter_eq_nil_iff.mpr, List.map_nil]
  intro e he hcall
  exact hc ((of_decide_eq_true hcall).symm.trans (mem_stretch he).2)

lemma range_append_range' (i k : Nat) (addr : Nat → UInt8) :
    (List.range i).map addr ++ (List.range' i k).map addr = (List.range (i + k)).map addr := by
  rw [← List.map_append, List.range_eq_range', List.range_eq_range', ← List.range'_append_1,
    Nat.zero_add]

/-- The state after a stretch of `k` bytes of call `c`, with the process gone on to `pc` and the
    calls as in `ws`. -/
def appendStretch (s : State) (p' : Pipe) (q c i k : Nat) (w : Write) (pc : Pc) (ws : List Write) :
    State :=
  { s with pipe := p', appended := s.appended ++ stretch q c i k w.addr
           pc := Function.update s.pc q pc, writes := ws }

lemma pipewrite_eq (killed : Bool) (h : Holds s.pipe (s.appended.map Byte.byte) s.delivered)
    (hi : i ≤ w.n.toNat) :
    ∃ p' k, i + k ≤ w.n.toNat ∧ Holds p' ((s.appended ++ stretch q c i k w.addr).map Byte.byte)
        s.delivered ∧
      ((pipewrite q killed c i w s = appendStretch s p' q c i k w (.writing c (i + k)) s.writes) ∨
       (i + k = w.n.toNat ∧
        pipewrite q killed c i w s = appendStretch s p' q c i k w .idle (s.returned c w.n)) ∨
       pipewrite q killed c i w s = appendStretch s p' q c i k w .idle (s.returned c (-1))) := by
  obtain ⟨p', k, st, hr, hk, hh, -, hdone, -⟩ :=
    writeLoop_spec killed w.addr (w.n.toNat - i) i s.pipe _ _ h
  refine ⟨p', k, by omega, ?_, ?_⟩
  · rwa [List.map_append, stretch_bytes]
  · rw [pipewrite, hr, Nat.add_sub_cancel_left]
    cases st with
    | done => exact .inr (.inl ⟨by have := hdone rfl; omega, rfl⟩)
    | failed => exact .inr (.inr rfl)
    | sleeps => exact .inl rfl

lemma InCall.congr {ws ws' : List Write} {A A' : List Byte} (h : InCall ws A q c i w)
    (hw : ws'[c]? = ws[c]?) (hs : sentBy A' c = sentBy A c)
    (hl : ∀ e ∈ A', e ∈ A ∨ e.proc ≠ q) : InCall ws' A' q c i w := by
  refine ⟨hw.trans h.call, h.proc, h.ret, h.le, hs.trans h.sent, fun e he hq => ?_⟩
  rcases hl e he with he | hne
  · exact h.last e he hq
  · exact absurd hq hne

/-- A stretch of call `c` keeps the invariant: the process sleeps again, or the call has
    returned, with an error or after the last byte. -/
lemma Inv.appendStretch (h : Inv s) (hc : InCall s.writes s.appended q c i w) {p' : Pipe}
    {k : Nat} {pc : Pc} {ws : List Write} {ret : Option Int} (hk : i + k ≤ w.n.toNat)
    (hp : Holds p' ((s.appended ++ stretch q c i k w.addr).map Byte.byte) s.delivered)
    (hlen : ws.length = s.writes.length) (hother : ∀ c' ≠ c, ws[c']? = s.writes[c']?)
    (hself : ws[c]? = some { w with ret := ret })
    (hret : ∀ r, ret = some r → 0 ≤ r → i + k = w.n.toNat)
    (hpc : pc = .idle ∨ pc = .writing c (i + k) ∧ ret = none) :
    Inv (appendStretch s p' q c i k w pc ws) := by
  have hcl : c < s.writes.length := (List.getElem?_eq_some_iff.mp hc.call).1
  have hsent : sentBy (s.appended ++ stretch q c i k w.addr) c =
      (List.range (i + k)).map w.addr := by
    rw [sentBy_append, hc.sent, sentBy_stretch_self, range_append_range']
  have hsame : ∀ c' ≠ c, sentBy (s.appended ++ stretch q c i k w.addr) c' =
      sentBy s.appended c' := by
    intro c' hc'
    rw [sentBy_append, sentBy_stretch_other hc', List.append_nil]
  refine ⟨hp, fun e he => ?_, fun c' w' hw' => ?_, ?_, fun q' c' i' hq' => ?_, h.eof⟩
  · show e.call < ws.length
    rw [hlen]
    rcases List.mem_append.mp he with he | he
    · exact h.called e he
    · rwa [(mem_stretch he).2]
  · replace hw' : ws[c']? = some w' := hw'
    show sentBy (s.appended ++ _) c' <+: _ ∧ ∀ r, _ → _ → sentBy (s.appended ++ _) c' = _
    by_cases hc' : c' = c
    · subst hc'
      rw [hself] at hw'
      obtain rfl := Option.some.inj hw'
      rw [hsent]
      refine ⟨?_, fun r hr h0 => by rw [hret r hr h0]; rfl⟩
      obtain ⟨d, hd⟩ := Nat.exists_eq_add_of_le hk
      exact ⟨(List.range' (i + k) d).map w.addr, by rw [range_append_range', ← hd]; rfl⟩
    · rw [hsame c' hc']
      rw [hother c' hc'] at hw'
      exact h.sent c' w' hw'
  · -- the bytes of the process before this stretch are of this call or of earlier ones
    refine List.pairwise_append.mpr ⟨h.order, ?_, fun e he e' he' hq => ?_⟩
    · refine List.pairwise_of_forall_mem_list (fun e he e' he' _ => ?_)
      rw [(mem_stretch he).2, (mem_stretch he').2]
    · rw [(mem_stretch he').2]
      exact hc.last e he (hq.trans (mem_stretch he').1)
  · have hq' : Function.update s.pc q pc q' = .writing c' i' := hq'
    by_cases hqq : q' = q
    · subst hqq
      rw [Function.update_self] at hq'
      rcases hpc with rfl | ⟨rfl, hnone⟩
      · exact nomatch hq'
      obtain ⟨rfl, rfl⟩ := Pc.writing.inj hq'
      refine ⟨{ w with ret := ret }, hself, hc.proc, hnone, hk, hsent, fun e he hq => ?_⟩
      rcases List.mem_append.mp he with he | he
      · exact hc.last e he hq
      · exact Nat.le_of_eq (mem_stretch he).2
    rw [Function.update_of_ne hqq] at hq'
    obtain ⟨w', hw'⟩ := h.writing q' c' i' hq'
    have hcc : c' ≠ c := by
      rintro rfl
      have := hw'.call
      rw [hc.call] at this
      obtain rfl := Option.some.inj this
      exact hqq (hw'.proc.symm.trans hc.proc)
    refine ⟨w', hw'.congr (hother c' hcc) (hsame c' hcc) (fun e he => ?_)⟩
    rcases List.mem_append.mp he with he | he
    · exact .inl he
    · exact .inr (fun hq => hqq (hq.symm.trans (mem_stretch he).1))

lemma Inv.pipewrite (h : Inv s) (hc : InCall s.writes s.appended q c i w) (killed : Bool) :
    Inv (pipewrite q killed c i w s) := by
  have hwritten : ∀ r, (s.returned c r).length = s.writes.length ∧
      (∀ c' ≠ c, (s.returned c r)[c']? = s.writes[c']?) ∧
      (s.returned c r)[c]? = some { w with ret := some r } := by
    intro r
    refine ⟨List.length_modify _ _ _, fun c' hc' => ?_, ?_⟩
    · exact List.getElem?_modify_ne _ _ hc'.symm
    · rw [State.returned, List.getElem?_modify_eq, hc.call]
      rfl
  have hself : s.writes[c]? = some { w with ret := none } := by
    rw [hc.call, ← hc.ret]
  obtain ⟨p', k, hk, hp, heq | ⟨hlast, heq⟩ | heq⟩ :=
    pipewrite_eq (q := q) (c := c) killed h.holds hc.le
  · rw [heq]
    exact h.appendStretch hc hk hp rfl (fun _ _ => rfl) hself (fun r hr => (nomatch hr))
      (.inr ⟨rfl, rfl⟩)
  · rw [heq]
    obtain ⟨h1, h2, h3⟩ := hwritten w.n
    exact h.appendStretch hc hk hp h1 h2 h3 (fun _ _ _ => hlast) (.inl rfl)
  · rw [heq]
    obtain ⟨h1, h2, h3⟩ := hwritten (-1)
    refine h.appendStretch hc hk hp h1 h2 h3 (fun r hr h0 => ?_) (.inl rfl)
    obtain rfl := Option.some.inj hr
    exact absurd h0 (by decide)

end Writes

section Steps

variable {s s' : State}

lemma Inv.newCall (h : Inv s) (q : Nat) (addr : Nat → UInt8) (n : Int) :
    Inv { s with writes := s.writes ++ [⟨q, addr, n, none⟩] } ∧
    InCall (s.writes ++ [⟨q, addr, n, none⟩]) s.appended q s.writes.length 0
      ⟨q, addr, n, none⟩ := by
  have hnone : sentBy s.appended s.writes.length = [] := by
    rw [sentBy, List.filter_eq_nil_iff.mpr, List.map_nil]
    intro e he hcall
    exact absurd (h.called e he) (by rw [of_decide_eq_true hcall]; exact Nat.lt_irrefl _)
  have hnew : (s.writes ++ [(⟨q, addr, n, none⟩ : Write)])[s.writes.length]? =
      some ⟨q, addr, n, none⟩ := List.getElem?_concat_length
  have hold : ∀ c < s.writes.length, (s.writes ++ [(⟨q, addr, n, none⟩ : Write)])[c]? =
      s.writes[c]? := fun c hc => List.getElem?_append_left hc
  refine ⟨⟨h.holds, fun e he => ?_, fun c w hw => ?_, h.order, fun q' c i hq => ?_, h.eof⟩,
    hnew, rfl, rfl, Nat.zero_le _, hnone, fun e he _ => Nat.le_of_lt (h.called e he)⟩
  · exact Nat.lt_of_lt_of_le (h.called e he) (by rw [List.length_append]; omega)
  · have hw : (s.writes ++ [(⟨q, addr, n, none⟩ : Write)])[c]? = some w := hw
    by_cases hc : c < s.writes.length
    · rw [hold c hc] at hw
      exact h.sent c w hw
    have hlt := (List.getElem?_eq_some_iff.mp hw).1
    rw [List.length_append, List.length_singleton] at hlt
    obtain rfl : c = s.writes.length := by omega
    rw [hnew] at hw
    obtain rfl := Option.some.inj hw
    show sentBy s.appended _ <+: _ ∧ ∀ r, _ → _ → sentBy s.appended _ = _
    rw [hnone]
    exact ⟨List.nil_prefix, fun r hr => (nomatch hr)⟩
  · obtain ⟨w, hw⟩ := h.writing q' c i hq
    refine ⟨w, hw.congr ?_ rfl (fun e he => .inl he)⟩
    exact hold c (List.getElem?_eq_some_iff.mp hw.call).1

lemma writing_of_update {q q' c i : Nat} {pc : Pc} (hpc : ∀ c i, pc ≠ .writing c i)
    (hq : Function.update s.pc q pc q' = .writing c i) : s.pc q' = .writing c i := by
  by_cases hqq : q' = q
  · subst hqq
    rw [Function.update_self] at hq
    exact absurd hq (hpc c i)
  · rwa [Function.update_of_ne hqq] at hq

lemma Inv.piperead (h : Inv s) (q : Nat) (killed : Bool) (n : Int) :
    Inv (piperead q killed n s) := by
  have hidle : ∀ c i, Pc.idle ≠ .writing c i := fun _ _ h => nomatch h
  have hreading : ∀ c i, Pc.reading n ≠ .writing c i := fun _ _ h => nomatch h
  rw [Pipes.piperead]
  split
  · split
    · refine ⟨h.holds, h.called, h.sent, h.order,
        fun q' c i hq => h.writing q' c i (writing_of_update hidle hq), fun r hr hn h0 => ?_⟩
      rcases List.mem_append.mp hr with hr | hr
      · exact h.eof r hr hn h0
      · rw [List.mem_singleton.mp hr] at h0
        exact nomatch h0
    · exact ⟨h.holds, h.called, h.sent, h.order,
        fun q' c i hq => h.writing q' c i (writing_of_update hreading hq), h.eof⟩
  · next hwait =>
    obtain ⟨hh, hopen, hall⟩ := readLoop_spec n.toNat _ _ _ h.holds
    refine ⟨hh, h.called, h.sent, h.order,
      fun q' c i hq => h.writing q' c i (writing_of_update hidle hq), fun r hr hn h0 => ?_⟩
    rcases List.mem_append.mp hr with hr | hr
    · exact h.eof r hr hn h0
    rw [List.mem_singleton.mp hr] at hn h0 ⊢
    -- nothing was copied although there was room, so the pipe was empty
    have hlen : (readLoop n.toNat s.pipe).2.length = 0 := Int.ofNat.inj h0
    have hn : 0 < n := hn
    have hnil := List.eq_nil_of_length_eq_zero hlen
    have heq := hall (by omega)
    rw [hnil, List.append_nil] at heq
    have hempty := (h.holds.isEmpty_iff pipesize_lt).mpr heq
    refine ⟨?_, ?_⟩
    · show (readLoop n.toNat s.pipe).1.writeopen = false
      rw [hopen]
      exact Bool.eq_false_iff.mpr (fun hw => hwait ⟨hempty, hw⟩)
    · show (s.delivered ++ (readLoop n.toNat s.pipe).2).length = s.appended.length
      rw [hnil, List.append_nil, heq, List.length_map]

lemma Inv.step {a : Act} (h : Inv s) (hr : step s a = .ok s') : Inv s' := by
  rw [Pipes.step.eq_def] at hr
  split at hr
  · exact nomatch hr
  cases a with
  | pipewrite q killed addr n =>
    dsimp only at hr
    split at hr
    · obtain ⟨hs, hc⟩ := h.newCall q addr n
      rw [← ok.inj hr]
      exact hs.pipewrite hc killed
    · rwa [← ok.inj hr]
  | piperead q killed n =>
    rw [← ok.inj hr]
    split
    · exact h.piperead q killed n
    · exact h
  | pipeclose writable =>
    rw [← ok.inj hr]
    refine ⟨?_, h.called, h.sent, h.order, h.writing, h.eof⟩
    show Holds (pipeclose writable s.pipe).1 _ _
    rw [pipeclose]
    cases writable
    · exact h.holds
    · exact h.holds
  | wake q killed =>
    dsimp only at hr
    cases hq : s.pc q with
    | idle =>
      rw [hq] at hr
      rwa [← ok.inj hr]
    | writing c i =>
      obtain ⟨w, hw⟩ := h.writing q c i hq
      rw [hq] at hr
      dsimp only at hr
      rw [hw.call] at hr
      rw [← ok.inj hr]
      exact h.pipewrite hw killed
    | reading n =>
      rw [hq] at hr
      rw [← ok.inj hr]
      exact h.piperead q killed n

end Steps

/-! ## The pipe as a queue -/

/-- What the calls on a pipe see of each other. -/
structure Fifo (s : State) : Prop where
  /-- The counters are at most `PIPESIZE` apart, modulo their range. -/
  counters  : (s.pipe.nwrite + (UINT - s.pipe.nread)) % UINT ≤ PIPESIZE
  /-- Readers get the appended bytes, in order, each once. -/
  delivered : s.delivered <+: s.appended.map Byte.byte
  /-- What is appended and not delivered is what the counters say. -/
  pending   : (s.pipe.nwrite + (UINT - s.pipe.nread)) % UINT =
    s.appended.length - s.delivered.length
  /-- A call of `pipewrite` appends the bytes it was given, from the first one on, and all of
      them if it succeeds. -/
  sent      : ∀ c w, s.writes[c]? = some w → sentBy s.appended c <+: w.bytes ∧
    (∀ r, w.ret = some r → 0 ≤ r → sentBy s.appended c = w.bytes)
  /-- The bytes of different calls of a process are in the order of the calls. -/
  order     : s.appended.Pairwise (fun e e' => e.proc = e'.proc → e.call ≤ e'.call)
  /-- End of file. -/
  eof       : ∀ r ∈ s.reads, 0 < r.n → r.ret = 0 → r.writeopen = false ∧ r.delivered = r.appended

lemma Inv.fifo {s : State} (h : Inv s) : Fifo s := by
  have hfill := h.holds.fill pipesize_lt
  have hroom := h.holds.room
  rw [List.length_map] at hfill hroom
  exact ⟨by rw [hfill]; omega, h.holds.before, hfill, h.sent, h.order, h.eof⟩

/-- **A pipe is a queue.** -/
theorem pipe_fifo (data : Nat → UInt8) (as : List Act) (u : State)
    (hrun : exec step as (start data) = .ok u) : Fifo u :=
  (exec_invariant_of_step (fun _ _ _ h hr => h.step hr) (Inv.start data) hrun).fifo

/-- A reader sleeps until three bytes are written, and takes two of them; after the write end is
    closed another one takes the last byte and then finds the end of the file. -/
def threeBytes : List Act :=
  [.piperead 1 false 2, .pipewrite 0 false (fun i => UInt8.ofNat i) 3, .wake 1 false,
   .pipeclose true, .piperead 2 false 10, .piperead 2 false 10]

theorem pipe_fifo_threeBytes : ∃ u, exec step threeBytes (start fun _ => 0) = .ok u ∧
    u.delivered = [0, 1, 2] ∧ u.reads.map Read.ret = [2, 1, 0] ∧ Fifo u :=
  ⟨_, rfl, by decide +kernel, by decide +kernel, pipe_fifo (fun _ => 0) threeBytes _ rfl⟩

end Pipes
