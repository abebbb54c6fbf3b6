import Mathlib.Data.List.Dedup
import Mathlib.Data.List.Nodup
import Xv6Ext2.BufCacheProofs
import Xv6Ext2.RunsProofs

/-! # The transaction protocol of the log (log.c)

    Any number of processes run file-system operations, each of the form `begin_op`, any number of
    `log_write`s, `end_op`.  A step is what a process does while it holds `log.lock`, or between two
    such regions: the tests at the head of `log_write` are made without the lock, and so is every
    phase of `commit`.

    Next to the fields of `struct log` the state keeps what happened: the number
    of finished commits (`epoch`), a number for every operation (`opOf`), which
    operation logged which block during which epoch (`hist`), and what each
    committing `write_head` wrote (`commits`).  No step of the code reads them.

    The invariant `Inv` says who can be where: the operations counted by
    `outstanding` are the processes between `begin_op` and `end_op`, nobody is
    there while a commit runs, and only one process runs it. -/

namespace LogProtocol

open BufCache Param Runs

open Except (ok.inj)

open Function (update update_apply update_of_ne update_self)

open List (mem_cons nodup_nil)

/-- Where `commit` (and the end of `end_op`) stands. -/
inductive Phase where
  | check | writeLog | writeHead | install | clear | eraseHead | finish
  deriving DecidableEq, Repr

inductive Pc where
  | idle
  | beginning
  | sleeping
  | op
  | logging (b : Nat)
  | commit (ph : Phase)
  deriving DecidableEq, Repr

/-- Between the end of `begin_op` and the beginning of `end_op`. -/
def Pc.inOp : Pc → Bool
  | .op => true
  | .logging _ => true
  | _ => false

/-- `log.lh.n = 0` has been executed in this commit, or there was nothing to do. -/
def Phase.cleared : Phase → Bool
  | .eraseHead => true
  | .finish => true
  | _ => false

/-- One completed `log_write`. -/
structure Logged where
  epoch : Nat
  op    : Nat
  block : Nat
  deriving DecidableEq, Repr

/-- `struct log`, the processes, and the history. -/
structure LogState where
  size        : Nat
  lh          : List Nat
  outstanding : Nat
  committing  : Bool
  pc          : Nat → Pc
  epoch       : Nat
  nextOp      : Nat
  opOf        : Nat → Nat
  hist        : List Logged
  commits     : List (Nat × List Nat)

inductive Act where
  | call (p : Nat)
  | beginOp (p : Nat)
  | logTest (p b : Nat)
  | logAppend (p : Nat)
  | endOp (p : Nat)
  | commitStep (p : Nat)
  deriving DecidableEq, Repr

/-- Why a step does not lead to a state: the process is not at that place of the
    code, or the code panics. -/
inductive LogErr where
  | blocked
  | panic (msg : String)
  deriving DecidableEq, Repr

def wakeup (pc : Nat → Pc) : Nat → Pc :=
  fun p => if pc p = .sleeping then .beginning else pc p

/-- The loop of `log_write`: look for the block, store its number, and count it if it is new. -/
def absorb (b : Nat) : List Nat → List Nat
  | [] => [b]
  | x :: rest => if x = b then b :: rest else x :: absorb b rest

def LogState.goto (s : LogState) (p : Nat) (c : Pc) : LogState :=
  { s with pc := update s.pc p c }

/-- `begin_op` with the lock held: sleep while a commit runs or the log might
    run out of space, else join. -/
def beginOp (s : LogState) (p : Nat) : LogState :=
  if s.committing then s.goto p .sleeping
  else if LOGSIZE < s.lh.length + (s.outstanding + 1) * MAXOPBLOCKS then
    s.goto p .sleeping
  else
    { s.goto p .op with
      outstanding := s.outstanding + 1
      opOf := update s.opOf p s.nextOp
      nextOp := s.nextOp + 1 }

/-- The tests of `log_write`, made before it takes the lock. -/
def logTest (s : LogState) (p b : Nat) : Except LogErr LogState :=
  if LOGSIZE ≤ s.lh.length ∨ s.size - 1 ≤ s.lh.length then
    .error (.panic "too big a transaction")
  else if s.outstanding < 1 then .error (.panic "log_write outside of trans")
  else .ok (s.goto p (.logging b))

/-- The rest of `log_write`, with the lock held. -/
def logAppend (s : LogState) (p b : Nat) : LogState :=
  { s.goto p .op with
    lh := absorb b s.lh
    hist := ⟨s.epoch, s.opOf p, b⟩ :: s.hist }

/-- The first part of `end_op`, with the lock held. -/
def endOp (s : LogState) (p : Nat) : Except LogErr LogState :=
  if s.committing then .error (.panic "log.committing")
  else if s.outstanding - 1 = 0 then
    .ok { s.goto p (.commit .check) with outstanding := s.outstanding - 1, committing := true }
  else
    .ok { s with
      outstanding := s.outstanding - 1
      pc := update (wakeup s.pc) p .idle }

/-- `commit`, one phase at a time, and the second locked part of `end_op`. -/
def commitStep (s : LogState) (p : Nat) : Phase → LogState
  | .check => s.goto p (.commit (if 0 < s.lh.length then .writeLog else .finish))
  | .writeLog => s.goto p (.commit .writeHead)
  | .writeHead =>
    { s.goto p (.commit .install) with commits := (s.epoch, s.lh) :: s.commits }
  | .install => s.goto p (.commit .clear)
  | .clear => { s.goto p (.commit .eraseHead) with lh := [] }
  | .eraseHead => s.goto p (.commit .finish)
  | .finish =>
    { s with
      committing := false
      epoch := s.epoch + 1
      pc := update (wakeup s.pc) p .idle }

def step (s : LogState) : Act → Except LogErr LogState
  | .call p => if s.pc p = .idle then .ok (s.goto p .beginning) else .error .blocked
  | .beginOp p => if s.pc p = .beginning then .ok (beginOp s p) else .error .blocked
  | .logTest p b => if s.pc p = .op then logTest s p b else .error .blocked
  | .logAppend p =>
    match s.pc p with
    | .logging b => .ok (logAppend s p b)
    | _ => .error .blocked
  | .endOp p => if s.pc p = .op then endOp s p else .error .blocked
  | .commitStep p =>
    match s.pc p with
    | .commit ph => .ok (commitStep s p ph)
    | _ => .error .blocked

/-- The log of `initlog` after recovery; `size` is `sb.nlog`. -/
def init (size : Nat) : LogState where
  size        := size
  lh          := []
  outstanding := 0
  committing  := false
  pc          := fun _ => .idle
  epoch       := 0
  nextOp      := 0
  opOf        := fun _ => 0
  hist        := []
  commits     := []

/-! ## Transitions -/

/-- The transitions, as the code takes them. -/
inductive Trans (s : LogState) : Act → LogState → Prop where
  | call (p : Nat) (hp : s.pc p = .idle) : Trans s (.call p) (s.goto p .beginning)
  | sleep (p : Nat) (hp : s.pc p = .beginning) : Trans s (.beginOp p) (s.goto p .sleeping)
  | admitted (p : Nat) (hp : s.pc p = .beginning) (hc : s.committing = false)
      (hres : s.lh.length + (s.outstanding + 1) * MAXOPBLOCKS ≤ LOGSIZE) :
      Trans s (.beginOp p) { s.goto p .op with
        outstanding := s.outstanding + 1
        opOf := update s.opOf p s.nextOp
        nextOp := s.nextOp + 1 }
  | test (p b : Nat) (hp : s.pc p = .op) : Trans s (.logTest p b) (s.goto p (.logging b))
  | append (p b : Nat) (hp : s.pc p = .logging b) :
      Trans s (.logAppend p) (logAppend s p b)
  | leave (p : Nat) (hp : s.pc p = .op) (hc : s.committing = false)
      (ho : s.outstanding - 1 ≠ 0) :
      Trans s (.endOp p) { s with
        outstanding := s.outstanding - 1
        pc := update (wakeup s.pc) p .idle }
  | last (p : Nat) (hp : s.pc p = .op) (hc : s.committing = false)
      (ho : s.outstanding - 1 = 0) :
      Trans s (.endOp p) { s.goto p (.commit .check) with
        outstanding := s.outstanding - 1, committing := true }
  | phase (p : Nat) (ph : Phase) (hp : s.pc p = .commit ph) :
      Trans s (.commitStep p) (commitStep s p ph)

variable {s s' : LogState} {a : Act}

/-- Every step is one of the transitions. -/
lemma trans_of_step (h : step s a = .ok s') : Trans s a s' := by
  cases a with
  | call p =>
    simp only [step] at h
    split at h
    · exact ok.inj h ▸ .call p ‹_›
    · exact nomatch h
  | beginOp p =>
    simp only [step, beginOp] at h
    split at h
    · rename_i hp
      rw [← ok.inj h]
      split
      · exact .sleep p hp
      split
      · exact .sleep p hp
      · exact .admitted p hp (by simpa using ‹¬ s.committing = true›) (by omega)
    · exact nomatch h
  | logTest p b =>
    simp only [step, logTest] at h
    split at h
    · rename_i hp
      split at h
      · exact nomatch h
      split at h
      · exact nomatch h
      · exact ok.inj h ▸ .test p b hp
    · exact nomatch h
  | logAppend p =>
    simp only [step] at h
    split at h
    · exact ok.inj h ▸ .append p _ ‹_›
    · exact nomatch h
  | endOp p =>
    simp only [step, endOp] at h
    split at h
    · rename_i hp
      split at h
      · exact nomatch h
      rename_i hc
      have hc' : s.committing = false := by simpa using hc
      split at h
      · exact ok.inj h ▸ .last p hp hc' ‹_›
      · exact ok.inj h ▸ .leave p hp hc' ‹_›
    · exact nomatch h
  | commitStep p =>
    simp only [step] at h
    split at h
    · exact ok.inj h ▸ .phase p _ ‹_›
    · exact nomatch h

/-! ## Who is where -/

/-- Who is where: `outstanding` counts the processes inside an operation, there
    are none of them while a commit runs, and at most one process commits. -/
structure Control (pc : Nat → Pc) (outstanding : Nat) (committing : Bool) : Prop where
  active    : ∃ l : List Nat, l.Nodup ∧ (∀ p, p ∈ l ↔ (pc p).inOp = true) ∧
    outstanding = l.length
  quiet     : committing = true → outstanding = 0
  committer : ∀ p ph, pc p = .commit ph → committing = true
  unique    : ∀ p q ph qh, pc p = .commit ph → pc q = .commit qh → p = q

section Control

variable {pc : Nat → Pc} {n : Nat} {c : Bool} {p : Nat}

lemma Control.notInOp (h : Control pc n true) (q : Nat) : (pc q).inOp = false := by
  obtain ⟨l, -, hl, hlen⟩ := h.active
  have h0 : n = 0 := h.quiet rfl
  have hnil : l = [] := List.length_eq_zero_iff.mp (by omega)
  have := hl q
  rw [hnil] at this
  simpa using this

lemma Control.notCommit (h : Control pc n false) (q : Nat) (ph : Phase) : pc q ≠ .commit ph := by
  intro hq
  exact nomatch h.committer q ph hq

/-- A step that moves nobody into or out of an operation or a commit. -/
lemma Control.same {pc' : Nat → Pc} (h : Control pc n c) (hop : ∀ q, (pc' q).inOp = (pc q).inOp)
    (hcm : ∀ q ph, pc' q = .commit ph → ∃ ph', pc q = .commit ph') : Control pc' n c := by
  obtain ⟨l, hnd, hl, hlen⟩ := h.active
  refine ⟨⟨l, hnd, fun q => by rw [hop, hl], hlen⟩, h.quiet, ?_, ?_⟩
  · intro q ph hq
    obtain ⟨ph', hq'⟩ := hcm q ph hq
    exact h.committer q ph' hq'
  · intro q r ph rh hq hr
    obtain ⟨ph', hq'⟩ := hcm q ph hq
    obtain ⟨rh', hr'⟩ := hcm r rh hr
    exact h.unique q r ph' rh' hq' hr'

lemma Control.woken (h : Control pc n c) : Control (wakeup pc) n c := by
  refine h.same ?_ ?_
  · intro q
    unfold wakeup
    split
    · rename_i hq; rw [hq]; rfl
    · rfl
  · intro q ph hq
    unfold wakeup at hq
    split at hq
    · exact nomatch hq
    · exact ⟨ph, hq⟩

/-- The case of one process that stays outside both, or inside the same. -/
lemma Control.goto (h : Control pc n c) {d : Pc} (hop : d.inOp = (pc p).inOp)
    (hcm : ∀ ph, d = .commit ph → ∃ ph', pc p = .commit ph') : Control (update pc p d) n c := by
  refine h.same ?_ ?_
  · intro q
    by_cases hq : q = p
    · subst hq; rw [update_self, hop]
    · rw [update_of_ne hq]
  · intro q ph hph
    by_cases hq : q = p
    · subst hq; rw [update_self] at hph; exact hcm ph hph
    · rw [update_of_ne hq] at hph; exact ⟨ph, hph⟩

lemma Control.enter (h : Control pc n false) (hp : (pc p).inOp = false) :
    Control (update pc p .op) (n + 1) false := by
  obtain ⟨l, hnd, hl, hlen⟩ := h.active
  have hpl : p ∉ l := by rw [hl, hp]; exact nofun
  have hno : ∀ q ph, update pc p .op q ≠ .commit ph := by
    intro q ph
    by_cases hq : q = p
    · subst hq; rw [update_self]; exact nofun
    · rw [update_of_ne hq]; exact h.notCommit q ph
  refine ⟨⟨p :: l, List.nodup_cons.mpr ⟨hpl, hnd⟩, ?_, by rw [hlen]; rfl⟩, nofun,
    fun q ph hq => absurd hq (hno q ph), fun q _ ph _ hq => absurd hq (hno q ph)⟩
  intro q
  by_cases hq : q = p
  · subst hq; simp [Pc.inOp]
  · rw [update_of_ne hq, mem_cons, ← hl]; simp [hq]

lemma Control.exit (h : Control pc n false) (hp : (pc p).inOp = true) {d : Pc}
    (hd : d.inOp = false) (c : Bool) (hcm : ∀ ph, d = .commit ph → c = true)
    (hlast : c = true → n - 1 = 0) : Control (update pc p d) (n - 1) c := by
  obtain ⟨l, hnd, hl, hlen⟩ := h.active
  have hpl : p ∈ l := (hl p).mpr hp
  have honly : ∀ q ph, update pc p d q = .commit ph → q = p := by
    intro q ph hq
    by_contra hne
    rw [update_of_ne hne] at hq
    exact h.notCommit q ph hq
  refine ⟨⟨l.erase p, hnd.erase p, ?_, by rw [List.length_erase_of_mem hpl, hlen]⟩, hlast, ?_, ?_⟩
  · intro q
    by_cases hq : q = p
    · subst hq; rw [update_self, hd, hnd.mem_erase_iff]; simp
    · rw [update_of_ne hq, ← hl, hnd.mem_erase_iff]; simp [hq]
  · intro q ph hq
    obtain rfl := honly q ph hq
    rw [update_self] at hq
    exact hcm ph hq
  · intro q r ph rh hq hr
    rw [honly q ph hq, honly r rh hr]

lemma Control.finish (h : Control pc n true) {ph : Phase} (hp : pc p = .commit ph) :
    Control (update pc p .idle) n false := by
  obtain ⟨l, hnd, hl, hlen⟩ := h.active
  have hno : ∀ q qh, update pc p .idle q ≠ .commit qh := by
    intro q qh hq
    by_cases hqp : q = p
    · subst hqp; rw [update_self] at hq; exact nomatch hq
    · rw [update_of_ne hqp] at hq
      exact hqp (h.unique q p qh ph hq hp)
  refine ⟨⟨l, hnd, ?_, hlen⟩, nofun, fun q qh hq => absurd hq (hno q qh),
    fun q _ qh _ hq => absurd hq (hno q qh)⟩
  intro q
  by_cases hq : q = p
  · subst hq; rw [hl, hp, update_self]; rfl
  · rw [hl, update_of_ne hq]

end Control

variable {pc : Nat → Pc} {p : Nat}

lemma wakeup_of_ne (h : pc p ≠ .sleeping) : wakeup pc p = pc p := if_neg h

lemma control_trans (h : Control s.pc s.outstanding s.committing) (ht : Trans s a s') :
    Control s'.pc s'.outstanding s'.committing := by
  cases ht with
  | call p hp => exact h.goto (by rw [hp]; rfl) nofun
  | sleep p hp => exact h.goto (by rw [hp]; rfl) nofun
  | test p b hp => exact h.goto (by rw [hp]; rfl) nofun
  | append p b hp => exact h.goto (by rw [hp]; rfl) nofun
  | admitted p hp hc hres =>
    show Control (update s.pc p .op) (s.outstanding + 1) s.committing
    rw [hc] at h ⊢
    exact h.enter (by rw [hp]; rfl)
  | leave p hp hc ho =>
    show Control (update (wakeup s.pc) p .idle) (s.outstanding - 1) s.committing
    rw [hc] at h ⊢
    have hw : wakeup s.pc p = .op := by rw [wakeup_of_ne (by rw [hp]; exact nofun), hp]
    exact h.woken.exit (by rw [hw]; rfl) rfl false nofun nofun
  | last p hp hc ho =>
    show Control (update s.pc p (.commit .check)) (s.outstanding - 1) true
    rw [hc] at h
    exact h.exit (by rw [hp]; rfl) rfl true (fun _ _ => rfl) (fun _ => ho)
  | phase p ph hp =>
    have hc : s.committing = true := h.committer p ph hp
    cases ph with
    | finish =>
      show Control (update (wakeup s.pc) p .idle) s.outstanding false
      rw [hc] at h
      have hw : wakeup s.pc p = .commit .finish := by
        rw [wakeup_of_ne (by rw [hp]; exact nofun), hp]
      exact h.woken.finish hw
    | _ => exact h.goto (by rw [hp]; rfl) (fun _ _ => ⟨_, hp⟩)

/-! ## The history -/

variable {b : Nat}

lemma mem_absorb {x : Nat} (l : List Nat) : x ∈ absorb b l ↔ x = b ∨ x ∈ l := by
  induction l with
  | nil => simp [absorb]
  | cons y rest ih =>
    rw [absorb]
    by_cases hy : y = b
    · subst hy; rw [if_pos rfl]; simp
    rw [if_neg hy, mem_cons, mem_cons, ih]
    constructor
    · rintro (h | h | h) <;> simp [h]
    · rintro (h | h | h) <;> simp [h]

variable {l : List Nat}

lemma absorb_of_mem (h : b ∈ l) : absorb b l = l := by
  induction l with
  | nil => exact nomatch h
  | cons y rest ih =>
    rw [absorb]
    by_cases hy : y = b
    · rw [if_pos hy, hy]
    · rw [if_neg hy, ih ((mem_cons.mp h).resolve_left (Ne.symm hy))]

lemma absorb_of_notMem (h : b ∉ l) : absorb b l = l ++ [b] := by
  induction l with
  | nil => rfl
  | cons y rest ih =>
    rw [absorb, if_neg (fun hy : y = b => h (hy ▸ List.mem_cons_self)),
      ih (fun hr => h (List.mem_cons_of_mem _ hr))]
    rfl

lemma nodup_absorb (h : l.Nodup) : (absorb b l).Nodup := by
  by_cases hb : b ∈ l
  · rw [absorb_of_mem hb]; exact h
  rw [absorb_of_notMem hb]
  exact List.nodup_append.mpr ⟨h, List.nodup_singleton b, fun x hx y hy hxy =>
    hb ((List.mem_singleton.mp hy) ▸ hxy ▸ hx)⟩

/-- The running commit has emptied the in-memory header. -/
def Cleared (pc : Nat → Pc) : Prop :=
  ∃ p ph, pc p = .commit ph ∧ ph.cleared = true

/-- The operation was admitted and no process is executing it any more. -/
def LogState.Ended (s : LogState) (o : Nat) : Prop :=
  o < s.nextOp ∧ ∀ p, (s.pc p).inOp = true → s.opOf p ≠ o

/-- The header against the history. -/
structure History (s : LogState) : Prop where
  nodup    : s.lh.Nodup
  logged   : ¬ Cleared s.pc → ∀ b, b ∈ s.lh ↔ ∃ o, ⟨s.epoch, o, b⟩ ∈ s.hist
  cleared  : Cleared s.pc → s.lh = []
  past     : ∀ w ∈ s.hist, w.epoch ≤ s.epoch ∧ w.op < s.nextOp
  current  : ∀ p, (s.pc p).inOp = true → s.opOf p < s.nextOp ∧
    ∀ w ∈ s.hist, w.op = s.opOf p → w.epoch = s.epoch
  oneEpoch : ∀ w ∈ s.hist, ∀ v ∈ s.hist, w.op = v.op → w.epoch = v.epoch
  commits  : ∀ e bs, (e, bs) ∈ s.commits →
    bs.Nodup ∧ (∀ b, b ∈ bs ↔ ∃ o, ⟨e, o, b⟩ ∈ s.hist) ∧
    (∀ w ∈ s.hist, w.epoch = e → s.Ended w.op) ∧
    e ≤ s.epoch ∧ (e = s.epoch → s.committing = true)

/-- `Cleared` is decided by the one committing process. -/
lemma cleared_iff {n : Nat} {c : Bool} (h : Control pc n c) {ph : Phase}
    (hp : pc p = .commit ph) : Cleared pc ↔ ph.cleared = true := by
  constructor
  · rintro ⟨q, qh, hq, hqh⟩
    obtain rfl := h.unique q p qh ph hq hp
    rw [hp] at hq
    rwa [Pc.commit.inj hq]
  · intro hc
    exact ⟨p, ph, hp, hc⟩

lemma not_cleared {n : Nat} (h : Control pc n false) : ¬ Cleared pc := by
  rintro ⟨q, qh, hq, -⟩
  exact h.notCommit q qh hq

/-- A step that changes nothing but where processes stand, and moves nobody into an operation. -/
lemma History.move (h : History s) (pc : Nat → Pc) (n : Nat) (c : Bool)
    (hc : s.committing = true → c = true) (hop : ∀ q, (pc q).inOp = true → (s.pc q).inOp = true)
    (h1 : Cleared pc → Cleared s.pc ∨ s.lh = []) (h2 : Cleared s.pc → Cleared pc) :
    History { s with pc := pc, outstanding := n, committing := c } where
  nodup := h.nodup
  logged := fun hn => h.logged (fun hs => hn (h2 hs))
  cleared := fun hs => (h1 hs).elim h.cleared id
  past := h.past
  current := fun q hq => h.current q (hop q hq)
  oneEpoch := h.oneEpoch
  commits := by
    intro e bs hbs
    obtain ⟨h1, h2, h3, h4, h5⟩ := h.commits e bs hbs
    refine ⟨h1, h2, fun w hw he => ?_, h4, fun he => hc (h5 he)⟩
    exact ⟨(h3 w hw he).1, fun q hq => (h3 w hw he).2 q (hop q hq)⟩

/-- The case of one process that is not committing. -/
lemma History.goto (h : History s) {d : Pc} (hop : d.inOp = (s.pc p).inOp)
    (hd : ∀ ph, d ≠ .commit ph) (hs : ∀ ph, s.pc p ≠ .commit ph) : History (s.goto p d) := by
  have hiff : ∀ q ph, update s.pc p d q = .commit ph ↔ s.pc q = .commit ph := by
    intro q ph
    by_cases hq : q = p
    · subst hq; rw [update_self]
      exact ⟨fun h => absurd h (hd ph), fun h => absurd h (hs ph)⟩
    · rw [update_of_ne hq]
  refine h.move (update s.pc p d) s.outstanding s.committing id ?_ ?_ ?_
  · intro q hq
    by_cases hqp : q = p
    · subst hqp; rwa [update_self, hop] at hq
    · rwa [update_of_ne hqp] at hq
  · rintro ⟨q, ph, hq, hph⟩
    exact Or.inl ⟨q, ph, (hiff q ph).mp hq, hph⟩
  · rintro ⟨q, ph, hq, hph⟩
    exact ⟨q, ph, (hiff q ph).mpr hq, hph⟩

lemma History.admitted (h : History s) (hctl : Control s.pc s.outstanding false) :
    History { s.goto p .op with
      outstanding := s.outstanding + 1
      opOf := update s.opOf p s.nextOp
      nextOp := s.nextOp + 1 } := by
  have hnone := hctl.notCommit
  obtain ⟨hnodup, hlogged, hcleared, hpast, hcurrent, hone, hcommits⟩ := h
  refine ⟨hnodup, fun _ => hlogged (not_cleared hctl), ?_, ?_, ?_, hone, fun e bs hbs => ?_⟩
  · rintro ⟨q, ph, hq, -⟩
    simp only [LogState.goto, update_apply] at hq
    grind
  · simp only [LogState.goto]
    grind
  · -- no earlier operation has the new number
    simp only [LogState.goto, update_apply]
    grind
  · obtain ⟨h1, h2, h3, h4⟩ := hcommits e bs hbs
    refine ⟨h1, h2, fun w hw he => ?_, h4⟩
    have := h3 w hw he
    simp only [LogState.Ended, LogState.goto, update_apply] at this ⊢
    grind

/-- The locked part of `log_write` adds the block to the header and to the
    history; no commit is running, so the header is the history's last epoch. -/
lemma History.append (h : History s) (hctl : Control s.pc s.outstanding s.committing)
    (hp : s.pc p = .logging b) : History (logAppend s p b) := by
  have hin : (s.pc p).inOp = true := by rw [hp]; rfl
  have hc : s.committing = false := by
    cases hcm : s.committing with
    | false => rfl
    | true => rw [hcm] at hctl; rw [hctl.notInOp p] at hin; exact nomatch hin
  rw [hc] at hctl
  have hop : ∀ q, ((s.goto p .op).pc q).inOp = (s.pc q).inOp := by
    intro q
    show (update s.pc p .op q).inOp = (s.pc q).inOp
    rw [update_apply]
    grind [Pc.inOp]
  have hcl : ¬ Cleared (s.goto p .op).pc := by
    rintro ⟨q, ph, hq, -⟩
    replace hq : update s.pc p .op q = .commit ph := hq
    rw [update_apply] at hq
    have := hctl.notCommit q ph
    grind
  have hcur := h.current p hin
  have hlogged := h.logged (not_cleared hctl)
  obtain ⟨hnodup, -, -, hpast, hcurrent, hone, hcommits⟩ := h
  refine ⟨nodup_absorb hnodup, fun _ x => ?_, fun hs => absurd hs hcl, ?_, fun q hq => ?_, ?_,
    fun e bs hbs => ?_⟩
  · show x ∈ absorb b s.lh ↔ ∃ o, (⟨s.epoch, o, x⟩ : Logged)
      ∈ (⟨s.epoch, s.opOf p, b⟩ :: s.hist : List Logged)
    rw [mem_absorb, hlogged]
    simp only [mem_cons, Logged.mk.injEq]
    grind
  · simp only [logAppend, LogState.goto, mem_cons]
    grind
  · have := hcurrent q (hop q ▸ hq)
    simp only [logAppend, LogState.goto, mem_cons]
    grind
  · simp only [logAppend, LogState.goto, mem_cons]
    grind
  · obtain ⟨h1, h2, h3, h4, h5⟩ := hcommits e bs hbs
    -- an older commit: the new entry belongs to a later epoch
    have hne : s.epoch ≠ e := by grind
    refine ⟨h1, fun x => ?_, fun w hw he => ?_, h4, h5⟩
    · rw [h2]
      simp only [logAppend, mem_cons, Logged.mk.injEq]
      grind
    · rcases mem_cons.mp hw with rfl | hw'
      · exact absurd he hne
      · exact ⟨(h3 w hw' he).1, fun q hq => (h3 w hw' he).2 q (hop q ▸ hq)⟩

lemma History.phase (h : History s)
    (hctl : Control s.pc s.outstanding s.committing) {ph ph' : Phase}
    (hp : s.pc p = .commit ph) (h1 : ph'.cleared = true → ph.cleared = true ∨ s.lh = [])
    (h2 : ph.cleared = true → ph'.cleared = true) : History (s.goto p (.commit ph')) := by
  have hctl' : Control (s.goto p (.commit ph')).pc s.outstanding s.committing :=
    hctl.goto (by rw [hp]; rfl) (fun _ _ => ⟨ph, hp⟩)
  have hnew : Cleared (s.goto p (.commit ph')).pc ↔ ph'.cleared = true :=
    cleared_iff hctl' (update_self ..)
  refine h.move (update s.pc p (.commit ph')) s.outstanding s.committing id ?_ ?_ ?_
  · intro q hq
    by_cases hqp : q = p
    · subst hqp; rw [update_self] at hq; exact nomatch hq
    · rwa [update_of_ne hqp] at hq
  · intro hs
    rcases h1 (hnew.mp hs) with hph | hnil
    · exact Or.inl ((cleared_iff hctl hp).mpr hph)
    · exact Or.inr hnil
  · intro hs
    exact hnew.mpr (h2 ((cleared_iff hctl hp).mp hs))

/-- The committing `write_head`: what it writes is what was logged in this epoch,
    by operations that have all ended. -/
lemma History.writeHead (h : History s) (hctl : Control s.pc s.outstanding s.committing)
    (hp : s.pc p = .commit .writeHead) :
    History { s.goto p (.commit .install) with commits := (s.epoch, s.lh) :: s.commits } := by
  have hc : s.committing = true := hctl.committer p _ hp
  have hncl : ¬ Cleared s.pc := fun hs => nomatch (cleared_iff hctl hp).mp hs
  have hm : History (s.goto p (.commit .install)) := h.phase hctl hp nofun nofun
  have hno : ∀ q, ((s.goto p (.commit .install)).pc q).inOp = false := by
    rw [hc] at hctl
    intro q
    show (update s.pc p (.commit .install) q).inOp = false
    by_cases hq : q = p
    · subst hq; rw [update_self]; rfl
    · rw [update_of_ne hq]; exact hctl.notInOp q
  refine ⟨hm.nodup, hm.logged, hm.cleared, hm.past, hm.current, hm.oneEpoch, ?_⟩
  intro e bs hbs
  rcases mem_cons.mp hbs with heq | hold
  · obtain ⟨rfl, rfl⟩ := Prod.mk.inj heq
    refine ⟨h.nodup, h.logged hncl, fun w hw _ => ⟨(h.past w hw).2, ?_⟩, le_rfl, fun _ => hc⟩
    intro q hq
    have := hno q
    rw [show ((s.goto p (.commit .install)).pc q).inOp = true from hq] at this
    exact nomatch this
  · exact hm.commits e bs hold

lemma History.clear (h : History s) (hctl : Control s.pc s.outstanding s.committing)
    (hp : s.pc p = .commit .clear) : History { s.goto p (.commit .eraseHead) with lh := [] } := by
  have hctl' : Control (s.goto p (.commit .eraseHead)).pc s.outstanding s.committing :=
    hctl.goto (by rw [hp]; rfl) (fun _ _ => ⟨_, hp⟩)
  have hcl : Cleared (s.goto p (.commit .eraseHead)).pc := ⟨p, .eraseHead, update_self .., rfl⟩
  have hop : ∀ q, (update s.pc p (.commit .eraseHead) q).inOp = true → (s.pc q).inOp = true := by
    intro q hq
    by_cases hqp : q = p
    · subst hqp; rw [update_self] at hq; exact nomatch hq
    · rwa [update_of_ne hqp] at hq
  refine ⟨nodup_nil, fun hn => absurd hcl hn, fun _ => rfl, h.past,
    fun q hq => h.current q (hop q hq), h.oneEpoch, ?_⟩
  intro e bs hbs
  obtain ⟨h1, h2, h3, h4, h5⟩ := h.commits e bs hbs
  exact ⟨h1, h2, fun w hw he => ⟨(h3 w hw he).1, fun q hq => (h3 w hw he).2 q (hop q hq)⟩, h4, h5⟩

lemma History.finish (h : History s) (hctl : Control s.pc s.outstanding s.committing)
    (hp : s.pc p = .commit .finish) : History { s with
      committing := false
      epoch := s.epoch + 1
      pc := update (wakeup s.pc) p .idle } := by
  have hnil : s.lh = [] := h.cleared ((cleared_iff hctl hp).mpr rfl)
  rw [hctl.committer p _ hp] at hctl
  have hno : ∀ q, (update (wakeup s.pc) p .idle q).inOp = false := by
    intro q
    have := hctl.woken.notInOp q
    rw [update_apply]
    grind [Pc.inOp]
  obtain ⟨hnodup, -, -, hpast, hcurrent, hone, hcommits⟩ := h
  refine ⟨hnodup, ?_, fun _ => hnil, ?_, ?_, hone, fun e bs hbs => ?_⟩
  · intro _ b
    show b ∈ s.lh ↔ ∃ o, (⟨s.epoch + 1, o, b⟩ : Logged) ∈ s.hist
    rw [hnil]
    grind
  · dsimp only
    grind
  · dsimp only
    grind
  · obtain ⟨h1, h2, h3, h4, -⟩ := hcommits e bs hbs
    refine ⟨h1, h2, fun w hw he => ⟨(h3 w hw he).1, fun q hq => ?_⟩, ?_, ?_⟩ <;> grind

lemma history_trans (h : History s) (hctl : Control s.pc s.outstanding s.committing)
    (ht : Trans s a s') : History s' := by
  cases ht with
  | call p hp => exact h.goto (by rw [hp]; rfl) nofun (by rw [hp]; exact nofun)
  | sleep p hp => exact h.goto (by rw [hp]; rfl) nofun (by rw [hp]; exact nofun)
  | admitted p hp hc hres => exact h.admitted (hc ▸ hctl)
  | test p b hp => exact h.goto (by rw [hp]; rfl) nofun (by rw [hp]; exact nofun)
  | append p b hp => exact h.append hctl hp
  | leave p hp hc ho =>
    have hctl' := control_trans hctl (.leave p hp hc ho)
    rw [hc] at hctl hctl'
    refine h.move (update (wakeup s.pc) p .idle) (s.outstanding - 1)
      s.committing id ?_ (fun hs => absurd hs (not_cleared hctl'))
      (fun hs => absurd hs (not_cleared hctl))
    intro q hq
    by_cases hqp : q = p
    · subst hqp; rw [update_self] at hq; exact nomatch hq
    rw [update_of_ne hqp] at hq
    unfold wakeup at hq
    split at hq
    · exact nomatch hq
    · exact hq
  | last p hp hc ho =>
    have hctl' : Control (update s.pc p (.commit .check)) (s.outstanding - 1) true :=
      control_trans hctl (.last p hp hc ho)
    rw [hc] at hctl
    refine h.move (update s.pc p (.commit .check)) (s.outstanding - 1) true
      (fun _ => rfl) ?_ ?_ (fun hs => absurd hs (not_cleared hctl))
    · intro q hq
      by_cases hqp : q = p
      · subst hqp; rw [update_self] at hq; exact nomatch hq
      · rwa [update_of_ne hqp] at hq
    · intro hs
      exact nomatch (cleared_iff hctl' (update_self ..)).mp hs
  | phase p ph hp =>
    cases ph with
    | check =>
      refine h.phase hctl hp ?_ nofun
      intro hcl
      by_cases hlen : 0 < s.lh.length
      · rw [if_pos hlen] at hcl; exact nomatch hcl
      · exact Or.inr (List.length_eq_zero_iff.mp (by omega))
    | writeLog => exact h.phase hctl hp nofun nofun
    | writeHead => exact h.writeHead hctl hp
    | install => exact h.phase hctl hp nofun nofun
    | clear => exact h.clear hctl hp
    | eraseHead => exact h.phase hctl hp (fun _ => Or.inl rfl) (fun _ => rfl)
    | finish => exact h.finish hctl hp

/-- The protocol invariant. -/
structure Inv (s : LogState) : Prop where
  control : Control s.pc s.outstanding s.committing
  history : History s

lemma inv_init (size : Nat) : Inv (init size) where
  control := ⟨⟨[], nodup_nil, fun p => by simp [init, Pc.inOp], rfl⟩, nofun, nofun, nofun⟩
  history :=
    { nodup := nodup_nil
      logged := fun _ b => by simp [init]
      cleared := fun _ => rfl
      past := nofun
      current := nofun
      oneEpoch := nofun
      commits := nofun }

lemma inv_step (s : LogState) (a : Act) (s' : LogState) (h : Inv s)
    (hs : step s a = .ok s') : Inv s' := by
  have ht := trans_of_step hs
  exact ⟨control_trans h.control ht, history_trans h.history h.control ht⟩

lemma inv_exec {size : Nat} {acts : List Act} (h : exec step acts (init size) = .ok s) : Inv s :=
  exec_invariant_of_step inv_step (inv_init size) h

/-- While a commit runs nobody is inside an operation. -/
lemma Inv.notInOp (h : Inv s) (hc : s.committing = true) (q : Nat) : (s.pc q).inOp = false := by
  have hctl := h.control
  rw [hc] at hctl
  exact hctl.notInOp q

/-! ## The protocol is safe -/

lemma Inv.not_committing (h : Inv s) (hp : (s.pc p).inOp = true) : s.committing = false := by
  cases hc : s.committing with
  | false => rfl
  | true =>
    rw [h.notInOp hc p] at hp
    exact nomatch hp

lemma Inv.no_committing_panic (h : Inv s) (a : Act) :
    step s a ≠ .error (.panic "log.committing") := by
  cases a with
  | call p => simp only [step]; split <;> exact nofun
  | beginOp p => simp only [step]; split <;> exact nofun
  | logTest p b =>
    simp only [step, logTest]
    split
    · split
      · simp
      · split <;> simp
    · exact nofun
  | logAppend p => simp only [step]; split <;> exact nofun
  | endOp p =>
    simp only [step, endOp]
    split
    · rename_i hp
      have hc := h.not_committing (p := p) (by rw [hp]; rfl)
      rw [hc]
      simp only [Bool.false_eq_true, if_false]
      split <;> exact nofun
    · exact nofun
  | commitStep p => simp only [step]; split <;> exact nofun

/-- **The transaction protocol.**  In every state that any interleaving reaches: a commit runs only
    while no operation is outstanding, and one at a time; no `log_write` can start or finish while
    one runs; `panic("log.committing")` is not reached; the header names no block twice; every
    committing `write_head` wrote exactly the blocks logged since the commit before it, by
    operations that have all ended; and all that one operation logs is in one transaction. -/
theorem log_protocol_safe (size : Nat) (acts : List Act) (s : LogState)
    (h : exec step acts (init size) = .ok s) :
    (∀ p ph, s.pc p = .commit ph → s.outstanding = 0 ∧ ∀ q, (s.pc q).inOp = false) ∧
    (∀ p q ph qh, s.pc p = .commit ph → s.pc q = .commit qh → p = q) ∧
    (s.committing = true → ∀ q b, step s (.logTest q b) = .error .blocked ∧
      step s (.logAppend q) = .error .blocked) ∧
    (∀ a, step s a ≠ .error (.panic "log.committing")) ∧ s.lh.Nodup ∧ (∀ e bs, (e, bs) ∈ s.commits →
      (∀ b, b ∈ bs ↔ ∃ o, ⟨e, o, b⟩ ∈ s.hist) ∧ (∀ w ∈ s.hist, w.epoch = e → s.Ended w.op)) ∧
    (∀ w ∈ s.hist, ∀ v ∈ s.hist, w.op = v.op → w.epoch = v.epoch) := by
  have hinv := inv_exec h
  refine ⟨?_, hinv.control.unique, ?_, hinv.no_committing_panic, hinv.history.nodup, ?_,
    hinv.history.oneEpoch⟩
  · intro p ph hp
    have hc := hinv.control.committer p ph hp
    exact ⟨hinv.control.quiet hc, hinv.notInOp hc⟩
  · intro hc q b
    have hq := hinv.notInOp hc q
    constructor
    · rw [step, if_neg]
      intro hop
      rw [hop] at hq
      exact nomatch hq
    · rw [step]
      split
      · rename_i hlog
        rw [hlog] at hq
        exact nomatch hq
      · rfl
  · intro e bs hbs
    obtain ⟨-, h2, h3, -⟩ := hinv.history.commits e bs hbs
    exact ⟨h2, h3⟩

/-- Two operations that overlap, and the commit of both by the second. -/
def overlapRun : List Act :=
  [.call 1, .beginOp 1, .call 2, .beginOp 2, .logTest 1 7, .logTest 2 9, .logAppend 2,
    .logAppend 1, .endOp 1, .logTest 2 7, .logAppend 2, .endOp 2, .commitStep 2,
    .commitStep 2, .commitStep 2]

theorem log_protocol_safe_overlapRun :
    ∃ s, exec step overlapRun (init 30) = .ok s ∧ s.commits = [(0, [9, 7])] ∧
      s.pc 2 = .commit .install ∧ s.outstanding = 0 ∧
      (∀ b, b ∈ [9, 7] ↔ ∃ o, ⟨0, o, b⟩ ∈ s.hist) := by
  refine ⟨_, rfl, rfl, rfl, rfl, ?_⟩
  exact ((log_protocol_safe 30 overlapRun _ rfl).2.2.2.2.2.1 0 [9, 7] (by decide)).1

/-! ## The log at rest -/

/-- In an operation or in a commit; both end with a `wakeup`. -/
def Pc.busy : Pc → Bool
  | .op | .logging _ | .commit _ => true
  | _ => false

structure Rest (s : LogState) : Prop where
  lh         : s.lh = []
  committing : s.committing = false
  awake      : ∀ p, s.pc p ≠ .sleeping

/-- Somebody is busy, or the log is empty and nobody sleeps. -/
def Wakes (s : LogState) : Prop := (∃ q, (s.pc q).busy = true) ∨ Rest s

lemma Inv.exists_busy (h : Inv s) (ho : s.outstanding ≠ 0) : ∃ q, (s.pc q).busy = true := by
  obtain ⟨l, -, hl, hlen⟩ := h.control.active
  obtain ⟨q, hq⟩ := List.exists_mem_of_length_pos (show 0 < l.length by omega)
  have := (hl q).mp hq
  exact ⟨q, by cases hpc : s.pc q <;> simp_all [Pc.inOp, Pc.busy]⟩

/-- An empty log has room for an operation. -/
lemma Inv.busy_of_sleep (h : Inv s) (hw : Wakes s) (hs : beginOp s p = s.goto p .sleeping) :
    ∃ q, (s.pc q).busy = true := by
  rcases hw with hq | hr
  · exact hq
  by_cases ho : s.outstanding = 0
  · rw [beginOp, hr.committing, if_neg Bool.false_ne_true, hr.lh, ho, if_neg (by decide)] at hs
    have hpc := congrFun (congrArg LogState.pc hs) p
    simp [LogState.goto] at hpc
  · exact h.exists_busy ho

lemma wakes_step (hi : Inv s) (hi' : Inv s') (hw : Wakes s) (hs : step s a = .ok s') :
    Wakes s' := by
  -- a process that is not busy takes a step
  have hmove : ∀ p c, (s.pc p).busy = false → (∃ q, (s.pc q).busy = true) →
      ∃ q, (update s.pc p c q).busy = true := fun p c hp ⟨q, hq⟩ => ⟨q, by grind [update_apply]⟩
  have hself : ∀ p c, c.busy = true → (update s.pc p c p).busy = true := fun p c hc => by
    rwa [update_self]
  cases trans_of_step hs with
  | call p hp =>
    refine hw.imp (hmove p _ (by rw [hp]; rfl)) fun hr => ⟨hr.lh, hr.committing, fun q => ?_⟩
    have := hr.awake q
    simp only [LogState.goto, update_apply]
    grind
  | sleep p hp =>
    rw [step, if_pos hp] at hs
    exact .inl (hmove p _ (by rw [hp]; rfl) (hi.busy_of_sleep hw (ok.inj hs)))
  | leave p hp hc ho => exact .inl (hi'.exists_busy ho)
  | phase p ph hp =>
    cases ph with
    | finish =>
      refine .inr ⟨hi.history.cleared ⟨p, _, hp, rfl⟩, rfl, fun q => ?_⟩
      simp only [commitStep, wakeup, update_apply]
      grind
    | _ => exact .inl ⟨p, hself p _ rfl⟩
  | _ p => exact .inl ⟨p, hself p _ rfl⟩

/-- A block that was logged is in the header or in a commit, and the header is in a commit before
    it is cleared. -/
structure Saved (s : LogState) : Prop where
  logged  : ∀ w ∈ s.hist,
    w.epoch = s.epoch ∧ w.block ∈ s.lh ∨ ∃ bs, (w.epoch, bs) ∈ s.commits
  written : ∀ p, s.pc p = .commit .install ∨ s.pc p = .commit .clear → (s.epoch, s.lh) ∈ s.commits

lemma saved_step (hi : Inv s) (h : Saved s) (hs : step s a = .ok s') : Saved s' := by
  obtain ⟨hl, hw⟩ := h
  cases trans_of_step hs with
  | append p b hp =>
    have hc := hi.not_committing (p := p) (by rw [hp]; rfl)
    have := hi.control.committer
    constructor <;> simp only [logAppend, LogState.goto, update_apply] <;> grind [mem_absorb]
  | phase p ph hp =>
    have := hi.control.unique
    cases ph with
    | finish =>
      have hlh := hi.history.cleared ⟨p, _, hp, rfl⟩
      constructor <;> simp only [commitStep, wakeup, update_apply] <;> grind
    | _ => constructor <;> simp only [commitStep, LogState.goto, update_apply] <;> grind
  | _ => constructor <;> simp only [LogState.goto, wakeup, update_apply] <;> grind

lemma rest_exec {size : Nat} {acts : List Act} (h : exec step acts (init size) = .ok s) :
    Inv s ∧ Wakes s ∧ Saved s := exec_invariant_of_step (I := fun s => Inv s ∧ Wakes s ∧ Saved s)
    (fun s a s' ⟨hi, hw, hsv⟩ hs =>
      have hi' := inv_step s a s' hi hs
      ⟨hi', wakes_step hi hi' hw hs, saved_step hi hsv hs⟩)
    ⟨inv_init size, .inr ⟨rfl, rfl, nofun⟩, nofun, nofun⟩ h

/-- **Nobody sleeps for ever in `begin_op`.**  When no process is in an operation or in a commit,
    the log is empty and nobody sleeps: whoever sleeps has somebody who will call `wakeup`. -/
theorem begin_op_woken (size : Nat) (acts : List Act) (s : LogState)
    (h : exec step acts (init size) = .ok s) (hidle : ∀ q, (s.pc q).busy = false) :
    s.lh = [] ∧ s.outstanding = 0 ∧ s.committing = false ∧ ∀ p, s.pc p ≠ .sleeping := by
  obtain ⟨hi, ⟨q, hq⟩ | hr, -⟩ := rest_exec h
  · exact nomatch hq.symm.trans (hidle q)
  refine ⟨hr.lh, ?_, hr.committing, hr.awake⟩
  by_contra ho
  obtain ⟨q, hq⟩ := hi.exists_busy ho
  exact nomatch hq.symm.trans (hidle q)

/-- The commit of `overlapRun` goes on to its end; process 3 sleeps and is woken. -/
def overlapEnd : List Act :=
  overlapRun ++ [.call 3, .beginOp 3] ++ List.replicate 4 (.commitStep 2)

theorem begin_op_woken_overlapEnd :
    ∃ s, exec step overlapEnd (init 30) = .ok s ∧ s.pc 3 = .beginning ∧ s.lh = [] := by
  refine ⟨_, rfl, rfl, (begin_op_woken 30 overlapEnd _ rfl ?_).1⟩
  rintro (_ | _ | _ | _ | q) <;> rfl

/-- **No logged block is lost.**  Every block that was logged is then in a commit. -/
theorem logged_blocks_committed (size : Nat) (acts : List Act) (s : LogState)
    (h : exec step acts (init size) = .ok s) (hidle : ∀ q, (s.pc q).busy = false) :
    ∀ w ∈ s.hist, ∃ bs, (w.epoch, bs) ∈ s.commits ∧ w.block ∈ bs := by
  intro w hw
  obtain ⟨hi, ⟨q, hq⟩ | hr, hsaved⟩ := rest_exec h
  · exact nomatch hq.symm.trans (hidle q)
  rcases hsaved.logged w hw with ⟨-, hlh⟩ | ⟨bs, hbs⟩
  · rw [hr.lh] at hlh
    exact nomatch hlh
  · exact ⟨bs, hbs, ((hi.history.commits _ bs hbs).2.1 _).mpr ⟨w.op, hw⟩⟩

theorem logged_blocks_committed_overlapEnd : ∃ s, exec step overlapEnd (init 30) = .ok s ∧
    ∀ w ∈ s.hist, ∃ bs, (w.epoch, bs) ∈ s.commits ∧ w.block ∈ bs := by
  refine ⟨_, rfl, logged_blocks_committed 30 overlapEnd _ rfl ?_⟩
  rintro (_ | _ | _ | _ | q) <;> rfl

end LogProtocol
