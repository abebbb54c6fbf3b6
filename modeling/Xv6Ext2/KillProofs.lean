import Xv6Ext2.ProcProofs

/-! # kill and the slots it finds (proc.c)

    `kill(pid)` takes the first slot with the pid and does not look at its state.  An UNUSED
    slot has pid 0 if its process was waited for or it was never used, and the pid of the child
    if a `fork` failed in it; its flag `killed` is not cleared by `allocproc`.

    Here every call runs by itself, one after another.

    - `kill_right_iff` : `kill` does what it is for, in every call of a run, exactly if it
      never finds an UNUSED slot. -/

namespace Ptable

open BufCache Outcome Runs SlotTable

open Except (ok.inj)

open Function (update update_apply update_idem update_of_ne update_self)

/-- The calls, and what else happens to processes between them.  `memory` says whether `fork`
    gets the pages it needs. -/
inductive Call where
  | fork (p : Nat) (memory : Bool)
  | exit (p : Nat)
  | wait (p : Nat)
  | kill (pid : Int)
  | fault (p : Nat)
  | schedule (p : Nat)
  | yield (p : Nat)
  | sleep (p c : Nat)
  | wakeup (c : Nat)
  deriving DecidableEq

def Call.acts : Call → List Act
  | .fork p true => [.allocproc p, .forkParent p, .forkReturns p]
  | .fork p false => [.allocproc p, .forkFails p]
  | .exit p => [.exit p]
  | .wait p => [.wait p]
  | .kill pid => [.kill pid]
  | .fault p => [.fault p]
  | .schedule p => [.schedule p]
  | .yield p => [.yield p]
  | .sleep p c => [.sleep p c]
  | .wakeup c => [.wakeup c]

def callStep (s : State) (c : Call) : Except Err State := exec step c.acts s

/-- `kill(pid)` returns 0 exactly if a process has the pid, and leaves UNUSED slots alone. -/
def KillRight (T : Table) (pid : Int) : Prop :=
  ((kill pid T).2 = 0 ↔ ∃ q < NPROC, (T q).state ≠ .unused ∧ (T q).pid = pid) ∧
  ∀ q, (T q).state = .unused → (kill pid T).1 q = T q

/-- A process that is killed after a call was there before it, and was killed before, or by this
    call with its own pid, or by its own fault. -/
def FlagsRight (s : State) (c : Call) (s' : State) : Prop :=
  ∀ q, (s'.proc q).state ≠ .unused → (s'.proc q).killed = true →
    (s.proc q).state ≠ .unused ∧ (s'.proc q).life = (s.proc q).life ∧
    ((s.proc q).killed = true ∨ c = .kill (s.proc q).pid ∨ c = .fault q)

/-- What a call has to do. -/
def Right (s : State) (c : Call) : Prop :=
  (∀ pid, c = .kill pid → KillRight s.proc pid) ∧
  ∀ s', callStep s c = .ok s' → FlagsRight s c s'

/-- `kill` does not find an UNUSED slot. -/
def FindsProcess (s : State) (c : Call) : Prop :=
  ∀ pid, c = .kill pid → ∀ q, findPid pid s.proc = some q → (s.proc q).state ≠ .unused

/-! ## What the calls do to the flags -/

/-- Between two calls nobody is in `fork`, and UNUSED slots have no flag. -/
structure Clean (s : State) : Prop where
  flags : ∀ q, (s.proc q).state = .unused → (s.proc q).killed = false
  pc    : ∀ p q b, s.pc p ≠ .forking q b

lemma Clean.start : Clean start := by
  refine ⟨fun q _ => ?_, fun p q b hp => (nomatch hp)⟩
  show (if q = INIT then _ else _ : Proc).killed = false
  split <;> rfl

/-- A change of the table that leaves the flags and the lives, and does not use or free a slot. -/
def SameFlags (T T' : Table) : Prop :=
  ∀ q, (T' q).killed = (T q).killed ∧ (T' q).life = (T q).life ∧
    ((T' q).state = .unused ↔ (T q).state = .unused)

lemma SameFlags.refl (T : Table) : SameFlags T T := fun _ => ⟨rfl, rfl, Iff.rfl⟩

variable {T : Table}

lemma SameFlags.trans {T' T'' : Table} (h : SameFlags T T') (h' : SameFlags T' T'') :
    SameFlags T T'' :=
  fun q => ⟨(h' q).1.trans (h q).1, (h' q).2.1.trans (h q).2.1, (h' q).2.2.trans (h q).2.2⟩

variable {f : Proc → Proc}

lemma SameFlags.modify (T : Table) (p : Nat)
    (hkilled : (f (T p)).killed = (T p).killed) (hlife : (f (T p)).life = (T p).life)
    (hstate : (f (T p)).state = .unused ↔ (T p).state = .unused) : SameFlags T (T.modify p f) := by
  intro q
  by_cases hq : q = p
  · rw [hq, Table.modify_self]
    exact ⟨hkilled, hlife, hstate⟩
  · rw [Table.modify_ne T f hq]
    exact ⟨rfl, rfl, Iff.rfl⟩

lemma SameFlags.wakeup1 (c : Chan) (T : Table) : SameFlags T (wakeup1 c T) := by
  intro q
  rcases wakeup1_cases c T q with hq | ⟨hs, hq⟩
  · rw [hq]
    exact ⟨rfl, rfl, Iff.rfl⟩
  · rw [hq, hs]
    exact ⟨rfl, rfl, fun he => (nomatch he), fun he => (nomatch he)⟩

lemma SameFlags.exitLocked {p : Nat} (hp : (T p).state = .running) :
    SameFlags T (exitLocked p T) := by
  have hpass : ∀ T q, SameFlags T (passChild p T q) := by
    intro T q
    rw [passChild]
    split
    · have hone : SameFlags T (T.modify q (fun x => { x with parent := some INIT })) :=
        SameFlags.modify T q rfl rfl Iff.rfl
      dsimp only
      split
      · exact hone.trans (SameFlags.wakeup1 _ _)
      · exact hone
    · exact SameFlags.refl T
  have hfold : ∀ (l : List Nat) T, SameFlags T (l.foldl (passChild p) T) := by
    intro l
    induction l with
    | nil => exact SameFlags.refl
    | cons q l ih => exact fun T => (hpass T q).trans (ih _)
  have hend : ∀ T₁, SameFlags T T₁ → SameFlags T (T₁.modify p (fun x => { x with state := .zombie })) := by
    intro T₁ h
    refine h.trans (SameFlags.modify _ p rfl rfl ⟨fun he => (by cases he), fun he => ?_⟩)
    have := (h p).2.2.mp he
    rw [hp] at this
    cases this
  rw [Ptable.exitLocked]
  cases (T p).parent with
  | none => exact hend _ (hfold _ _)
  | some r => exact hend _ ((SameFlags.wakeup1 _ _).trans (hfold _ _))

variable {s s' : State} {c : Call} {p : Nat}

lemma FlagsRight.same (h : SameFlags s.proc s'.proc) : FlagsRight s c s' := by
  intro q hu hk
  rw [(h q).1] at hk
  exact ⟨fun he => hu ((h q).2.2.mpr he), (h q).2.1, .inl hk⟩

lemma Clean.same (h : Clean s) (hf : SameFlags s.proc s'.proc)
    (hpc : ∀ p q b, s'.pc p ≠ .forking q b) : Clean s' :=
  ⟨fun q hq => (hf q).1.trans (h.flags q ((hf q).2.2.mp hq)), hpc⟩

variable {q : Nat}

/-- A slot that was UNUSED and without a flag is now something else without a flag. -/
lemma right_of_slot {x : Proc} (h : Clean s) (hproc : s'.proc = update s.proc q x)
    (hx : x.killed = false) (hpc : ∀ p q b, s'.pc p ≠ .forking q b) :
    FlagsRight s c s' ∧ Clean s' := by
  refine ⟨fun r hu hk => ?_, fun r hr => ?_, hpc⟩ <;> rw [hproc] at *
  · have hrq : r ≠ q := by
      rintro rfl
      rw [update_self, hx] at hk
      exact nomatch hk
    rw [update_of_ne hrq] at hu hk ⊢
    exact ⟨hu, rfl, .inl hk⟩
  · by_cases hrq : r = q
    · rwa [hrq, update_self]
    · rw [update_of_ne hrq] at hr ⊢
      exact h.flags r hr

lemma exec_one {a : Act} (h : exec step [a] s = .ok s') : step s a = .ok s' := by
  obtain ⟨s₁, h₁, h₂⟩ := exec_cons_ok h
  obtain rfl := ok.inj h₂
  exact h₁

lemma step_forkParent (hpc : s.pc p = .forking q false)
    (hp : (s.proc p).state = .running) : step s (.forkParent p) =
      .ok ((s.modify q (fun x => { x with parent := some p })).setPc p (.forking q true)) := by
  rw [step, hpc]
  exact congrArg Except.ok (if_pos hp)

lemma step_forkReturns (hpc : s.pc p = .forking q true)
    (hp : (s.proc p).state = .running) : step s (.forkReturns p) =
      .ok { ((s.modify q (fun x => { x with state := .runnable })).setPc q .user).setPc p .user with
        forked := s.forked ++
          [⟨(s.proc q).life, (s.proc q).pid, (s.proc p).life, (s.proc q).killed⟩] } := by
  rw [step, hpc]
  exact congrArg Except.ok (if_pos hp)

lemma step_forkFails (hpc : s.pc p = .forking q false)
    (hp : (s.proc p).state = .running) : step s (.forkFails p) =
      .ok ((s.modify q (fun x => { x with state := .unused })).setPc p .user) := by
  rw [step, hpc]
  exact congrArg Except.ok (if_pos hp)

lemma step_idle (hpc : ∀ q b, s.pc p ≠ .forking q b) : step s (.forkParent p) = .ok s ∧
    step s (.forkReturns p) = .ok s ∧ step s (.forkFails p) = .ok s := by
  refine ⟨?_, ?_, ?_⟩ <;> rw [step] <;> split
  · next q hq => exact absurd hq (hpc q false)
  · rfl
  · next q hq => exact absurd hq (hpc q true)
  · rfl
  · next q hq => exact absurd hq (hpc q false)
  · rfl

lemma fork_right (h : Clean s) {memory : Bool} (hr : callStep s (.fork p memory) = .ok s') :
    FlagsRight s (.fork p memory) s' ∧ Clean s' := by
  -- the slots other than the child's and the places of the processes
  obtain ⟨hidle₁, hidle₂, hidle₃⟩ := step_idle (h.pc p)
  have hnone : step s (.allocproc p) = .ok s → FlagsRight s (.fork p memory) s' ∧ Clean s' := by
    intro h₁
    have : callStep s (.fork p memory) = .ok s := by
      cases memory
      · rw [callStep, Call.acts, exec, h₁, ok_bind, exec, hidle₃]
        rfl
      · rw [callStep, Call.acts, exec, h₁, ok_bind, exec, hidle₁, ok_bind, exec, hidle₂]
        rfl
    rw [← ok.inj (this.symm.trans hr)]
    exact ⟨FlagsRight.same (SameFlags.refl _), h⟩
  by_cases hready : (s.proc p).state = .running ∧ s.pc p = .user
  · cases hfind : findUnused s.proc with
    | none => exact hnone (by rw [step, if_pos hready, allocproc, hfind])
    | some q =>
      obtain ⟨-, -, hq⟩ := firstFrom_some hfind
      replace hq : (s.proc q).state = .unused := of_decide_eq_true hq
      have hpq : p ≠ q := by
        rintro rfl
        rw [hq] at hready
        cases hready.1
      obtain ⟨s₁, h₁, hpc₁, hproc₁⟩ : ∃ s₁, step s (.allocproc p) = .ok s₁ ∧
          s₁.pc = update s.pc p (.forking q false) ∧ s₁.proc = update s.proc q
            { s.proc q with state := .embryo, pid := s.nextpid, life := s.allocs } :=
        ⟨_, by rw [step, if_pos hready, allocproc, hfind], rfl, rfl⟩
      have hforking : s₁.pc p = .forking q false := by rw [hpc₁, update_self]
      have hrun : (s₁.proc p).state = .running := by
        rw [hproc₁, update_of_ne hpq]
        exact hready.1
      cases memory with
      | true =>
        obtain ⟨s₂, h₂, hpc₂, hproc₂⟩ : ∃ s₂, step s₁ (.forkParent p) = .ok s₂ ∧
            s₂.pc = update s₁.pc p (.forking q true) ∧
            s₂.proc = s₁.proc.modify q (fun x => { x with parent := some p }) :=
          ⟨_, step_forkParent hforking hrun, rfl, rfl⟩
        have hrun₂ : (s₂.proc p).state = .running := by
          rwa [hproc₂, Table.modify_ne _ _ hpq]
        have h₃ := step_forkReturns (s := s₂) (by rw [hpc₂, update_self]) hrun₂
        rw [callStep, Call.acts, exec, h₁, ok_bind, exec, h₂, ok_bind, exec, h₃, ok_bind] at hr
        rw [← ok.inj hr]
        refine right_of_slot h (q := q) (x := { s.proc q with
          state := .runnable, pid := s.nextpid, life := s.allocs, parent := some p }) ?_
          (h.flags q hq) (fun r c b hc => ?_)
        · simp only [State.setPc, State.modify, hproc₂, hproc₁, Table.modify,
            update_self, update_idem]
        · replace hc : update (update s₂.pc q .user) p .user r = .forking c b := hc
          have := h.pc r c b
          simp only [hpc₂, hpc₁, update_apply] at hc
          grind
      | false =>
        have h₃ := step_forkFails hforking hrun
        rw [callStep, Call.acts, exec, h₁, ok_bind, exec, h₃, ok_bind] at hr
        rw [← ok.inj hr]
        refine right_of_slot h (q := q) (x := { s.proc q with
          state := .unused, pid := s.nextpid, life := s.allocs }) ?_
          (h.flags q hq) (fun r c b hc => ?_)
        · simp only [State.setPc, State.modify, hproc₁, Table.modify, update_self, update_idem]
        · replace hc : update s₁.pc p .user r = .forking c b := hc
          have := h.pc r c b
          simp only [hpc₁, update_apply] at hc
          grind
  · exact hnone (by rw [step, if_neg hready])

lemma Clean.setPc (h : Clean s) {x : Pc} (hx : ∀ q b, x ≠ .forking q b) :
    ∀ r q b, (s.setPc p x).pc r ≠ .forking q b := by
  intro r q b hr
  replace hr : update s.pc p x r = .forking q b := hr
  by_cases hrp : r = p
  · rw [hrp, update_self] at hr
    exact hx q b hr
  · rw [update_of_ne hrp] at hr
    exact h.pc r q b hr

lemma wait_right (h : Clean s) (hrun : (s.proc p).state = .running) :
    FlagsRight s c (wait p s) ∧ Clean (wait p s) := by
  have huser := h.setPc (p := p) (x := .user) (fun _ _ he => by cases he)
  rw [wait]
  cases hz : findZombie p s.proc with
  | some q => exact right_of_slot h (q := q) (x := (s.proc q).reap) rfl rfl huser
  | none =>
    dsimp only
    split
    · exact ⟨FlagsRight.same (SameFlags.refl _), h.same (SameFlags.refl _) huser⟩
    have hf : SameFlags s.proc ((s.modify p (fun x =>
        { x with state := .sleeping, chan := some (.proc p) })).setPc p .waiting).proc :=
      SameFlags.modify s.proc p rfl rfl
        ⟨fun he => (by cases he), fun he => by rw [hrun] at he; cases he⟩
    exact ⟨FlagsRight.same hf, h.same hf (h.setPc (fun _ _ he => by cases he))⟩

lemma flag_right (h : Clean s) (hq : (s.proc q).state ≠ .unused)
    (hstate : (f (s.proc q)).state ≠ .unused) (hlife : (f (s.proc q)).life = (s.proc q).life)
    (hc : c = .kill (s.proc q).pid ∨ c = .fault q) :
    FlagsRight s c (s.modify q f) ∧ Clean (s.modify q f) := by
  refine ⟨fun r hu hk => ?_, fun r hr => ?_, h.pc⟩
  · replace hu : (s.proc.modify q f r).state ≠ .unused := hu
    replace hk : (s.proc.modify q f r).killed = true := hk
    show _ ∧ (s.proc.modify q f r).life = _ ∧ _
    by_cases hrq : r = q
    · rw [hrq, Table.modify_self]
      exact ⟨hq, hlife, .inr hc⟩
    · rw [Table.modify_ne _ _ hrq] at hu hk ⊢
      exact ⟨hu, rfl, .inl hk⟩
  · replace hr : (s.proc.modify q f r).state = .unused := hr
    show (s.proc.modify q f r).killed = false
    by_cases hrq : r = q
    · rw [hrq, Table.modify_self] at hr
      exact absurd hr hstate
    · rw [Table.modify_ne _ _ hrq] at hr ⊢
      exact h.flags r hr

/-- A change of the table that keeps the flags, with the places as they are. -/
lemma same_right (h : Clean s) (hf : SameFlags s.proc T) :
    FlagsRight s c { s with proc := T } ∧ Clean { s with proc := T } :=
  ⟨FlagsRight.same hf, h.same hf h.pc⟩

/-- Every call does the right thing with the flags if `kill` finds a process. -/
lemma call_right (h : Clean s) (hc : FindsProcess s c) (hr : callStep s c = .ok s') :
    FlagsRight s c s' ∧ Clean s' := by
  have hrefl : FlagsRight s c s ∧ Clean s := same_right h (SameFlags.refl _)
  have hmove : ∀ {p : Nat} {st st' : PState} {g : Proc → Option Chan}, (s.proc p).state = st →
      st ≠ .unused → st' ≠ .unused →
      FlagsRight s c (s.modify p (fun x => { x with state := st', chan := g x })) ∧
      Clean (s.modify p (fun x => { x with state := st', chan := g x })) := by
    intro p st st' g hp hst hst'
    refine same_right h (SameFlags.modify s.proc p rfl rfl ⟨fun he => absurd he hst', fun he => ?_⟩)
    exact absurd (hp.symm.trans he) hst
  cases c with
  | fork p memory => exact fork_right h hr
  | exit p =>
    replace hr := exec_one hr
    rw [step] at hr
    split at hr
    · next hp =>
      split at hr
      · cases hr
      rw [← ok.inj hr]
      have hf := SameFlags.exitLocked hp.1
      exact ⟨FlagsRight.same hf, h.same hf h.pc⟩
    · rwa [← ok.inj hr]
  | wait p =>
    rw [← ok.inj (exec_one hr)]
    split
    · next hp => exact wait_right h hp.1
    · exact hrefl
  | kill pid =>
    rw [← ok.inj (exec_one hr)]
    rw [kill]
    cases hfind : findPid pid s.proc with
    | none => exact hrefl
    | some q =>
      have hq := hc pid rfl q hfind
      obtain ⟨-, -, hpid⟩ := firstFrom_some hfind
      refine flag_right h hq ?_ rfl (.inl (by rw [of_decide_eq_true hpid]))
      dsimp only
      split
      · exact fun he => by cases he
      · exact hq
  | fault p =>
    rw [← ok.inj (exec_one hr)]
    split
    · next hp =>
      have hu : (s.proc p).state ≠ .unused := by
        rw [hp]
        exact fun he => by cases he
      exact flag_right h hu hu rfl (.inr rfl)
    · exact hrefl
  | schedule p =>
    rw [← ok.inj (exec_one hr)]
    split
    · next hp => exact hmove (g := fun _ => none) hp (fun he => by cases he) (fun he => by cases he)
    · exact hrefl
  | yield p =>
    rw [← ok.inj (exec_one hr)]
    split
    · next hp => exact hmove (g := Proc.chan) hp (fun he => by cases he) (fun he => by cases he)
    · exact hrefl
  | sleep p c =>
    rw [← ok.inj (exec_one hr)]
    split
    · next hp =>
      exact hmove (g := fun _ => some (.other c)) hp.1 (fun he => by cases he)
        (fun he => by cases he)
    · exact hrefl
  | wakeup c =>
    rw [← ok.inj (exec_one hr)]
    exact same_right h (SameFlags.wakeup1 _ _)

/-! ## kill -/

/-- In a table whose UNUSED slots have no flag, `kill` is right exactly if it does not find
    one of them. -/
lemma killRight_iff (hflags : ∀ q, (T q).state = .unused → (T q).killed = false)
    (pid : Int) : KillRight T pid ↔ ∀ q, findPid pid T = some q → (T q).state ≠ .unused := by
  constructor
  · rintro ⟨-, hkeep⟩ q hfind hq
    -- the flag of the slot changes
    have hsame := hkeep q hq
    rw [kill, hfind] at hsame
    dsimp only at hsame
    rw [Table.modify_self] at hsame
    have := (congrArg Proc.killed hsame).trans (hflags q hq)
    cases this
  · intro hfound
    cases hfind : findPid pid T with
    | none =>
      have hno := firstFrom_none hfind
      rw [KillRight, kill, hfind]
      refine ⟨⟨fun he => (by cases he), ?_⟩, fun _ _ => rfl⟩
      rintro ⟨q, hq, -, hpid⟩
      have := hno q (Nat.zero_le q) (by omega)
      rw [decide_eq_true hpid] at this
      cases this
    | some q =>
      obtain ⟨-, hlt, hpid⟩ := firstFrom_some hfind
      rw [KillRight, kill, hfind]
      refine ⟨⟨fun _ => ⟨q, by omega, hfound q hfind, of_decide_eq_true hpid⟩, fun _ => rfl⟩,
        fun r hr => ?_⟩
      dsimp only
      rw [Table.modify_ne T _ (fun e : r = q => hfound q hfind (e ▸ hr))]

lemma right_iff (h : Clean s) : Right s c ↔ FindsProcess s c := by
  constructor
  · rintro ⟨hkill, -⟩ pid rfl
    exact (killRight_iff h.flags pid).mp (hkill pid rfl)
  · intro hc
    exact ⟨fun pid hpid => (killRight_iff h.flags pid).mpr (hc pid hpid),
      fun s' hr => (call_right h hc hr).1⟩

/-- **`kill` and the flags are right in every call of a run exactly if `kill` never finds an
    UNUSED slot.** -/
theorem kill_right_iff (calls : List Call) :
    AllSteps callStep Right calls start ↔ AllSteps callStep FindsProcess calls start := by
  suffices hall : ∀ s, Clean s →
      (AllSteps callStep Right calls s ↔ AllSteps callStep FindsProcess calls s) from
    hall start Clean.start
  induction calls with
  | nil => exact fun _ _ => Iff.rfl
  | cons c calls ih =>
    intro s hs
    rw [AllSteps, AllSteps, right_iff hs]
    refine and_congr_right (fun hc => ?_)
    cases hr : callStep s c with
    | error e => exact Iff.rfl
    | ok s' => exact ih s' (call_right hs hc hr).2

/-- Init calls `kill(0)` and then `fork`. -/
def killZero : List Call := [.schedule 0, .kill 0, .fork 0 true]

/-- `kill(0)` returns 0 although no process has this pid, and the next child starts with the
    flag. -/
theorem killZero_kills_child : ¬AllSteps callStep Right killZero start ∧ (kill 0 start.proc).2 = 0 ∧
    (∀ q < NPROC, (start.proc q).state ≠ .unused → (start.proc q).pid ≠ 0) ∧
    ∃ u, exec callStep killZero start = .ok u ∧ u.forked = [⟨1, 2, 0, true⟩] := by
  refine ⟨?_, by decide +kernel, by decide +kernel, exists_ok_of_map (by decide +kernel)⟩
  rintro ⟨-, ⟨hkill, -⟩, -⟩
  -- the first slot with pid 0 is the UNUSED slot 1
  have hsame := (hkill 0 rfl).2 1 rfl
  have hkilled := congrArg Proc.killed hsame
  exact absurd hkilled (by decide +kernel)

end Ptable
