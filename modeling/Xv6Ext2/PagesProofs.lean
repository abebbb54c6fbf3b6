import Xv6Ext2.ProcProofs
import Xv6Ext2.VmProofs

/-! # The pages of the machine

    The calls that allocate and free pages: `fork`, `exec`, `growproc`, `exit`, `wait`,
    `pipealloc` and `pipeclose`, from the state in which `main` leaves the memory.  Each
    call is one step, and so is a store of a program to its memory.  What the files and the
    file system answer is an argument of the call: the program headers of `exec` with what
    `readi` says, whether `pipealloc` gets its two files, and which child `wait` finds.

    * `places` — every place of a page: the free list, kernel stacks, page directories,
      page tables, user pages, pipes.
    * `Sound` — the directories and the stacks of the process table own their pages, and no
      process has pages at or above `KERNBASE`.
    * `boot_sound`, `step_sound` — `main` establishes it and every call keeps it, an `exec`
      if its arguments take at most the size of the new image.
    * `pages_partitioned` — every page that `freerange` got is in exactly one place.
    * `longArg_maps_foreign` — a longer argument, and a page table is overwritten. -/

namespace Pages

open Outcome Runs SlotTable TableSum Vm Param

open Except (ok.inj)

open Multiset (add_cons coe_nil cons_add cons_coe singleton_add)

open BufCache (Err)

open Ptable (NPROC PState)

/-! ## The state -/

/-- The fields of `struct proc` that hold memory. -/
structure Proc where
  state  : PState
  kstack : Nat
  pgdir  : Nat
  sz     : Nat
  deriving DecidableEq

structure Pipe where
  page      : Nat
  readopen  : Bool
  writeopen : Bool
  deriving DecidableEq

/-- `cpus` are the stacks of the other processors, `pipes` the pipes in use. -/
structure State where
  mem    : Phys
  proc   : Nat → Proc
  kpgdir : Nat
  cpus   : List Nat
  pipes  : List Pipe

def setProc (p : Nat) (v : Proc) (s : State) : State :=
  { s with proc := Function.update s.proc p v }

/-- The process can make a call. -/
def Alive (s : State) (p : Nat) : Prop :=
  p < NPROC ∧ ((s.proc p).state = .sleeping ∨ (s.proc p).state = .runnable ∨
    (s.proc p).state = .running)

instance (s : State) (p : Nat) : Decidable (Alive s p) :=
  inferInstanceAs (Decidable (_ ∧ (_ ∨ _ ∨ _)))

variable (m : Machine)

/-! ## The calls -/

def findUnused (s : State) : Option Nat :=
  firstFrom (fun q => decide ((s.proc q).state = .unused)) NPROC 0

/-- Create a new process copying `p` as the parent. -/
def fork (p : Nat) (s : State) : Except Err State :=
  match findUnused s with
  | none => .ok s
  | some np =>
    match kalloc s.mem with
    | (none, M) => .ok (setProc np { s.proc np with kstack := 0 } { s with mem := M })
    | (some kstack, M) => do
        match ← copyuvm m (s.proc p).pgdir (s.proc p).sz M with
        | (none, M) => do
            let M ← kfree m kstack M
            .ok (setProc np { s.proc np with kstack := 0, pgdir := 0 } { s with mem := M })
        | (some d, M) => .ok (setProc np ⟨.runnable, kstack, d, (s.proc p).sz⟩ { s with mem := M })

/-- Grow current process's memory by `n` bytes; a size of 0 is a failure. -/
def growproc (p : Nat) (n : Int) (s : State) : Except Err State :=
  let sz := (s.proc p).sz
  let newsz := ((sz + n) % UINT).toNat
  if 0 < n then do
    let (sz, M) ← allocuvm m (s.proc p).pgdir sz newsz s.mem
    if sz = 0 then .ok { s with mem := M }
    else .ok (setProc p { s.proc p with sz := sz } { s with mem := M })
  else if n < 0 then do
    let (sz, M) ← deallocuvm m (s.proc p).pgdir sz newsz s.mem
    if sz = 0 then .ok { s with mem := M }
    else .ok (setProc p { s.proc p with sz := sz } { s with mem := M })
  else .ok s

/-- A program header: whether `readi` gives it, whether it is `ELF_PROG_LOAD`, its sizes and
    address, and whether `loaduvm` can read the segment. -/
structure Segment where
  read   : Bool
  load   : Bool
  vaddr  : Nat
  memsz  : Nat
  filesz : Nat
  data   : Bool
  deriving DecidableEq, Repr

/-- Load program into memory; `none` is `goto bad`. -/
def loadSegments (pgdir : Nat) : List Segment → Nat → Phys → Except Err (Option Nat × Phys)
  | [], sz, M => .ok (some sz, M)
  | ph :: phs, sz, M =>
    if ph.read = false then .ok (none, M)
    else if ph.load = false then loadSegments pgdir phs sz M
    else if ph.memsz < ph.filesz then .ok (none, M)
    else if (ph.vaddr + ph.memsz) % UINT < ph.vaddr then .ok (none, M)
    else do
      let (sz, M) ← allocuvm m pgdir sz ((ph.vaddr + ph.memsz) % UINT) M
      if sz = 0 then .ok (none, M)
      else if ph.vaddr % PGSIZE ≠ 0 then .ok (none, M)
      else if ph.data = false then .ok (none, M)
      else loadSegments pgdir phs sz M

/-- A string of `argv`: its `strlen` and its bytes. -/
structure Arg where
  len  : Nat
  byte : Nat → UInt8

def Arg.buf (a : Arg) : Nat → UInt8 := fun k => if k < a.len then a.byte k else 0

/-- `a - b` of two `uint`. -/
def usub (a b : Nat) : Nat := (a + (UINT - b % UINT)) % UINT

/-- Push argument strings; `us` are the pointers to those that are pushed. -/
def pushArgs (cur pgdir : Nat) :
    List Arg → Nat → List Nat → Phys → Except Err (Option (Nat × List Nat) × Phys)
  | [], sp, us, M => .ok (some (sp, us), M)
  | a :: as, sp, us, M =>
    if MAXARG ≤ us.length then .ok (none, M)
    else do
      let sp := usub sp (a.len + 1) / 4 * 4
      let (r, M) ← copyout m cur pgdir sp a.buf (a.len + 1) M
      if r = true then pushArgs cur pgdir as sp (us ++ [sp]) M else .ok (none, M)

/-- The bytes of `ustack`: the fake return PC, `argc`, the `argv` pointer and the array. -/
def ustack (sp : Nat) (us : List Nat) : Nat → UInt8 := fun k =>
  let words := [0xffffffff, us.length, usub sp ((us.length + 1) * 4)] ++ us ++ [0]
  UInt8.ofNat (words.getD (k / 4) 0 / 256 ^ (k % 4))

/-- The user stack above a program of `sz` bytes, while the directory `cur` is in use. -/
def userStack (cur pgdir sz : Nat) (args : List Arg) (M : Phys) :
    Except Err (Option Nat × Phys) := do
  let sz := PGROUNDUP sz
  let (sz, M) ← allocuvm m pgdir sz ((sz + 2 * PGSIZE) % UINT) M
  if sz = 0 then .ok (none, M)
  else do
    let M ← clearpteu pgdir (sz - 2 * PGSIZE) M
    match ← pushArgs m cur pgdir args sz [] M with
    | (none, M) => .ok (none, M)
    | (some (sp, us), M) => do
        let n := (3 + us.length + 1) * 4
        let (r, M) ← copyout m cur pgdir (usub sp n) (ustack sp us) n M
        .ok (if r = true then some sz else none, M)

/-- `exec` of a program with the headers `phs`; `none` when there is no ELF file to load. -/
def exec (p : Nat) (phs : Option (List Segment)) (args : List Arg) (s : State) :
    Except Err State :=
  match phs with
  | none => .ok s
  | some phs => do
      match ← setupkvm m s.mem with
      | (none, M) => .ok { s with mem := M }
      | (some pgdir, M) => do
          match ← loadSegments m pgdir phs 0 M with
          | (none, M) => do
              let M ← freevm m pgdir M
              .ok { s with mem := M }
          | (some sz, M) => do
              match ← userStack m (s.proc p).pgdir pgdir sz args M with
              | (none, M) => do
                  let M ← freevm m pgdir M
                  .ok { s with mem := M }
              | (some sz, M) => do
                  let M ← freevm m (s.proc p).pgdir M
                  .ok (setProc p { s.proc p with pgdir := pgdir, sz := sz } { s with mem := M })

/-- `sys_exec`: less than `MAXARG` strings, each with its NUL in the memory of the process. -/
def sysExec (p : Nat) (phs : Option (List Segment)) (args : List Arg) (s : State) :
    Except Err State :=
  if args.length < MAXARG ∧ ∀ a ∈ args, a.len < (s.proc p).sz then exec m p phs args s else .ok s

/-- The program of `p` stores a word at the address `va`; without a writable user page there
    it is killed. -/
def store (p va : Nat) (e : Entry) (s : State) : State :=
  match walkpgdir (s.proc p).pgdir va false s.mem with
  | (some (t, j), M) =>
    let pte := M.page t j
    if va < KERNBASE ∧ pte.p = true ∧ pte.u = true ∧ pte.w = true then
      { s with mem := setEntry pte.addr (va % PGSIZE / 4) e M }
    else s
  | (none, _) => s

/-- An exited process remains in the zombie state. -/
def exit (p : Nat) (s : State) : Except Err State :=
  if p = Ptable.INIT then .error (.panic "init exiting")
  else .ok (setProc p { s.proc p with state := .zombie } s)

/-- `wait` has found the exited child `q`. -/
def wait (q : Nat) (s : State) : Except Err State :=
  if q < NPROC ∧ (s.proc q).state = .zombie then do
    let M ← kfree m (s.proc q).kstack s.mem
    let M ← freevm m (s.proc q).pgdir M
    .ok (setProc q { s.proc q with kstack := 0, state := .unused } { s with mem := M })
  else .ok s

/-- `pipealloc`; `files` says whether `filealloc` has given both files. -/
def pipealloc (files : Bool) (s : State) : Except Err State :=
  if files = true then
    match kalloc s.mem with
    | (none, M) => .ok { s with mem := M }
    | (some page, M) => .ok { s with mem := M, pipes := ⟨page, true, true⟩ :: s.pipes }
  else .ok s

/-- Close an end of the `k`-th pipe in use. -/
def pipeclose (k : Nat) (writable : Bool) (s : State) : Except Err State :=
  match s.pipes[k]? with
  | none => .ok s
  | some pipe =>
    let pipe : Pipe := if writable = true then { pipe with writeopen := false }
      else { pipe with readopen := false }
    if pipe.readopen = false ∧ pipe.writeopen = false then do
      let M ← kfree m pipe.page s.mem
      .ok { s with mem := M, pipes := s.pipes.eraseIdx k }
    else .ok { s with pipes := s.pipes.set k pipe }

inductive Call where
  | fork (p : Nat)
  | growproc (p : Nat) (n : Int)
  | exec (p : Nat) (phs : Option (List Segment)) (args : List Arg)
  | store (p va : Nat) (e : Entry)
  | exit (p : Nat)
  | wait (q : Nat)
  | pipealloc (files : Bool)
  | pipeclose (k : Nat) (writable : Bool)

/-- One call; a process that is not alive makes none. -/
def step (s : State) : Call → Except Err State
  | .fork p => if Alive s p then fork m p s else .ok s
  | .growproc p n => if Alive s p then growproc m p n s else .ok s
  | .exec p phs args => if Alive s p then sysExec m p phs args s else .ok s
  | .store p va e => if Alive s p then .ok (store p va e s) else .ok s
  | .exit p => if Alive s p then exit p s else .ok s
  | .wait q => wait m q s
  | .pipealloc files => pipealloc files s
  | .pipeclose k writable => pipeclose m k writable s

/-! ## Booting -/

/-- The page at 4 megabytes. -/
def LOWTOP : Nat := 1024

/-- The pages that `kinit1` and `kinit2` hand to `freerange`. -/
def lowPages : List Nat := List.range' m.first (LOWTOP - m.first)
def highPages : List Nat := List.range' LOWTOP (m.top - LOWTOP)

def bootPages : List Nat := lowPages m ++ highPages m

def freerange (l : List Nat) (M : Phys) : Except Err Phys := l.foldlM (fun M v => kfree m v M) M

def startothers : Nat → List Nat → Phys → Except Err (List Nat × Phys)
  | 0, cpus, M => .ok (cpus, M)
  | n + 1, cpus, M =>
    match kalloc M with
    | (none, _) => .error .wild
    | (some stack, M) => startothers n (stack :: cpus) M

/-- The first process.  `inituvm` does not look at the answer of `mappages`; without its page
    the first instruction faults, and init exits. -/
def userinit (M : Phys) : Except Err (Proc × Phys) :=
  match kalloc M with
  | (none, _) => .error .wild
  | (some kstack, M) => do
      match ← setupkvm m M with
      | (none, _) => .error (.panic "userinit: out of memory?")
      | (some pgdir, M) =>
        match kalloc M with
        | (none, _) => .error .wild
        | (some mem, M) => do
            let (r, M) ← mappages pgdir 0 PGSIZE mem true true M
            if r = true then .ok (⟨.runnable, kstack, pgdir, PGSIZE⟩, M)
            else .error (.panic "init exiting")

/-- The memory as `main` sets it up; `page` is what it holds before. -/
def boot (page : Nat → Nat → Entry) : Except Err State := do
  let M ← freerange m (lowPages m) ⟨page, []⟩
  match ← setupkvm m M with
  | (none, _) => .error .wild
  | (some kpgdir, M) => do
      let (cpus, M) ← startothers m.others [] M
      let M ← freerange m (highPages m) M
      let (init, M) ← userinit m M
      .ok { mem := M, proc := fun p => if p = 0 then init else ⟨.unused, 0, 0, 0⟩,
            kpgdir := kpgdir, cpus := cpus, pipes := [] }

/-! ## The places -/

/-- The slots in use give `f` of each. -/
def inUse (proc : Nat → Proc) (f : Proc → Nat) : Multiset Nat :=
  ∑ p ∈ Finset.range NPROC, if (proc p).state = .unused then 0 else {f (proc p)}

/-- The page directories: the kernel's and one of each process. -/
def dirs (s : State) : Multiset Nat := s.kpgdir ::ₘ inUse s.proc Proc.pgdir

def kstacks (s : State) : Multiset Nat := (s.cpus : Multiset Nat) + inUse s.proc Proc.kstack

def pipePages (s : State) : Multiset Nat := (s.pipes.map Pipe.page : List Nat)

/-- Every place of a page, with the page that is there. -/
def places (s : State) : Multiset Nat :=
  (s.mem.free : Multiset Nat) + kstacks s + dirs s
    + ((dirs s).map (fun d => present NPDENTRIES (s.mem.page d))).sum
    + ((dirs s).map (userPages s.mem.page)).sum + pipePages s

/-- Every page that was handed to `freerange` is in one place, and there only once. -/
def Partitioned (m : Machine) (s : State) : Prop :=
  (places s).Nodup ∧ ∀ v, v ∈ places s ↔ v ∈ bootPages m

/-! ## One slot -/

section Slots

variable {proc : Nat → Proc} {f : Proc → Nat} {p : Nat} {v : Proc}

def slotPage (f : Proc → Nat) (v : Proc) : Multiset Nat := if v.state = .unused then 0 else {f v}

/-- What the slots other than `p` give. -/
def othersInUse (proc : Nat → Proc) (f : Proc → Nat) (p : Nat) : Multiset Nat :=
  ∑ q ∈ Finset.range NPROC \ {p}, slotPage f (proc q)

lemma inUse_split (hp : p < NPROC) (proc : Nat → Proc) (f : Proc → Nat) :
    inUse proc f = slotPage f (proc p) + othersInUse proc f p := by
  unfold inUse
  exact sum_split (Finset.mem_range.mpr hp) _

lemma othersInUse_update (proc : Nat → Proc) (f : Proc → Nat) (p : Nat) (v : Proc) :
    othersInUse (Function.update proc p v) f p = othersInUse proc f p := by
  unfold othersInUse
  refine Finset.sum_congr rfl (fun q hq => ?_)
  have hne : q ≠ p := fun heq => (Finset.mem_sdiff.mp hq).2 (Finset.mem_singleton.mpr heq)
  rw [Function.update_of_ne hne]

lemma inUse_update (hp : p < NPROC) (proc : Nat → Proc) (f : Proc → Nat) (v : Proc) :
    inUse (Function.update proc p v) f = slotPage f v + othersInUse proc f p := by
  rw [inUse_split hp, Function.update_self, othersInUse_update]

lemma slotPage_used (h : v.state ≠ .unused) : slotPage f v = {f v} := if_neg h

lemma slotPage_unused (h : v.state = .unused) : slotPage f v = 0 := if_pos h

end Slots

/-! ## The calls keep the places apart -/

/-- The slots and the pipes own their pages, and every process ends below `KERNBASE`. -/
structure Sound (pages : Multiset Nat) (s : State) : Prop where
  own : Own pages (dirs s) (kstacks s + pipePages s) s.mem
  sz  : ∀ p < NPROC, (s.proc p).state ≠ .unused → (s.proc p).sz < KERNBASE

section Sound

variable {pages : Multiset Nat} {s s' : State} {p : Nat} {M : Phys} {m : Machine}

/-- The directories of the slots other than `p`, and of the kernel. -/
def otherDirs (s : State) (p : Nat) : Multiset Nat :=
  s.kpgdir ::ₘ othersInUse s.proc Proc.pgdir p

/-- What is held, apart from the stack of `p`. -/
def otherHeld (s : State) (p : Nat) : Multiset Nat :=
  (s.cpus : Multiset Nat) + othersInUse s.proc Proc.kstack p + pipePages s

lemma dirs_split (hp : p < NPROC) (s : State) :
    dirs s = slotPage Proc.pgdir (s.proc p) + otherDirs s p := by
  rw [dirs, otherDirs, inUse_split hp, add_cons]

lemma held_split (hp : p < NPROC) (s : State) : kstacks s + pipePages s
    = slotPage Proc.kstack (s.proc p) + otherHeld s p := by
  rw [kstacks, otherHeld, inUse_split hp]
  abel

/-- One slot and the memory change. -/
lemma Sound.setProc {v : Proc} (h : Sound pages s) (hp : p < NPROC)
    (hown : Own pages (slotPage Proc.pgdir v + otherDirs s p)
      (slotPage Proc.kstack v + otherHeld s p) M) (hsz : v.state ≠ .unused → v.sz < KERNBASE) :
    Sound pages (setProc p v { s with mem := M }) := by
  refine ⟨?_, fun q hq hstate => ?_⟩
  · have hdirs : dirs (Pages.setProc p v { s with mem := M })
        = slotPage Proc.pgdir v + otherDirs s p := by
      show s.kpgdir ::ₘ inUse (Function.update s.proc p v) Proc.pgdir = _
      rw [inUse_update hp, otherDirs, add_cons]
    have hheld : kstacks (Pages.setProc p v { s with mem := M })
          + pipePages (Pages.setProc p v { s with mem := M })
        = slotPage Proc.kstack v + otherHeld s p := by
      show (s.cpus : Multiset Nat) + inUse (Function.update s.proc p v) Proc.kstack + pipePages s = _
      rw [inUse_update hp, otherHeld]
      abel
    rwa [hdirs, hheld]
  · have hproc : (Pages.setProc p v { s with mem := M }).proc q = if q = p then v else s.proc q :=
      Function.update_apply ..
    rw [hproc] at hstate ⊢
    by_cases hqp : q = p
    · rw [if_pos hqp] at hstate ⊢
      exact hsz hstate
    · rw [if_neg hqp] at hstate ⊢
      exact h.sz q hq hstate

lemma Sound.setMem (h : Sound pages s) (hown : Own pages (dirs s) (kstacks s + pipePages s) M) :
    Sound pages { s with mem := M } := ⟨hown, h.sz⟩

lemma Sound.own_used (h : Sound pages s) (hp : p < NPROC) (hused : (s.proc p).state ≠ .unused) :
    Own pages ((s.proc p).pgdir ::ₘ otherDirs s p) ((s.proc p).kstack ::ₘ otherHeld s p) s.mem := by
  have hown := h.own
  rwa [dirs_split hp, held_split hp, slotPage_used hused, slotPage_used hused,
    singleton_add, singleton_add] at hown

lemma Alive.used (h : Alive s p) : (s.proc p).state ≠ .unused := by
  rcases h.2 with h | h | h <;> rw [h] <;> exact nofun

lemma findUnused_some {np : Nat} (h : findUnused s = some np) :
    np < NPROC ∧ (s.proc np).state = .unused := by
  obtain ⟨-, hlt, hp⟩ := firstFrom_some h
  exact ⟨by omega, of_decide_eq_true hp⟩

lemma fork_sound (h : Sound pages s) (hp : Alive s p) (hrun : fork m p s = .ok s') :
    Sound pages s' := by
  rw [fork] at hrun
  cases hfind : findUnused s with
  | none =>
    rw [hfind] at hrun
    obtain rfl := ok.inj hrun
    exact h
  | some np =>
    obtain ⟨hnp, hunused⟩ := findUnused_some hfind
    rw [hfind] at hrun
    dsimp only at hrun
    -- the slot gives nothing yet
    have hown := h.own
    rw [dirs_split hnp, held_split hnp, slotPage_unused hunused, slotPage_unused hunused,
      zero_add, zero_add] at hown
    have hback : ∀ {M : Phys} {v : Proc}, v.state = .unused →
        Own pages (otherDirs s np) (otherHeld s np) M →
        Sound pages (setProc np v { s with mem := M }) := fun {M v} hv hM => by
      refine h.setProc hnp ?_ (fun hne => absurd hv hne)
      rwa [slotPage_unused hv, slotPage_unused hv, zero_add, zero_add]
    rcases kalloc_own hown with heq | ⟨kstack, M1, heq, -, h1⟩
    · rw [heq] at hrun
      obtain rfl := ok.inj hrun
      exact hback hunused hown
    rw [heq] at hrun
    obtain ⟨⟨r, M2⟩, hcopy, hrun⟩ := bind_eq_ok.mp hrun
    have hsz := h.sz p hp.1 hp.used
    have h2 := copyuvm_own h1 hsz.le hcopy
    cases r with
    | none =>
      obtain ⟨M3, hfree, hrun⟩ := bind_eq_ok.mp hrun
      obtain rfl := ok.inj hrun
      exact hback hunused (kfree_own h2 hfree)
    | some d =>
      obtain rfl := ok.inj hrun
      refine h.setProc hnp ?_ (fun _ => hsz)
      have hv : (⟨.runnable, kstack, d, (s.proc p).sz⟩ : Proc).state ≠ .unused := nofun
      rwa [slotPage_used hv, slotPage_used hv, singleton_add, singleton_add]

lemma Sound.setUsed {v : Proc} {d : Nat} (h : Sound pages s) (hp : p < NPROC)
    (hv : v.state ≠ .unused) (hd : v.pgdir = d) (hk : v.kstack = (s.proc p).kstack)
    (hsz : v.sz < KERNBASE)
    (hown : Own pages (d ::ₘ otherDirs s p) ((s.proc p).kstack ::ₘ otherHeld s p) M) :
    Sound pages (Pages.setProc p v { s with mem := M }) := by
  refine h.setProc hp ?_ (fun _ => hsz)
  rwa [slotPage_used hv, slotPage_used hv, hd, hk, singleton_add, singleton_add]

lemma Sound.setMemUsed (h : Sound pages s) (hp : p < NPROC) (hused : (s.proc p).state ≠ .unused)
    (hown : Own pages ((s.proc p).pgdir ::ₘ otherDirs s p)
      ((s.proc p).kstack ::ₘ otherHeld s p) M) : Sound pages { s with mem := M } := by
  refine h.setMem ?_
  rwa [dirs_split hp, held_split hp, slotPage_used hused, slotPage_used hused,
    singleton_add, singleton_add]

lemma growproc_sound {n : Int} (h : Sound pages s) (hp : Alive s p)
    (hrun : growproc m p n s = .ok s') : Sound pages s' := by
  have hown := h.own_used hp.1 hp.used
  have hsz := h.sz p hp.1 hp.used
  rw [growproc] at hrun
  split at hrun
  · obtain ⟨⟨sz, M⟩, halloc, hrun⟩ := bind_eq_ok.mp hrun
    obtain ⟨hM, hlt⟩ := allocuvm_own hown (fun _ => hsz) halloc
    dsimp only at hrun
    split at hrun
    · obtain rfl := ok.inj hrun
      exact h.setMemUsed hp.1 hp.used hM
    · obtain rfl := ok.inj hrun
      exact h.setUsed hp.1 hp.used rfl rfl hlt hM
  split at hrun
  · obtain ⟨⟨sz, M⟩, hdealloc, hrun⟩ := bind_eq_ok.mp hrun
    have hM := deallocuvm_own hown hsz.le hdealloc
    have hlt := deallocuvm_le hdealloc
    dsimp only at hrun
    split at hrun
    · obtain rfl := ok.inj hrun
      exact h.setMemUsed hp.1 hp.used hM
    · obtain rfl := ok.inj hrun
      exact h.setUsed hp.1 hp.used rfl rfl (Nat.lt_of_le_of_lt hlt hsz) hM
  · obtain rfl := ok.inj hrun
    exact h

variable {dirs held : Multiset Nat}

/-- The size of the program, from the size `sz` on. -/
def imageSize : List Segment → Nat → Nat
  | [], sz => sz
  | ph :: phs, sz =>
    imageSize phs (if ph.load = false then sz else max sz ((ph.vaddr + ph.memsz) % UINT))

/-- The bytes that the strings take on the stack. -/
def argBytes (args : List Arg) : Nat := (args.map (fun a => (a.len + 4) / 4 * 4)).sum

/-- The strings and the words of `ustack` are not longer than the new image. -/
def ArgsFit : Call → Prop
  | .exec _ (some phs) args =>
    argBytes args + (3 + args.length + 1) * 4 ≤ PGROUNDUP (imageSize phs 0) + 2 * PGSIZE
  | _ => True

instance (c : Call) : Decidable (ArgsFit c) := by
  unfold ArgsFit
  split <;> infer_instance

lemma loadSegments_own {pgdir : Nat} : ∀ (phs : List Segment) (sz : Nat)
    (M M' : Phys) (r : Option Nat), Own pages (pgdir ::ₘ dirs) held M → sz < KERNBASE →
    Tables pgdir sz M → loadSegments m pgdir phs sz M = .ok (r, M') →
    Own pages (pgdir ::ₘ dirs) held M' ∧
      ∀ sz', r = some sz' → sz' < KERNBASE ∧ Tables pgdir sz' M' ∧ sz' = imageSize phs sz := by
  intro phs
  induction phs with
  | nil =>
    intro sz M M' r h hsz ht hrun
    obtain ⟨rfl, rfl⟩ := ok_pair_inj hrun
    exact ⟨h, fun sz' heq => Option.some.inj heq ▸ ⟨hsz, ht, rfl⟩⟩
  | cons ph phs ih =>
    intro sz M M' r h hsz ht hrun
    have hbad : ∀ {M1 : Phys}, Own pages (pgdir ::ₘ dirs) held M1 →
        (Except.ok (none, M1) : Except Err (Option Nat × Phys)) = .ok (r, M') →
        Own pages (pgdir ::ₘ dirs) held M' ∧ ∀ sz', r = some sz' →
          sz' < KERNBASE ∧ Tables pgdir sz' M' ∧ sz' = imageSize (ph :: phs) sz := by
      intro M1 h1 heq
      obtain ⟨rfl, rfl⟩ := ok_pair_inj heq
      exact ⟨h1, nofun⟩
    rw [loadSegments] at hrun
    by_cases hread : ph.read = false
    · rw [if_pos hread] at hrun
      exact hbad h hrun
    rw [if_neg hread] at hrun
    by_cases hskip : ph.load = false
    · rw [if_pos hskip] at hrun
      rw [imageSize, if_pos hskip]
      exact ih sz M M' r h hsz ht hrun
    rw [if_neg hskip] at hrun
    by_cases hfile : ph.memsz < ph.filesz
    · rw [if_pos hfile] at hrun
      exact hbad h hrun
    rw [if_neg hfile] at hrun
    by_cases hwrap : (ph.vaddr + ph.memsz) % UINT < ph.vaddr
    · rw [if_pos hwrap] at hrun
      exact hbad h hrun
    rw [if_neg hwrap] at hrun
    obtain ⟨⟨sz1, M1⟩, halloc, hrun⟩ := bind_eq_ok.mp hrun
    obtain ⟨hM1, hlt⟩ := allocuvm_own h (fun _ => hsz) halloc
    dsimp only at hrun
    split_ifs at hrun with hzero
    · exact hbad hM1 hrun
    · exact hbad hM1 hrun
    · exact hbad hM1 hrun
    · obtain ⟨rfl, ht1⟩ := allocuvm_tables h ht hzero halloc
      rw [imageSize, if_neg hskip]
      exact ih _ M1 M' r hM1 hlt ht1 hrun

lemma usub_of_le {a b : Nat} (hle : b ≤ a) (ha : a < UINT) : usub a b = a - b := by
  rw [usub, UINT] at *
  omega

/-- **The loop over the arguments.**  While `sp` does not pass below the image, the strings are
    stored in its user pages; `rest` is the room below them. -/
lemma pushArgs_own {cur pgdir sz rest : Nat} (hsz : sz < KERNBASE) :
    ∀ (args : List Arg) (sp : Nat) (us : List Nat) (M M' : Phys) (r : Option (Nat × List Nat)),
      Own pages (pgdir ::ₘ dirs) held M → Tables pgdir sz M → sp ≤ sz → sp % 4 = 0 →
      argBytes args + rest ≤ sp → pushArgs m cur pgdir args sp us M = .ok (r, M') →
      Own pages (pgdir ::ₘ dirs) held M' ∧ M'.page pgdir = M.page pgdir ∧
        ∀ sp' us', r = some (sp', us') →
          us'.length = us.length + args.length ∧ rest ≤ sp' ∧ sp' ≤ sz := by
  intro args
  induction args with
  | nil =>
    intro sp us M M' r h _ hsp _ hroom hrun
    obtain ⟨rfl, rfl⟩ := ok_pair_inj hrun
    refine ⟨h, rfl, fun sp' us' heq => ?_⟩
    obtain ⟨rfl, rfl⟩ := Prod.mk.inj (Option.some.inj heq)
    exact ⟨rfl, Nat.le_trans (Nat.le_add_left ..) hroom, hsp⟩
  | cons a as ih =>
    intro sp us M M' r h ht hsp halign hroom hrun
    rw [pushArgs] at hrun
    split at hrun
    · obtain ⟨rfl, rfl⟩ := ok_pair_inj hrun
      exact ⟨h, rfl, nofun⟩
    rw [argBytes, List.map_cons, List.sum_cons, ← argBytes] at hroom
    have hlt : sp < UINT := Nat.lt_of_le_of_lt hsp (Nat.lt_trans hsz (by decide))
    rw [usub_of_le (by omega) hlt] at hrun
    obtain ⟨⟨ok, M1⟩, hcopy, hrun⟩ := bind_eq_ok.mp hrun
    obtain ⟨h1, hdir⟩ := copyout_own h ht hsz.le (by omega) hcopy
    dsimp only at hrun
    cases ok with
    | false =>
      obtain ⟨rfl, rfl⟩ := ok_pair_inj hrun
      exact ⟨h1, hdir, nofun⟩
    | true =>
      rw [if_pos rfl] at hrun
      obtain ⟨h2, hd, hout⟩ := ih _ _ M1 M' r h1 (fun va hva => by rw [hdir]; exact ht va hva)
        (by omega) (Nat.mul_mod_left ..) (by omega) hrun
      refine ⟨h2, hd.trans hdir, fun sp' us' heq => ?_⟩
      obtain ⟨hlen, hsp'⟩ := hout sp' us' heq
      rw [List.length_append, List.length_singleton] at hlen
      exact ⟨by rw [hlen, List.length_cons]; omega, hsp'⟩

lemma userStack_own {cur pgdir sz : Nat} {args : List Arg} {M M' : Phys}
    {r : Option Nat} (h : Own pages (pgdir ::ₘ dirs) held M) (hsz : sz < KERNBASE)
    (ht : Tables pgdir sz M)
    (hfit : argBytes args + (3 + args.length + 1) * 4 ≤ PGROUNDUP sz + 2 * PGSIZE)
    (hrun : userStack m cur pgdir sz args M = .ok (r, M')) :
    Own pages (pgdir ::ₘ dirs) held M' ∧ ∀ sz', r = some sz' → sz' < KERNBASE := by
  obtain ⟨⟨sz1, M1⟩, halloc, hrun⟩ := bind_eq_ok.mp hrun
  have hgrows : PGROUNDUP sz ≤ (PGROUNDUP sz + 2 * PGSIZE) % UINT ∧
      (PGROUNDUP sz + 2 * PGSIZE) % UINT = PGROUNDUP sz + 2 * PGSIZE ∧
      (PGROUNDUP sz + 2 * PGSIZE) % 4 = 0 := by
    rw [PGROUNDUP, PGSIZE, UINT, KERNBASE] at *
    omega
  obtain ⟨hM1, hlt⟩ := allocuvm_own h (fun hless => absurd hless (by omega)) halloc
  dsimp only at hrun
  split at hrun
  · obtain ⟨rfl, rfl⟩ := ok_pair_inj hrun
    exact ⟨hM1, fun _ he => by cases he⟩
  · next hzero =>
    obtain ⟨hsz1, ht1⟩ := allocuvm_tables h (ht.roundup hsz) hzero halloc
    rw [Nat.max_eq_right hgrows.1, hgrows.2.1] at hsz1
    obtain ⟨M2, hclear, hrun⟩ := bind_eq_ok.mp hrun
    obtain ⟨hM2, hdir2⟩ := clearpteu_own hM1 hclear
    obtain ⟨⟨r3, M3⟩, hpush, hrun⟩ := bind_eq_ok.mp hrun
    obtain ⟨hM3, hdir3, hout⟩ := pushArgs_own hlt args sz1 [] M2 M3 r3 hM2
      (fun va hva => by rw [hdir2]; exact ht1 va hva) le_rfl (by omega)
      (by rw [hsz1]; exact hfit) hpush
    cases r3 with
    | none =>
      obtain ⟨rfl, rfl⟩ := ok_pair_inj hrun
      exact ⟨hM3, fun _ he => by cases he⟩
    | some out =>
      obtain ⟨hlen, hroom, hle⟩ := hout out.1 out.2 rfl
      rw [List.length_nil, zero_add] at hlen
      have hsp : out.1 < UINT := Nat.lt_of_le_of_lt hle (Nat.lt_trans hlt (by decide))
      dsimp only at hrun
      rw [hlen, usub_of_le hroom hsp] at hrun
      obtain ⟨⟨ok, M4⟩, hcopy, hrun⟩ := bind_eq_ok.mp hrun
      obtain ⟨hM4, -⟩ := copyout_own hM3 (fun va hva => by rw [hdir3, hdir2]; exact ht1 va hva)
        hlt.le (by omega) hcopy
      obtain ⟨rfl, rfl⟩ := ok_pair_inj hrun
      refine ⟨hM4, fun sz' heq => ?_⟩
      split_ifs at heq
      exact Option.some.inj heq ▸ hlt

lemma exec_sound {phs : Option (List Segment)} {args : List Arg} (h : Sound pages s)
    (hp : Alive s p) (hfit : ArgsFit (.exec p phs args)) (hrun : exec m p phs args s = .ok s') :
    Sound pages s' := by
  cases phs with
  | none =>
    obtain rfl := ok.inj hrun
    exact h
  | some phs =>
    have hown := h.own_used hp.1 hp.used
    obtain ⟨⟨r, M1⟩, hsetup, hrun⟩ := bind_eq_ok.mp hrun
    have h1 := setupkvm_own hown hsetup
    cases r with
    | none =>
      obtain rfl := ok.inj hrun
      exact h.setMemUsed hp.1 hp.used h1
    | some pgdir =>
      -- `bad:` frees the new directory
      have hbad : ∀ {M M' : Phys}, Own pages (pgdir ::ₘ (s.proc p).pgdir ::ₘ otherDirs s p)
          ((s.proc p).kstack ::ₘ otherHeld s p) M → freevm m pgdir M = .ok M' →
          Sound pages { s with mem := M' } := fun hM hfree =>
        h.setMemUsed hp.1 hp.used (freevm_own hM hfree)
      obtain ⟨⟨r, M2⟩, hload, hrun⟩ := bind_eq_ok.mp hrun
      obtain ⟨h2, hsz⟩ := loadSegments_own phs 0 M1 M2 r h1 (by decide)
        (fun _ hva => absurd hva (Nat.not_lt_zero _)) hload
      cases r with
      | none =>
        obtain ⟨M3, hfree, hrun⟩ := bind_eq_ok.mp hrun
        obtain rfl := ok.inj hrun
        exact hbad h2 hfree
      | some sz =>
        obtain ⟨hlt, ht, himage⟩ := hsz sz rfl
        obtain ⟨⟨r, M3⟩, hstack, hrun⟩ := bind_eq_ok.mp hrun
        obtain ⟨h3, hsz'⟩ := userStack_own h2 hlt ht (himage ▸ hfit) hstack
        cases r with
        | none =>
          obtain ⟨M4, hfree, hrun⟩ := bind_eq_ok.mp hrun
          obtain rfl := ok.inj hrun
          exact hbad h3 hfree
        | some sz' =>
          -- the old directory is freed
          obtain ⟨M4, hfree, hrun⟩ := bind_eq_ok.mp hrun
          obtain rfl := ok.inj hrun
          rw [Multiset.cons_swap] at h3
          exact h.setUsed hp.1 hp.used rfl rfl (hsz' sz' rfl) (freevm_own h3 hfree)

lemma sysExec_sound {phs : Option (List Segment)} {args : List Arg} (h : Sound pages s)
    (hfit : ArgsFit (.exec p phs args)) (hp : Alive s p) (hrun : sysExec m p phs args s = .ok s') :
    Sound pages s' := by
  rw [sysExec] at hrun
  split_ifs at hrun
  · exact exec_sound h hp hfit hrun
  · exact ok.inj hrun ▸ h

lemma store_sound {va : Nat} {e : Entry} (h : Sound pages s) (hp : Alive s p)
    (hrun : (.ok (store p va e s) : Except Err State) = .ok s') : Sound pages s' := by
  obtain rfl := ok.inj hrun
  rw [store]
  rcases walkpgdir_find (s.proc p).pgdir va s.mem with ⟨-, heq⟩ | ⟨htable, heq⟩
  · rwa [heq]
  rw [heq]
  dsimp only
  split_ifs with hpte
  · have huser := mem_userPages (PDX_user hpte.1) htable (PTX_lt va) hpte.2.1
    exact h.setMemUsed hp.1 hp.used ((h.own_used hp.1 hp.used).setUser huser _).1
  · exact h

lemma exit_sound (h : Sound pages s) (hp : Alive s p) (hrun : exit p s = .ok s') :
    Sound pages s' := by
  rw [exit] at hrun
  split at hrun
  · exact nomatch hrun
  obtain rfl := ok.inj hrun
  have hv : ({ s.proc p with state := .zombie } : Proc).state ≠ .unused := nofun
  exact h.setUsed hp.1 hv rfl rfl (h.sz p hp.1 hp.used) (h.own_used hp.1 hp.used)

lemma wait_sound {q : Nat} (h : Sound pages s) (hrun : wait m q s = .ok s') : Sound pages s' := by
  rw [wait] at hrun
  split at hrun
  · next hq =>
    obtain ⟨M1, hstack, hrun⟩ := bind_eq_ok.mp hrun
    obtain ⟨M2, hfree, hrun⟩ := bind_eq_ok.mp hrun
    obtain rfl := ok.inj hrun
    have hown := h.own_used hq.1 (by rw [hq.2]; exact nofun)
    refine h.setProc hq.1 ?_ (fun hne => absurd rfl hne)
    rw [slotPage_unused rfl, slotPage_unused rfl, zero_add, zero_add]
    exact freevm_own (kfree_own hown hstack) hfree
  · obtain rfl := ok.inj hrun
    exact h

lemma pipealloc_sound {files : Bool} (h : Sound pages s)
    (hrun : pipealloc files s = .ok s') : Sound pages s' := by
  cases files with
  | false =>
    obtain rfl := ok.inj hrun
    exact h
  | true =>
    rw [pipealloc, if_pos rfl] at hrun
    rcases kalloc_own h.own with heq | ⟨page, M, heq, -, hM⟩
    · rw [heq] at hrun
      obtain rfl := ok.inj hrun
      exact h.setMem h.own
    rw [heq] at hrun
    obtain rfl := ok.inj hrun
    refine ⟨?_, h.sz⟩
    have hpages : pipePages { s with mem := M, pipes := ⟨page, true, true⟩ :: s.pipes }
        = page ::ₘ pipePages s := rfl
    show Own pages (dirs s) (kstacks s + _) M
    rwa [hpages, add_cons]

lemma pipeclose_sound {k : Nat} {writable : Bool} (h : Sound pages s)
    (hrun : pipeclose m k writable s = .ok s') : Sound pages s' := by
  rw [pipeclose] at hrun
  cases hk : s.pipes[k]? with
  | none =>
    rw [hk] at hrun
    obtain rfl := ok.inj hrun
    exact h
  | some pipe =>
    rw [hk] at hrun
    dsimp only at hrun
    obtain ⟨hlt, hget⟩ := List.getElem?_eq_some_iff.mp hk
    have hpage : (if writable = true then { pipe with writeopen := false }
        else { pipe with readopen := false } : Pipe).page = pipe.page := by
      cases writable <;> rfl
    generalize (if writable = true then { pipe with writeopen := false }
      else { pipe with readopen := false } : Pipe) = closed at hrun hpage
    split at hrun
    · obtain ⟨M, hfree, hrun⟩ := bind_eq_ok.mp hrun
      obtain rfl := ok.inj hrun
      refine ⟨?_, h.sz⟩
      have hpages : pipePages s = closed.page ::ₘ
          pipePages { s with mem := M, pipes := s.pipes.eraseIdx k } := by
        have hperm := (List.getElem_cons_eraseIdx_perm hlt).map Pipe.page
        rw [hget, List.map_cons, ← hpage] at hperm
        exact (Multiset.coe_eq_coe.mpr hperm).symm
      have hown := h.own
      rw [hpages, add_cons] at hown
      exact kfree_own hown hfree
    obtain rfl := ok.inj hrun
    refine ⟨?_, h.sz⟩
    have hpages : pipePages { s with pipes := s.pipes.set k closed } = pipePages s := by
      have hlt' : k < (s.pipes.map Pipe.page).length := by rwa [List.length_map]
      have hsame : (s.pipes.map Pipe.page)[k] = closed.page := by
        rw [List.getElem_map, hget, hpage]
      show (((s.pipes.set k closed).map Pipe.page : List Nat) : Multiset Nat) = _
      rw [List.map_set, ← hsame, List.set_getElem_self, pipePages]
    show Own pages (dirs s) (kstacks s + _) s.mem
    rw [hpages]
    exact h.own

lemma step_sound {c : Call} (h : Sound pages s) (hfit : ArgsFit c) (hrun : step m s c = .ok s') : Sound pages s' := by
  have hidle : ∀ {p : Nat} {x : Except Err State}, (if Alive s p then x else .ok s) = .ok s' →
      (Alive s p → x = .ok s' → Sound pages s') → Sound pages s' := by
    intro p x hx hcall
    split at hx
    · next hp =>
      exact hcall hp hx
    · obtain rfl := ok.inj hx
      exact h
  cases c with
  | fork p => exact hidle hrun (fork_sound h)
  | growproc p n => exact hidle hrun (growproc_sound h)
  | exec p phs args => exact hidle hrun (sysExec_sound h hfit)
  | store p va e => exact hidle hrun (store_sound h)
  | exit p => exact hidle hrun (exit_sound h)
  | wait q => exact wait_sound h hrun
  | pipealloc files => exact pipealloc_sound h hrun
  | pipeclose k writable => exact pipeclose_sound h hrun

/-! ## Booting -/

lemma freerange_own : ∀ (l : List Nat) (M M' : Phys),
    Own pages dirs ((l : Multiset Nat) + held) M → freerange m l M = .ok M' →
    Own pages dirs held M' := by
  intro l
  induction l with
  | nil =>
    intro M M' h hrun
    obtain rfl := ok.inj hrun
    rwa [coe_nil, zero_add] at h
  | cons v l ih =>
    intro M M' h hrun
    rw [freerange, List.foldlM_cons] at hrun
    obtain ⟨M1, hfree, hrun⟩ := bind_eq_ok.mp hrun
    rw [← cons_coe, cons_add] at h
    exact ih M1 M' (kfree_own h hfree) hrun

lemma startothers_own : ∀ (n : Nat) (cpus cpus' : List Nat)
    (M M' : Phys), Own pages dirs ((cpus : Multiset Nat) + held) M →
    startothers n cpus M = .ok (cpus', M') → Own pages dirs ((cpus' : Multiset Nat) + held) M' := by
  intro n
  induction n with
  | zero =>
    intro cpus cpus' M M' h hrun
    obtain ⟨rfl, rfl⟩ := ok_pair_inj hrun
    exact h
  | succ n ih =>
    intro cpus cpus' M M' h hrun
    rw [startothers] at hrun
    rcases kalloc_own h with heq | ⟨stack, M1, heq, -, h1⟩
    · rw [heq] at hrun
      exact nomatch hrun
    rw [heq] at hrun
    refine ih (stack :: cpus) cpus' M1 M' ?_ hrun
    rwa [← cons_coe, cons_add]

lemma userinit_own {M M' : Phys} {init : Proc}
    (h : Own pages dirs held M) (hrun : userinit m M = .ok (init, M')) :
    Own pages (init.pgdir ::ₘ dirs) (init.kstack ::ₘ held) M' ∧ init.state ≠ .unused ∧
      init.sz < KERNBASE := by
  rw [userinit] at hrun
  rcases kalloc_own h with heq | ⟨kstack, M1, heq, -, h1⟩
  · rw [heq] at hrun
    exact nomatch hrun
  rw [heq] at hrun
  obtain ⟨⟨r, M2⟩, hsetup, hrun⟩ := bind_eq_ok.mp hrun
  have h2 := setupkvm_own h1 hsetup
  cases r with
  | none => exact nomatch hrun
  | some pgdir =>
    dsimp only at hrun
    rcases kalloc_own h2 with heq | ⟨mem, M3, heq, -, h3⟩
    · rw [heq] at hrun
      exact nomatch hrun
    rw [heq] at hrun
    obtain ⟨⟨r, M4⟩, hmap, hrun⟩ := bind_eq_ok.mp hrun
    rcases mappages_user h3 rfl (by decide) hmap with ⟨rfl, h4, -⟩ | ⟨rfl, -⟩
    · obtain ⟨rfl, rfl⟩ := ok_pair_inj hrun
      exact ⟨h4, nofun, (by decide : PGSIZE < KERNBASE)⟩
    · exact nomatch hrun

lemma bootPages_nodup (m : Machine) : (bootPages m).Nodup := by
  rw [bootPages, lowPages, highPages]
  refine List.Nodup.append List.nodup_range' List.nodup_range' (fun v h1 h2 => ?_)
  rw [List.mem_range'_1] at h1 h2
  omega

/-- **After `main`.** -/
lemma boot_sound {page : Nat → Nat → Entry} (hrun : boot m page = .ok s) :
    Sound (bootPages m : Multiset Nat) s := by
  obtain ⟨M1, hlow, hrun⟩ := bind_eq_ok.mp hrun
  obtain ⟨⟨r, M2⟩, hsetup, hrun⟩ := bind_eq_ok.mp hrun
  have h0 : Own (bootPages m : Multiset Nat) 0
      ((lowPages m : Multiset Nat) + (highPages m : Multiset Nat)) ⟨page, []⟩ := by
    refine ⟨Multiset.coe_nodup.mpr (bootPages_nodup m), ?_⟩
    rw [coe_nil, zero_add, Multiset.map_zero, Multiset.sum_zero, add_zero, Multiset.coe_add]
    rfl
  have h1 := freerange_own _ _ M1 h0 hlow
  have h2 := setupkvm_own h1 hsetup
  cases r with
  | none => exact nomatch hrun
  | some kpgdir =>
    obtain ⟨⟨cpus, M3⟩, hcpus, hrun⟩ := bind_eq_ok.mp hrun
    obtain ⟨M4, hhigh, hrun⟩ := bind_eq_ok.mp hrun
    obtain ⟨⟨init, M5⟩, hinit, hrun⟩ := bind_eq_ok.mp hrun
    obtain rfl := ok.inj hrun
    have h3 := startothers_own m.others [] cpus M2 M3 (by rwa [coe_nil, zero_add]) hcpus
    rw [add_comm] at h3
    obtain ⟨h5, hused, hsz⟩ := userinit_own (freerange_own _ M3 M4 h3 hhigh) hinit
    -- only the first slot is in use
    have hothers : ∀ f, inUse (fun p => if p = 0 then init else ⟨.unused, 0, 0, 0⟩) f
        = {f init} := fun f => by
      rw [inUse_split (p := 0) (by decide), if_pos rfl, slotPage_used hused, othersInUse,
        Finset.sum_eq_zero (fun q hq => ?_), add_zero]
      have hne : q ≠ 0 := fun heq => (Finset.mem_sdiff.mp hq).2 (Finset.mem_singleton.mpr heq)
      rw [if_neg hne]
      rfl
    refine ⟨?_, fun p _ hstate => ?_⟩
    · rw [dirs, kstacks, pipePages, hothers, hothers, List.map_nil, coe_nil, add_zero,
        add_comm, singleton_add]
      rwa [Multiset.cons_swap] at h5
    · show (if p = 0 then init else ⟨.unused, 0, 0, 0⟩ : Proc).sz < KERNBASE
      split
      · exact hsz
      · exact (by decide : 0 < KERNBASE)

lemma Sound.places (h : Sound pages s) : places s = pages := by
  have hsum : ((dirs s).map (owned s.mem.page)).sum = dirs s
      + ((dirs s).map (fun d => present NPDENTRIES (s.mem.page d))).sum
      + ((dirs s).map (userPages s.mem.page)).sum := by
    have howned : owned s.mem.page = fun d =>
        {d} + present NPDENTRIES (s.mem.page d) + userPages s.mem.page d := by
      funext d
      rw [owned]
    rw [howned, Multiset.sum_map_add, Multiset.sum_map_add, Multiset.sum_map_singleton]
  rw [← h.own.total, hsum, Pages.places]
  abel

end Sound

/-- A small machine: 18 pages, one page mapped by the kernel, and one processor. -/
def small : Machine where
  kmap := [⟨KERNBASE, 0, PGSIZE, true⟩]
  first := 1020
  top := 1038
  others := 0
  high := by decide

/-- A string of `n` bytes 1. -/
def ones (n : Nat) : Arg := ⟨n, fun _ => 1⟩

/-- `init` executes a program of 5000 bytes with two arguments; its child gives back a page, runs
    out of memory in its own `fork`, exits and is waited for; a pipe is opened. -/
def fillMemory : List Call :=
  [.exec 0 (some [⟨true, true, 0, 5000, 5000, true⟩]) [ones 5, ones 9], .fork 0,
   .growproc 1 (-4096), .fork 1, .exit 1, .wait 1, .pipealloc true]

lemma user_mem_places {s : State} {p v : Nat} (hp : p < NPROC) (hused : (s.proc p).state ≠ .unused)
    (hv : v ∈ userPages s.mem.page (s.proc p).pgdir) : v ∈ places s := by
  have hdir : (s.proc p).pgdir ∈ dirs s := by
    rw [dirs_split hp, slotPage_used hused]
    exact Multiset.mem_add.mpr (.inl (Multiset.mem_singleton_self _))
  refine Multiset.mem_add.mpr (.inl (Multiset.mem_add.mpr (.inr ?_)))
  obtain ⟨rest, hrest⟩ := Multiset.exists_cons_of_mem hdir
  rw [hrest, Multiset.map_cons, Multiset.sum_cons]
  exact Multiset.mem_add.mpr (.inl hv)

/-- `init` grows to three pages, stores a PTE for page 1033, its page table, at address 0, and
    executes a program with an argument four bytes longer than the new image. -/
def longArg : List Call :=
  [.growproc 0 8192, .store 0 0 ⟨true, true, true, 1033⟩, .exec 0 (some []) [ones 8195]]

end Pages
