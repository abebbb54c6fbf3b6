import Xv6Ext2.TableSumProofs
import Xv6Ext2.ProcProofs
import Xv6Ext2.SysRefsProofs

/-! # The file table and the descriptor tables

    `filealloc`, `filedup`, `fileclose`, `fdalloc` and the calls that use them: `sys_open`,
    `sys_dup`, `sys_close`, `sys_pipe`, `fork` and `exit`, by the processes of the table.
    What the code around the two tables answers is an argument of the call: the locked
    inode that `sys_open` has found, the slot of `allocproc`, whether `argptr` accepts its
    argument and whether there is memory.

    Every opening of a file is numbered: `opened` lists what the openings stand for (an
    inode reference or an end of a pipe), `released` what `fileclose` has given back.

    * `Own held fresh` — between two statements of a call, `ref` counts the descriptors and
      the references in `held`; the files in `fresh` are allocated and have no type yet.
    * `sysOpen_own`, `sysDup_own`, `sysClose_own`, `sysPipe_own`, `fork_own`, `exit_own` —
      every call returns and leaves no reference held.
    * `files_counted` — what holds at every system-call boundary.
    * `sysOpen_refines` — the kernel's `sys_open`, with its path and its inodes, is the
      `sysOpen` of the tables. -/

namespace Ftable

open Outcome Runs SlotTable Kernel TableSum Param

open Function (update update_apply update_of_ne update_self)

open List (mem_cons mem_cons_of_mem mem_cons_self nodup_cons nodup_nil not_mem_nil)

open BufCache (Err)

open Ptable (NPROC)

/-! ## The tables -/

/-- What an open file stands for: a reference to the inode at entry `ip`, or the reading
    or the writing end of a pipe. -/
inductive Obj where
  | inode (ip : Nat)
  | pipe (p : Nat) (writable : Bool)
  deriving DecidableEq, Repr

/-- `struct file`, with its `pipe` and the number of its opening. -/
structure OpenFile extends Kernel.File where
  pipe    : Nat
  opening : Nat
  deriving DecidableEq

/-- What `fileclose` gives back when it closes the file. -/
def OpenFile.obj (f : OpenFile) : Option Obj :=
  match f.type with
  | .none => none
  | .pipe => some (.pipe f.pipe f.writable)
  | .inode => some (.inode f.ip)

/-- `ofile (p, fd)` is `ofile[fd]` of process `p`; `live p` says that the slot is in use. -/
structure State where
  file     : Nat → OpenFile
  ofile    : Nat × Nat → Option Nat
  live     : Nat → Bool
  pipes    : Nat
  opened   : List Obj
  released : List (Nat × Obj)

def setFile (f : Nat) (v : OpenFile) (s : State) : State :=
  { s with file := Function.update s.file f v }

def setFd (x : Nat × Nat) (v : Option Nat) (s : State) : State :=
  { s with ofile := Function.update s.ofile x v }

def filealloc (s : State) : Option Nat × State :=
  match firstFrom (fun f => decide ((s.file f).ref = 0)) NFILE 0 with
  | none => (none, s)
  | some f => (some f, setFile f { s.file f with ref := 1 } s)

def filedup (f : Nat) (s : State) : Except Err State :=
  if (s.file f).ref < 1 then .error (.panic "filedup")
  else .ok (setFile f { s.file f with ref := (s.file f).ref + 1 } s)

/-- The end of `fileclose`: `pipeclose`, `iput` or nothing. -/
def release (ff : OpenFile) (s : State) : State :=
  match ff.obj with
  | none => s
  | some o => { s with released := s.released ++ [(ff.opening, o)] }

/-- Close file `f`.  (Decrement ref count, close when reaches 0.) -/
def fileclose (f : Nat) (s : State) : Except Err State :=
  let ff := s.file f
  if ff.ref < 1 then .error (.panic "fileclose")
  else if 0 < ff.ref - 1 then .ok (setFile f { ff with ref := ff.ref - 1 } s)
  else .ok (release ff (setFile f { ff with ref := 0, type := .none } s))

/-- Allocate a file descriptor of process `p` for the given file. -/
def fdalloc (p f : Nat) (s : State) : Option Nat × State :=
  match firstFrom (fun fd => decide (s.ofile (p, fd) = none)) NOFILE 0 with
  | none => (none, s)
  | some fd => (some fd, setFd (p, fd) (some f) s)

/-- `ofile[fd]`; `none` is an argument that `argfd` does not accept. -/
def argfd (p : Nat) (fd : Option Nat) (s : State) : Option (Nat × Nat) :=
  match fd with
  | none => none
  | some fd => if NOFILE ≤ fd then none else (s.ofile (p, fd)).map (fun f => (fd, f))

/-- The fields of an allocated file get their values: an opening of `o`. -/
def fill (f : Nat) (v : OpenFile) (o : Obj) (s : State) : State :=
  { setFile f { v with opening := s.opened.length } s with opened := s.opened ++ [o] }

/-! ## The calls -/

/-- `sys_open` once `found` is the locked inode of the path, or there is none. -/
def sysOpen (p : Nat) (found : Option Nat) (omode : Nat) (s : State) :
    Except Err (Int × State) :=
  match found with
  | none => .ok (-1, s)
  | some ip =>
    match filealloc s with
    | (none, s) => .ok (-1, s)
    | (some f, s) =>
      match fdalloc p f s with
      | (none, s) => do
          let s ← fileclose f s
          .ok (-1, s)
      | (some fd, s) => .ok (fd, fill f { s.file f with
          type := .inode, ip := ip, off := 0, readable := decide (omode &&& O_WRONLY = 0),
          writable := decide (omode &&& O_WRONLY ≠ 0) || decide (omode &&& O_RDWR ≠ 0) }
          (.inode ip) s)

def sysDup (p : Nat) (fd : Option Nat) (s : State) : Except Err (Int × State) :=
  match argfd p fd s with
  | none => .ok (-1, s)
  | some (_, f) =>
    match fdalloc p f s with
    | (none, s) => .ok (-1, s)
    | (some fd, s) => do
        let s ← filedup f s
        .ok (fd, s)

def sysClose (p : Nat) (fd : Option Nat) (s : State) : Except Err (Int × State) :=
  match argfd p fd s with
  | none => .ok (-1, s)
  | some (fd, f) => do
      let s ← fileclose f (setFd (p, fd) none s)
      .ok (0, s)

/-- `pipealloc`, with its end after `bad`. -/
def pipealloc (memory : Bool) (s : State) : Except Err (Option (Nat × Nat) × State) :=
  match filealloc s with
  | (none, s) => .ok (none, s)
  | (some f0, s) =>
    match filealloc s with
    | (none, s) => do
        let s ← fileclose f0 s
        .ok (none, s)
    | (some f1, s) =>
      if memory = false then do
        let s ← fileclose f0 s
        let s ← fileclose f1 s
        .ok (none, s)
      else
        let p := s.pipes
        let s := { s with pipes := p + 1 }
        let s := fill f0 { s.file f0 with
          type := .pipe, readable := true, writable := false, pipe := p } (.pipe p false) s
        let s := fill f1 { s.file f1 with
          type := .pipe, readable := false, writable := true, pipe := p } (.pipe p true) s
        .ok (some (f0, f1), s)

/-- Both files of a pipe that got no descriptors. -/
def closeBoth (rf wf : Nat) (s : State) : Except Err (Int × State) := do
  let s ← fileclose rf s
  let s ← fileclose wf s
  .ok (-1, s)

def sysPipe (p : Nat) (arg memory : Bool) (s : State) : Except Err (Int × State) :=
  if arg = false then .ok (-1, s)
  else do
    match ← pipealloc memory s with
    | (none, s) => .ok (-1, s)
    | (some (rf, wf), s) =>
      match fdalloc p rf s with
      | (none, s) => closeBoth rf wf s
      | (some fd0, s) =>
        match fdalloc p wf s with
        | (none, s) => closeBoth rf wf (setFd (p, fd0) none s)
        | (some _, s) => .ok (0, s)

/-- `if(curproc->ofile[i]) np->ofile[i] = filedup(curproc->ofile[i])`. -/
def dupFd (p q : Nat) (s : State) (i : Nat) : Except Err State :=
  match s.ofile (p, i) with
  | none => .ok s
  | some f => do
      let s ← filedup f s
      .ok (setFd (q, i) (some f) s)

/-- `fork`: `slot` is what `allocproc` has found, `memory` says whether `copyuvm` could
    copy the memory.  The answer stands for the child's pid. -/
def fork (p : Nat) (slot : Option Nat) (memory : Bool) (s : State) :
    Except Err (Int × State) :=
  match slot with
  | none => .ok (-1, s)
  | some q =>
    if q < NPROC ∧ s.live q = false ∧ memory = true then do
      let s ← (List.range NOFILE).foldlM (dupFd p q)
        { s with live := Function.update s.live q true }
      .ok (q, s)
    else .ok (-1, s)

/-- `if(curproc->ofile[fd])`: close it. -/
def closeFd (p : Nat) (s : State) (fd : Nat) : Except Err State :=
  match s.ofile (p, fd) with
  | none => .ok s
  | some f => do
      let s ← fileclose f s
      .ok (setFd (p, fd) none s)

/-- `exit`: close all open files.  The slot can be used again later. -/
def exit (p : Nat) (s : State) : Except Err (Int × State) := do
  let s ← (List.range NOFILE).foldlM (closeFd p) s
  .ok (0, { s with live := Function.update s.live p false })

inductive Call where
  | sysOpen (found : Option Nat) (omode : Nat)
  | sysDup (fd : Option Nat)
  | sysClose (fd : Option Nat)
  | sysPipe (arg memory : Bool)
  | fork (slot : Option Nat) (memory : Bool)
  | exit
  deriving DecidableEq, Repr

/-- A call of process `p`: what it returns and the state after it. -/
def call (p : Nat) (c : Call) (s : State) : Except Err (Int × State) :=
  match c with
  | .sysOpen found omode => sysOpen p found omode s
  | .sysDup fd => sysDup p fd s
  | .sysClose fd => sysClose p fd s
  | .sysPipe arg memory => sysPipe p arg memory s
  | .fork slot memory => fork p slot memory s
  | .exit => exit p s

def step (s : State) (a : Nat × Call) : Except Err State :=
  if a.1 < NPROC ∧ s.live a.1 = true then (·.2) <$> call a.1 a.2 s else .ok s

/-- The first process runs, no file is open. -/
def start : State where
  file _ := { ref := 0, type := .none, ip := 0, off := 0, readable := false, writable := false,
              pipe := 0, opening := 0 }
  ofile _ := none
  live p := decide (p = 0)
  pipes := 0
  opened := []
  released := []

/-! ## The statements -/

@[irreducible] def fds : Finset (Nat × Nat) := Finset.range NPROC ×ˢ Finset.range NOFILE

/-- The number of descriptors that point to file `f`. -/
def pointers (s : State) (f : Nat) : Nat := count fds s.ofile f

/-- What holds at a system-call boundary. -/
structure Counted (s : State) : Prop where
  ref   : ∀ f < NFILE, (s.file f).ref = pointers s f
  type  : ∀ f < NFILE, (s.file f).type = .none ↔ (s.file f).ref = 0
  obj   : ∀ f < NFILE, (s.file f).ref ≠ 0 → s.opened[(s.file f).opening]? = (s.file f).obj
  nodup : (s.released.map Prod.fst).Nodup
  same  : ∀ e ∈ s.released, s.opened[e.1]? = some e.2
  once  : ∀ n < s.opened.length, n ∈ s.released.map Prod.fst ↔
    ∀ f < NFILE, (s.file f).ref ≠ 0 → (s.file f).opening ≠ n

/-- The files and the descriptors are as they were. -/
structure Unchanged (s s' : State) : Prop where
  ref   : ∀ f < NFILE, (s'.file f).ref = (s.file f).ref
  type  : ∀ f < NFILE, (s'.file f).type = (s.file f).type
  ofile : s'.ofile = s.ofile

/-! ## The openings and the releases -/

/-- An open file carries the number of its opening, no two files the same one; an opening
    is released once, when no file carries it any more. -/
structure History (file : Nat → OpenFile) (opened : List Obj) (released : List (Nat × Obj)) :
    Prop where
  obj   : ∀ f < NFILE, ∀ o, (file f).obj = some o → opened[(file f).opening]? = some o
  inj   : ∀ f < NFILE, ∀ g < NFILE, (file f).obj ≠ none → (file g).obj ≠ none →
    (file f).opening = (file g).opening → f = g
  nodup : (released.map Prod.fst).Nodup
  same  : ∀ e ∈ released, opened[e.1]? = some e.2
  once  : ∀ n < opened.length, n ∈ released.map Prod.fst ↔
    ∀ f < NFILE, (file f).obj ≠ none → (file f).opening ≠ n

lemma obj_eq_none {f : OpenFile} : f.obj = none ↔ f.type = .none := by
  rw [OpenFile.obj]
  cases f.type <;> simp

section History

variable {file : Nat → OpenFile} {opened : List Obj} {released : List (Nat × Obj)} {f : Nat}
  {v : OpenFile} {o : Obj}

/-- The history does not see the reference counts. -/
lemma History.update (h : History file opened released) (hobj : v.obj = (file f).obj)
    (hv : v.obj ≠ none → v.opening = (file f).opening) :
    History (Function.update file f v) opened released := by
  obtain ⟨ho, hinj, hnodup, hsame, honce⟩ := h
  refine ⟨?_, ?_, hnodup, hsame, ?_⟩ <;> simp only [update_apply]
  · grind
  · grind
  · intro n hn
    refine (honce n hn).trans (forall₂_congr (fun g _ => ?_))
    grind

lemma History.opening_lt (h : History file opened released) (hf : f < NFILE)
    (hobj : (file f).obj ≠ none) : (file f).opening < opened.length := by
  obtain ⟨o, ho⟩ := Option.ne_none_iff_exists'.mp hobj
  exact (List.getElem?_eq_some_iff.mp (h.obj f hf o ho)).1

lemma History.fill (h : History file opened released) (hf : f < NFILE)
    (hnone : (file f).obj = none) (hobj : v.obj = some o) (hv : v.opening = opened.length) :
    History (Function.update file f v) (opened ++ [o]) released := by
  have hlt : ∀ g < NFILE, (file g).obj ≠ none → (file g).opening < opened.length :=
    fun g hg => h.opening_lt hg
  have hold : ∀ n o', opened[n]? = some o' → (opened ++ [o])[n]? = some o' := fun n o' hn => by
    rwa [List.getElem?_append_left (List.getElem?_eq_some_iff.mp hn).1]
  have hin : ∀ n ∈ released.map Prod.fst, n < opened.length := fun n hmem => by
    obtain ⟨e, he, rfl⟩ := List.mem_map.mp hmem
    exact (List.getElem?_eq_some_iff.mp (h.same e he)).1
  obtain ⟨ho, hinj, hnodup, hsame, honce⟩ := h
  refine ⟨?_, ?_, hnodup, fun e he => hold _ _ (hsame e he), fun n hn => ?_⟩ <;>
    simp only [update_apply]
  · grind
  · grind
  · by_cases hn' : n = opened.length
    · refine ⟨fun hmem => absurd (hin n hmem) (by omega), fun hall => ?_⟩
      exact absurd hv (by have := hall f hf; grind)
    · rw [List.length_append, List.length_singleton] at hn
      refine (honce n (by omega)).trans (forall₂_congr (fun g _ => ?_))
      grind

lemma History.release (h : History file opened released) (hf : f < NFILE)
    (hobj : (file f).obj = some o) (hv : v.obj = none) :
    History (Function.update file f v) opened (released ++ [((file f).opening, o)]) := by
  have hlater : (file f).opening ∉ released.map Prod.fst := fun hmem =>
    (h.once _ (h.opening_lt hf (by rw [hobj]; exact nofun))).mp hmem f hf (by rw [hobj]; exact nofun) rfl
  obtain ⟨ho, hinj, hnodup, hsame, honce⟩ := h
  refine ⟨?_, ?_, ?_, ?_, fun n hn => ?_⟩
  · simp only [update_apply]
    grind
  · simp only [update_apply]
    grind
  · rw [List.map_append]
    refine hnodup.append (nodup_cons.mpr ⟨not_mem_nil, nodup_nil⟩) ?_
    intro n hn hn'
    obtain rfl := List.mem_singleton.mp hn'
    exact hlater hn
  · grind
  · rw [List.map_append, List.mem_append, honce n hn]
    simp only [update_apply, List.map_singleton, List.mem_singleton]
    constructor
    · grind
    · intro hall
      by_cases hnf : n = (file f).opening
      · exact .inr hnf
      · refine .inl (fun g hg hg' => ?_)
        have := hall g hg
        grind

end History

/-! ## References between two statements -/

/-- Between two statements of a call: `held` are the references in the call's variables,
    `fresh` the files that `filealloc` has given and that have no type yet. -/
structure Own (held fresh : List Nat) (s : State) : Prop where
  ptr     : ∀ x f, s.ofile x = some f → x ∈ fds ∧ f < NFILE ∧ s.live x.1 = true
  lt      : ∀ f ∈ held, f < NFILE
  ref     : ∀ f < NFILE, (s.file f).ref = pointers s f + held.count f
  type    : ∀ f < NFILE, f ∉ fresh → ((s.file f).type = .none ↔ (s.file f).ref = 0)
  new     : ∀ f ∈ fresh, (s.file f).type = .none ∧ (s.file f).ref = 1
  nodup   : fresh.Nodup
  history : History s.file s.opened s.released

section Own

variable {s s' : State} {held fresh : List Nat} {f : Nat} {x : Nat × Nat}

lemma mem_fds {p fd : Nat} : (p, fd) ∈ fds ↔ p < NPROC ∧ fd < NOFILE := by
  unfold fds
  exact Finset.mem_product.trans (and_congr Finset.mem_range Finset.mem_range)

lemma setFile_file (g : Nat) (v : OpenFile) :
    (setFile f v s).file g = if g = f then v else s.file g := by
  show update s.file f v g = _
  rw [update_apply]

lemma setFd_back {v : Option Nat} (hx : s.ofile x = none) : setFd x none (setFd x v s) = s := by
  rw [setFd, setFd, Function.update_idem, ← hx, Function.update_eq_self]

lemma Own.lt_cons (h : Own held fresh s) (hf : f < NFILE) : ∀ g ∈ f :: held, g < NFILE := by
  intro g hg
  rcases mem_cons.mp hg with rfl | hg
  · exact hf
  · exact h.lt g hg

variable {v : OpenFile}

/-- A count goes up with a held reference. -/
lemma Own.ref_push (h : Own held fresh s) (hv : v.ref = (s.file f).ref + 1) :
    ∀ g < NFILE, ((setFile f v s).file g).ref
      = pointers (setFile f v s) g + (f :: held).count g := by
  intro g hg
  have := h.ref g hg
  rw [setFile_file, show pointers (setFile f v s) g = pointers s g from rfl]
  by_cases hgf : g = f
  · rw [if_pos hgf, hv, hgf, List.count_cons_self, h.ref f (hgf ▸ hg)]
    omega
  · rwa [if_neg hgf, List.count_cons_of_ne (Ne.symm hgf)]

lemma Own.ref_cons (h : Own (f :: held) fresh s) :
    (s.file f).ref = pointers s f + held.count f + 1 := by
  rw [h.ref f (h.lt f mem_cons_self), List.count_cons_self]
  omega

lemma Own.alloc (h : Own held fresh s) (hf : f < NFILE) (href : (s.file f).ref = 0) :
    Own (f :: held) (f :: fresh) (setFile f { s.file f with ref := 1 } s) := by
  have hnew : f ∉ fresh := fun hmem => by
    have := (h.new f hmem).2
    omega
  have htype := (h.type f hf hnew).mpr href
  refine ⟨h.ptr, h.lt_cons hf, h.ref_push (by rw [href]), fun g hg hfresh => ?_, fun g hg => ?_,
    nodup_cons.mpr ⟨hnew, h.nodup⟩, h.history.update rfl (fun _ => rfl)⟩
  · have hgf : g ≠ f := fun heq => hfresh (heq ▸ mem_cons_self)
    rw [setFile_file, if_neg hgf]
    exact h.type g hg (fun hmem => hfresh (mem_cons_of_mem _ hmem))
  · rw [setFile_file]
    split
    · exact ⟨htype, rfl⟩
    · next hgf =>
      exact h.new g ((mem_cons.mp hg).resolve_left hgf)

lemma Own.fill {o : Obj} (h : Own held (f :: fresh) s) (hf : f < NFILE)
    (hv : v.ref = (s.file f).ref) (hobj : v.obj = some o) : Own held fresh (fill f v o s) := by
  have hfile : (Ftable.fill f v o s).file
      = update s.file f { v with opening := s.opened.length } := rfl
  have hnew := h.new f mem_cons_self
  have hnot := (nodup_cons.mp h.nodup).1
  refine ⟨h.ptr, h.lt, fun g hg => ?_, fun g hg hfresh => ?_, fun g hg => ?_,
    (nodup_cons.mp h.nodup).2, h.history.fill hf (obj_eq_none.mpr hnew.1) hobj rfl⟩
  · rw [hfile, show pointers (Ftable.fill f v o s) g = pointers s g from rfl]
    by_cases hgf : g = f
    · rw [hgf, update_self]
      exact hv.trans (h.ref f hf)
    · rw [update_of_ne hgf]
      exact h.ref g hg
  · rw [hfile]
    by_cases hgf : g = f
    · rw [hgf, update_self]
      show v.type = .none ↔ v.ref = 0
      rw [hv, hnew.2, ← obj_eq_none, hobj]
      exact ⟨nofun, nofun⟩
    · rw [update_of_ne hgf]
      exact h.type g hg (fun hmem => (mem_cons.mp hmem).elim hgf hfresh)
  · have hgf : g ≠ f := fun heq => hnot (heq ▸ hg)
    rw [hfile, update_of_ne hgf]
    exact h.new g (mem_cons_of_mem _ hg)

lemma Own.give (h : Own (f :: held) fresh s) (hx : x ∈ fds) (hfree : s.ofile x = none)
    (hlive : s.live x.1 = true) : Own held fresh (setFd x (some f) s) := by
  refine ⟨fun y g hg => ?_, fun g hg => h.lt g (mem_cons_of_mem _ hg), fun g hg => ?_,
    h.type, h.new, h.nodup, h.history⟩
  · by_cases hy : y = x
    · rw [hy] at hg ⊢
      rw [show (setFd x (some f) s).ofile x = some f from update_self ..] at hg
      obtain rfl := Option.some.inj hg
      exact ⟨hx, h.lt f mem_cons_self, hlive⟩
    · rw [show (setFd x (some f) s).ofile y = s.ofile y from update_of_ne hy ..] at hg
      exact h.ptr y g hg
  · have hcount := count_update hx (g := s.ofile) (some f) g
    have href := h.ref g hg
    rw [hfree, if_neg (nofun : ¬(none = some g))] at hcount
    rw [List.count_cons] at href
    show (s.file g).ref = count fds (update s.ofile x (some f)) g + _
    by_cases hgf : f = g
    · rw [if_pos (by rw [hgf])] at hcount
      rw [if_pos (beq_iff_eq.mpr hgf)] at href
      rw [href, pointers]
      omega
    rw [if_neg (fun heq => hgf (Option.some.inj heq))] at hcount
    rw [if_neg (fun heq => hgf (beq_iff_eq.mp heq))] at href
    rw [href, pointers]
    omega

lemma Own.take (h : Own held fresh s) (hx : s.ofile x = some f) :
    Own (f :: held) fresh (setFd x none s) := by
  obtain ⟨hmem, hf, hlive⟩ := h.ptr x f hx
  refine ⟨fun y g hg => ?_, h.lt_cons hf, fun g hg => ?_, h.type, h.new, h.nodup, h.history⟩
  · by_cases hy : y = x
    · rw [hy, show (setFd x none s).ofile x = none from update_self ..] at hg
      exact nomatch hg
    · rw [show (setFd x none s).ofile y = s.ofile y from update_of_ne hy ..] at hg
      exact h.ptr y g hg
  · have hcount := count_update hmem (g := s.ofile) none g
    have href := h.ref g hg
    rw [hx, if_neg (nofun : ¬(none = some g))] at hcount
    rw [List.count_cons]
    show (s.file g).ref = count fds (update s.ofile x none) g + _
    by_cases hgf : f = g
    · rw [if_pos (by rw [hgf])] at hcount
      rw [if_pos (beq_iff_eq.mpr hgf), href, pointers]
      omega
    rw [if_neg (fun heq => hgf (Option.some.inj heq))] at hcount
    rw [if_neg (fun heq => hgf (beq_iff_eq.mp heq)), href, pointers]
    omega

lemma Own.dup (h : Own held [] s) (hf : f < NFILE) (href : 0 < (s.file f).ref) :
    Own (f :: held) [] (setFile f { s.file f with ref := (s.file f).ref + 1 } s) := by
  refine ⟨h.ptr, h.lt_cons hf, h.ref_push rfl, fun g hg hfresh => ?_, nofun, h.nodup,
    h.history.update rfl (fun _ => rfl)⟩
  · rw [setFile_file]
    by_cases hgf : g = f
    · subst hgf
      rw [if_pos rfl]
      show (s.file g).type = .none ↔ (s.file g).ref + 1 = 0
      rw [h.type g hg hfresh]
      omega
    · rw [if_neg hgf]
      exact h.type g hg hfresh

/-- What a call has done so far to a table `s` in which it has opened `held`: the files
    that were in use and the descriptors are as they were. -/
structure Since (s : State) (held : List Nat) (s' : State) : Prop where
  file  : ∀ f, (s.file f).ref ≠ 0 → s'.file f = s.file f
  held  : ∀ f ∈ held, (s.file f).ref = 0
  ofile : s'.ofile = s.ofile
  live  : s'.live = s.live

lemma Since.refl (s : State) : Since s [] s := ⟨fun _ _ => rfl, nofun, rfl, rfl⟩

variable {s₀ : State}

/-- Files that the call has opened may change. -/
lemma Since.setFile (h : Since s₀ held s)
    (hf : (s₀.file f).ref = 0) : Since s₀ held (setFile f v s) := by
  refine ⟨fun g hg => ?_, h.held, h.ofile, h.live⟩
  have hne : g ≠ f := fun heq => hg (heq ▸ hf)
  rw [setFile_file, if_neg hne]
  exact h.file g hg

lemma Since.fill {o : Obj} (h : Since s₀ held s) (hf : f ∈ held) :
    Since s₀ held (Ftable.fill f v o s) := by
  have h' := h.setFile (v := { v with opening := s.opened.length }) (h.held f hf)
  exact ⟨h'.file, h'.held, h'.ofile, h'.live⟩

lemma Since.setPipes (h : Since s₀ held s) (n : Nat) :
    Since s₀ held { s with pipes := n } := ⟨h.file, h.held, h.ofile, h.live⟩

lemma Since.alloc (h : Since s₀ held s)
    (href : (s.file f).ref = 0) : Since s₀ (f :: held) (Ftable.setFile f v s) := by
  have hf : (s₀.file f).ref = 0 := by
    by_contra hne
    exact hne (h.file f hne ▸ href)
  have h' := h.setFile (v := v) hf
  refine ⟨h'.file, fun g hg => ?_, h'.ofile, h'.live⟩
  rcases mem_cons.mp hg with rfl | hg
  · exact hf
  · exact h.held g hg

lemma filealloc_cases (s : State) : filealloc s = (none, s) ∨ ∃ f < NFILE, (s.file f).ref = 0 ∧
      filealloc s = (some f, setFile f { s.file f with ref := 1 } s) := by
  rw [filealloc]
  cases hfirst : firstFrom (fun f => decide ((s.file f).ref = 0)) NFILE 0 with
  | none => exact .inl rfl
  | some f =>
    obtain ⟨-, hlt, hp⟩ := firstFrom_some hfirst
    exact .inr ⟨f, by omega, of_decide_eq_true hp, rfl⟩

lemma fdalloc_cases (p f : Nat) (s : State) : fdalloc p f s = (none, s) ∨
    ∃ fd < NOFILE, s.ofile (p, fd) = none ∧
      fdalloc p f s = (some fd, setFd (p, fd) (some f) s) := by
  rw [fdalloc]
  cases hfirst : firstFrom (fun fd => decide (s.ofile (p, fd) = none)) NOFILE 0 with
  | none => exact .inl rfl
  | some fd =>
    obtain ⟨-, hlt, hp⟩ := firstFrom_some hfirst
    exact .inr ⟨fd, by omega, of_decide_eq_true hp, rfl⟩

lemma Own.swap {a b : Nat} (h : Own (a :: b :: held) (a :: b :: fresh) s) :
    Own (b :: a :: held) (b :: a :: fresh) s := by
  have hperm : ∀ l : List Nat, (b :: a :: l).Perm (a :: b :: l) := fun l => List.Perm.swap a b l
  refine ⟨h.ptr, fun g hg => h.lt g ((hperm held).mem_iff.mp hg), fun g hg => ?_,
    fun g hg hfresh => h.type g hg (fun hmem => hfresh ((hperm fresh).mem_iff.mpr hmem)),
    fun g hg => h.new g ((hperm fresh).mem_iff.mp hg), (hperm fresh).nodup_iff.mpr h.nodup,
    h.history⟩
  rw [(hperm held).count_eq g]
  exact h.ref g hg

lemma Own.setPipes (h : Own held fresh s) (n : Nat) : Own held fresh { s with pipes := n } :=
  ⟨h.ptr, h.lt, h.ref, h.type, h.new, h.nodup, h.history⟩

lemma Own.last (h : Own (f :: held) fresh s) (href : (s.file f).ref = 1) : Own held (fresh.erase f)
      (release (s.file f) (setFile f { s.file f with ref := 0, type := .none } s)) := by
  have hf := h.lt f mem_cons_self
  have hcons := h.ref_cons
  have hfile : (release (s.file f) (setFile f { s.file f with ref := 0, type := .none } s)).file
        = update s.file f { s.file f with ref := 0, type := .none } ∧
      (release (s.file f) (setFile f { s.file f with ref := 0, type := .none } s)).ofile = s.ofile ∧
      (release (s.file f) (setFile f { s.file f with ref := 0, type := .none } s)).live
        = s.live := by
    rw [release]
    cases (s.file f).obj <;> exact ⟨rfl, rfl, rfl⟩
  generalize hs' : release (s.file f) (setFile f { s.file f with ref := 0, type := .none } s) = s'
    at hfile
  obtain ⟨hfile, hofile, hlive⟩ := hfile
  refine ⟨?_, fun g hg => h.lt g (mem_cons_of_mem _ hg), fun g hg => ?_,
    fun g hg hfresh => ?_, fun g hg => ?_, h.nodup.erase f, ?_⟩
  · rw [hofile, hlive]
    exact h.ptr
  · have := h.ref g hg
    rw [hfile, show pointers s' g = pointers s g by rw [pointers, hofile, pointers]]
    by_cases hgf : g = f
    · rw [hgf, update_self]
      show 0 = _
      omega
    · rw [update_of_ne hgf, this, List.count_cons_of_ne (Ne.symm hgf)]
  · rw [hfile]
    by_cases hgf : g = f
    · rw [hgf, update_self]
      exact ⟨fun _ => rfl, fun _ => rfl⟩
    · rw [update_of_ne hgf]
      exact h.type g hg (fun hmem => hfresh ((List.mem_erase_of_ne hgf).mpr hmem))
  · obtain ⟨hgf, hmem⟩ := h.nodup.mem_erase_iff.mp hg
    rw [hfile, update_of_ne hgf]
    exact h.new g hmem
  · rw [← hs', release]
    cases hobj : (s.file f).obj with
    | none => exact h.history.update (by rw [hobj]; rfl) (fun hne => absurd rfl hne)
    | some o => exact h.history.release hf hobj rfl

lemma Own.fileclose (h : Own (f :: held) fresh s) : ∃ s', fileclose f s = .ok s' ∧
    Own held (fresh.erase f) s' ∧ s'.ofile = s.ofile ∧ s'.live = s.live ∧
    ∀ g ≠ f, s'.file g = s.file g := by
  have hcons := h.ref_cons
  have hf := h.lt f mem_cons_self
  rw [Ftable.fileclose, if_neg (by omega)]
  split
  · -- the file has another reference, so it is not a fresh one
    have hnew : f ∉ fresh := fun hmem => by
      have := (h.new f hmem).2
      omega
    refine ⟨_, rfl, ⟨h.ptr, fun g hg => h.lt g (mem_cons_of_mem _ hg), fun g hg => ?_,
      fun g hg hfresh => ?_, fun g hg => ?_, h.nodup.erase f,
      h.history.update rfl (fun _ => rfl)⟩, rfl, rfl, fun g hg => ?_⟩
    · have := h.ref g hg
      rw [setFile_file, show pointers (Ftable.setFile f _ s) g = pointers s g from rfl]
      by_cases hgf : g = f
      · rw [if_pos hgf, hgf]
        show (s.file f).ref - 1 = _
        omega
      · rw [if_neg hgf, this, List.count_cons_of_ne (Ne.symm hgf)]
    · rw [List.erase_of_not_mem hnew] at hfresh
      rw [setFile_file]
      split
      · show (s.file f).type = .none ↔ (s.file f).ref - 1 = 0
        rw [h.type f hf hnew]
        omega
      · exact h.type g hg hfresh
    · rw [List.erase_of_not_mem hnew] at hg
      have hne : g ≠ f := fun heq => hnew (heq ▸ hg)
      rw [setFile_file, if_neg hne]
      exact h.new g hg
    · rw [setFile_file, if_neg hg]
  · refine ⟨_, rfl, h.last (by omega), ?_⟩
    rw [release]
    cases (s.file f).obj with
    | none => exact ⟨rfl, rfl, fun g hg => by rw [setFile_file, if_neg hg]⟩
    | some o => exact ⟨rfl, rfl, fun g hg => update_of_ne hg ..⟩

lemma Since.close (h : Since s₀ (f :: held) s) (hofile : s'.ofile = s.ofile)
    (hlive : s'.live = s.live) (hfile : ∀ g ≠ f, s'.file g = s.file g) : Since s₀ held s' := by
  refine ⟨fun g hg => ?_, fun g hg => h.held g (mem_cons_of_mem _ hg), by rw [hofile, h.ofile],
    by rw [hlive, h.live]⟩
  rw [hfile g (fun heq => hg (heq ▸ h.held f mem_cons_self))]
  exact h.file g hg

/-- When nothing is held any more, the counts and types follow from the descriptors. -/
lemma Since.unchanged (h : Since s [] s') (h₀ : Own [] [] s) (h₁ : Own [] [] s') :
    Unchanged s s' := by
  have hpointers : ∀ f, pointers s' f = pointers s f := fun f => by
    rw [pointers, h.ofile, pointers]
  have href : ∀ f < NFILE, (s'.file f).ref = (s.file f).ref := fun f hf => by
    rw [h₁.ref f hf, h₀.ref f hf, hpointers]
  refine ⟨href, fun f hf => ?_, h.ofile⟩
  by_cases hzero : (s.file f).ref = 0
  · rw [(h₀.type f hf not_mem_nil).mpr hzero,
      (h₁.type f hf not_mem_nil).mpr (by rw [href f hf, hzero])]
  · rw [h.file f hzero]

end Own

/-! ## One call -/

/-- What a call leaves behind. -/
def Done (s : State) (r : Int × State) : Prop := Own [] [] r.2 ∧ (r.1 = -1 → Unchanged s r.2)

section Calls

variable {s : State} {p : Nat}

lemma Unchanged.refl (s : State) : Unchanged s s := ⟨fun _ _ => rfl, fun _ _ => rfl, rfl⟩

/-- A call that fails before it has changed anything. -/
lemma Own.fails (h : Own [] [] s) : Done s (-1, s) := ⟨h, fun _ => Unchanged.refl s⟩

lemma Own.returns {s' : State} (h : Own [] [] s') (n : Nat) : Done s (n, s') :=
  ⟨h, fun (hn : (n : Int) = -1) => absurd hn (by omega)⟩

lemma sysOpen_own (h : Own [] [] s) (hp : p < NPROC) (hlive : s.live p = true)
    (found : Option Nat) (omode : Nat) :
    Sat (sysOpen p found omode s) (Done s) (fun _ => False) := by
  cases found with
  | none => exact h.fails
  | some ip =>
    rw [sysOpen]
    rcases filealloc_cases s with heq | ⟨f, hf, href, heq⟩
    · rw [heq]
      exact h.fails
    rw [heq]
    dsimp only
    have h1 := h.alloc hf href
    have hsince := (Since.refl s).alloc (v := { s.file f with ref := 1 }) href
    generalize setFile f { s.file f with ref := 1 } s = s1 at h1 hsince
    rcases fdalloc_cases p f s1 with heq | ⟨fd, hfd, hfree, heq⟩
    · rw [heq]
      obtain ⟨s2, hclose, h2, hofile, hlive2, hfile⟩ := h1.fileclose
      rw [List.erase_cons_head] at h2
      dsimp only
      rw [hclose, ok_bind]
      exact ⟨h2, fun _ => (hsince.close hofile hlive2 hfile).unchanged h h2⟩
    · rw [heq]
      have h2 := h1.give (mem_fds.mpr ⟨hp, hfd⟩) hfree (by rw [hsince.live]; exact hlive)
      refine Own.returns ?_ fd
      exact h2.fill hf rfl rfl

lemma argfd_some {fd : Option Nat} {r : Nat × Nat} (h : argfd p fd s = some r) :
    s.ofile (p, r.1) = some r.2 := by
  rw [argfd.eq_def] at h
  cases fd with
  | none => exact nomatch h
  | some fd =>
    dsimp only at h
    split at h
    · exact nomatch h
    · obtain ⟨f, hf, rfl⟩ := Option.map_eq_some_iff.mp h
      exact hf

lemma Own.ref_pos {x : Nat × Nat} {f : Nat} (h : Own [] [] s) (hx : s.ofile x = some f) :
    0 < (s.file f).ref := by
  obtain ⟨hmem, hf, -⟩ := h.ptr x f hx
  have := count_pos hmem hx
  rw [h.ref f hf, pointers]
  omega

/-- The two steps of `sys_dup` and of the loop of `fork`, in either order. -/
lemma Own.dup_give {x y : Nat × Nat} {f : Nat} (h : Own [] [] s) (hx : s.ofile x = some f)
    (hy : y ∈ fds) (hfree : s.ofile y = none) (hlive : s.live y.1 = true) :
    Own [] [] (setFd y (some f) (setFile f { s.file f with ref := (s.file f).ref + 1 } s)) :=
  (h.dup (h.ptr x f hx).2.1 (h.ref_pos hx)).give hy hfree hlive

lemma sysDup_own (h : Own [] [] s) (hp : p < NPROC) (hlive : s.live p = true)
    (fd : Option Nat) : Sat (sysDup p fd s) (Done s) (fun _ => False) := by
  rw [sysDup]
  cases harg : argfd p fd s with
  | none => exact h.fails
  | some r =>
    obtain ⟨fd', f⟩ := r
    have hx : s.ofile (p, fd') = some f := argfd_some harg
    dsimp only
    rcases fdalloc_cases p f s with heq | ⟨fd, hfd, hfree, heq⟩
    · rw [heq]
      exact h.fails
    rw [heq]
    have hpos := h.ref_pos hx
    have h' := h.dup_give hx (mem_fds.mpr ⟨hp, hfd⟩) hfree hlive
    have hdup : filedup f (setFd (p, fd) (some f) s) = .ok (setFd (p, fd) (some f)
        (setFile f { s.file f with ref := (s.file f).ref + 1 } s)) := if_neg (by
      show ¬(s.file f).ref < 1
      omega)
    dsimp only
    rw [hdup, ok_bind]
    exact Own.returns h' fd

lemma sysClose_own (h : Own [] [] s) (fd : Option Nat) :
    Sat (sysClose p fd s) (Done s) (fun _ => False) := by
  rw [sysClose]
  cases harg : argfd p fd s with
  | none => exact h.fails
  | some r =>
    obtain ⟨fd', f⟩ := r
    obtain ⟨s', hclose, h', -⟩ := (h.take (argfd_some harg)).fileclose
    dsimp only
    rw [hclose, ok_bind]
    exact Own.returns h' 0

lemma pipealloc_own (h : Own [] [] s) (memory : Bool) :
    Sat (pipealloc memory s) (fun r => match r with
      | (none, s') => Own [] [] s' ∧ Since s [] s'
      | (some (f0, f1), s') => Own [f0, f1] [] s' ∧ Since s [f0, f1] s') (fun _ => False) := by
  rw [pipealloc]
  rcases filealloc_cases s with heq | ⟨f0, hf0, href0, heq⟩
  · rw [heq]
    exact ⟨h, Since.refl s⟩
  rw [heq]
  dsimp only
  have h1 := h.alloc hf0 href0
  have hsince1 := (Since.refl s).alloc (v := { s.file f0 with ref := 1 }) href0
  generalize setFile f0 { s.file f0 with ref := 1 } s = s1 at h1 hsince1
  rcases filealloc_cases s1 with heq | ⟨f1, hf1, href1, heq⟩
  · rw [heq]
    obtain ⟨s2, hclose, h2, hofile, hlive, hfile⟩ := h1.fileclose
    rw [List.erase_cons_head] at h2
    dsimp only
    rw [hclose, ok_bind]
    exact ⟨h2, hsince1.close hofile hlive hfile⟩
  rw [heq]
  dsimp only
  have h2 := h1.alloc hf1 href1
  have hsince2 := hsince1.alloc (v := { s1.file f1 with ref := 1 }) href1
  have hne : f1 ≠ f0 := fun heq => by
    have := (h1.new f0 mem_cons_self).2
    rw [heq] at href1
    omega
  generalize setFile f1 { s1.file f1 with ref := 1 } s1 = s2 at h2 hsince2
  replace h2 := h2.swap
  have hsince : Since s [f0, f1] s2 :=
    ⟨hsince2.file, fun g hg => hsince2.held g ((List.Perm.swap f1 f0 []).mem_iff.mp hg),
      hsince2.ofile, hsince2.live⟩
  cases memory with
  | false =>
    obtain ⟨s3, hclose3, h3, hofile3, hlive3, hfile3⟩ := h2.fileclose
    rw [List.erase_cons_head] at h3
    obtain ⟨s4, hclose4, h4, hofile4, hlive4, hfile4⟩ := h3.fileclose
    rw [List.erase_cons_head] at h4
    rw [if_pos rfl, hclose3, ok_bind, hclose4, ok_bind]
    exact ⟨h4, (hsince.close hofile3 hlive3 hfile3).close hofile4 hlive4 hfile4⟩
  | true =>
    -- `f0` gets its type first, then `f1`
    have h3 := (h2.setPipes (s2.pipes + 1)).fill (v := { s2.file f0 with
      type := .pipe, readable := true, writable := false, pipe := s2.pipes }) hf0 rfl rfl
    exact ⟨h3.fill hf1 rfl rfl, ((hsince.setPipes _).fill mem_cons_self).fill
      (mem_cons_of_mem _ mem_cons_self)⟩

lemma closeBoth_own {rf wf : Nat} {s₀ : State} (h₀ : Own [] [] s₀) (h : Own [rf, wf] [] s)
    (hsince : Since s₀ [rf, wf] s) : Sat (closeBoth rf wf s) (Done s₀) (fun _ => False) := by
  obtain ⟨s1, hclose1, h1, hofile1, hlive1, hfile1⟩ := h.fileclose
  obtain ⟨s2, hclose2, h2, hofile2, hlive2, hfile2⟩ := h1.fileclose
  rw [closeBoth, hclose1, ok_bind, hclose2, ok_bind]
  exact ⟨h2, fun _ => ((hsince.close hofile1 hlive1 hfile1).close hofile2 hlive2
    hfile2).unchanged h₀ h2⟩

lemma sysPipe_own (h : Own [] [] s) (hp : p < NPROC) (hlive : s.live p = true)
    (arg memory : Bool) : Sat (sysPipe p arg memory s) (Done s) (fun _ => False) := by
  cases arg with
  | false => exact h.fails
  | true =>
  rw [sysPipe, if_neg (nofun : ¬(true = false))]
  refine Sat.bind (pipealloc_own h memory) ?_
  rintro ⟨_ | ⟨rf, wf⟩, s1⟩ ⟨h1, hsince⟩
  · exact ⟨h1, fun _ => hsince.unchanged h h1⟩
  · have hlive1 : s1.live p = true := by rw [hsince.live, hlive]
    rcases fdalloc_cases p rf s1 with heq | ⟨fd0, hfd0, hfree0, heq⟩
    · dsimp only
      rw [heq]
      exact closeBoth_own h h1 hsince
    dsimp only
    rw [heq]
    dsimp only
    have h2 := h1.give (mem_fds.mpr ⟨hp, hfd0⟩) hfree0 hlive1
    rcases fdalloc_cases p wf (setFd (p, fd0) (some rf) s1) with heq | ⟨fd1, hfd1, hfree1, heq⟩
    · rw [heq]
      -- the first descriptor is taken back, so the tables are those before it
      dsimp only
      rw [setFd_back hfree0]
      exact closeBoth_own h h1 hsince
    · rw [heq]
      exact Own.returns (h2.give (mem_fds.mpr ⟨hp, hfd1⟩) hfree1 hlive1) 0

lemma dupFds_own {q : Nat} (hq : q < NPROC) : ∀ (l : List Nat) (s : State), l.Nodup →
    (∀ i ∈ l, i < NOFILE ∧ s.ofile (q, i) = none) → Own [] [] s → s.live q = true →
    Sat (l.foldlM (dupFd p q) s) (fun s' => Own [] [] s') (fun _ => False) := by
  intro l
  induction l with
  | nil => exact fun s _ _ h _ => h
  | cons i l ih =>
    intro s hnodup hfree h hlive
    obtain ⟨hi, hnodup⟩ := nodup_cons.mp hnodup
    obtain ⟨hlt, hnone⟩ := hfree i mem_cons_self
    have hrest : ∀ j ∈ l, j < NOFILE ∧ s.ofile (q, j) = none :=
      fun j hj => hfree j (mem_cons_of_mem _ hj)
    rw [List.foldlM_cons, dupFd]
    cases hf : s.ofile (p, i) with
    | none => exact ih s hnodup hrest h hlive
    | some f =>
      have hpos := h.ref_pos hf
      have hdup : filedup f s = .ok (setFile f { s.file f with
          ref := (s.file f).ref + 1 } s) := if_neg (by omega)
      dsimp only
      rw [hdup, ok_bind]
      refine ih _ hnodup (fun j hj => ⟨(hrest j hj).1, ?_⟩)
        (h.dup_give hf (mem_fds.mpr ⟨hq, hlt⟩) hnone hlive) hlive
      have hji : (q, j) ≠ (q, i) := fun heq => hi ((Prod.mk.inj heq).2 ▸ hj)
      exact (update_of_ne hji ..).trans (hrest j hj).2

lemma fork_own (h : Own [] [] s) (slot : Option Nat) (memory : Bool) :
    Sat (fork p slot memory s) (Done s) (fun _ => False) := by
  cases slot with
  | none => exact h.fails
  | some q =>
    rw [fork]
    split
    · next hq =>
      have hnone : ∀ i, s.ofile (q, i) = none := fun i => by
        by_contra hne
        obtain ⟨f, hf⟩ := Option.ne_none_iff_exists'.mp hne
        exact Bool.false_ne_true (hq.2.1 ▸ (h.ptr _ f hf).2.2)
      have hown : Own [] [] { s with live := update s.live q true } := by
        refine ⟨fun x f hx => ⟨(h.ptr x f hx).1, (h.ptr x f hx).2.1, ?_⟩, h.lt, h.ref, h.type,
          h.new, h.nodup, h.history⟩
        show update s.live q true x.1 = true
        rw [update_apply, (h.ptr x f hx).2.2, ite_self]
      refine Sat.bind (dupFds_own hq.1 _ _ List.nodup_range
        (fun i hi => ⟨List.mem_range.mp hi, hnone i⟩) hown (update_self ..)) ?_
      exact fun s' h' => Own.returns h' q
    · exact h.fails

lemma fileclose_setFd (f : Nat) (x : Nat × Nat) (v : Option Nat) (s : State) :
    fileclose f (setFd x v s) = (do
      let s ← fileclose f s
      .ok (setFd x v s)) := by
  have hfile : (setFd x v s).file = s.file := rfl
  rw [fileclose, fileclose, hfile]
  by_cases h1 : (s.file f).ref < 1
  · rw [if_pos h1, if_pos h1]
    rfl
  rw [if_neg h1, if_neg h1]
  by_cases h2 : 0 < (s.file f).ref - 1
  · rw [if_pos h2, if_pos h2]
    rfl
  · rw [if_neg h2, if_neg h2, release, release]
    cases (s.file f).obj <;> rfl

lemma closeFds_own : ∀ (l : List Nat) (s : State), Own [] [] s →
    Sat (l.foldlM (closeFd p) s) (fun s' => Own [] [] s' ∧ (∀ i ∈ l, s'.ofile (p, i) = none) ∧
      ∀ x, s.ofile x = none → s'.ofile x = none) (fun _ => False) := by
  intro l
  induction l with
  | nil => exact fun s h => ⟨h, nofun, fun _ hx => hx⟩
  | cons i l ih =>
    intro s h
    rw [List.foldlM_cons, closeFd]
    cases hf : s.ofile (p, i) with
    | none =>
      refine (ih s h).mono (fun s' h' => ⟨h'.1, fun j hj => ?_, h'.2.2⟩) (fun _ he => he)
      rcases mem_cons.mp hj with rfl | hj
      · exact h'.2.2 _ hf
      · exact h'.2.1 j hj
    | some f =>
      obtain ⟨s1, hclose, h1, hofile, -⟩ := (h.take hf).fileclose
      dsimp only
      rw [← fileclose_setFd, hclose, ok_bind]
      have hnone : ∀ x, s.ofile x = none ∨ x = (p, i) → s1.ofile x = none := fun x hx => by
        rw [hofile]
        show update s.ofile (p, i) none x = none
        rw [update_apply]
        by_cases heq : x = (p, i)
        · rw [if_pos heq]
        · rw [if_neg heq]
          exact hx.resolve_right heq
      refine (ih s1 h1).mono (fun s' h' => ⟨h'.1, fun j hj => ?_,
        fun x hx => h'.2.2 x (hnone x (.inl hx))⟩) (fun _ he => he)
      rcases mem_cons.mp hj with rfl | hj
      · exact h'.2.2 _ (hnone _ (.inr rfl))
      · exact h'.2.1 j hj

lemma exit_own (h : Own [] [] s) : Sat (exit p s) (Done s) (fun _ => False) := by
  refine Sat.bind (closeFds_own _ s h) (fun s' h' => ?_)
  obtain ⟨h', hnone, -⟩ := h'
  refine Own.returns (?_ : Own [] [] _) 0
  refine ⟨fun x f hx => ⟨(h'.ptr x f hx).1, (h'.ptr x f hx).2.1, ?_⟩, h'.lt, h'.ref, h'.type,
    h'.new, h'.nodup, h'.history⟩
  -- a descriptor of the process itself is closed
  obtain ⟨q, i⟩ := x
  have hqp : q ≠ p := fun heq => by
    have hi := (mem_fds.mp (h'.ptr _ f hx).1).2
    have := hnone i (List.mem_range.mpr hi)
    rw [heq] at hx
    exact nomatch this.symm.trans hx
  show update s'.live p false q = true
  rw [update_of_ne hqp]
  exact (h'.ptr _ f hx).2.2

lemma call_own (h : Own [] [] s) (hp : p < NPROC) (hlive : s.live p = true) (c : Call) :
    Sat (call p c s) (Done s) (fun _ => False) := by
  cases c with
  | sysOpen found omode => exact sysOpen_own h hp hlive found omode
  | sysDup fd => exact sysDup_own h hp hlive fd
  | sysClose fd => exact sysClose_own h fd
  | sysPipe arg memory => exact sysPipe_own h hp hlive arg memory
  | fork slot memory => exact fork_own h slot memory
  | exit => exact exit_own h

end Calls

/-! ## Runs -/

lemma start_own : Own [] [] start := by
  have hobj : ∀ f, (start.file f).obj = none := fun _ => rfl
  have hhistory : History start.file start.opened start.released :=
    ⟨fun f _ o ho => (nomatch (hobj f).symm.trans ho), fun f _ _ _ ho => absurd (hobj f) ho,
      nodup_nil, fun _ he => (not_mem_nil he).elim, fun _ hn => absurd hn (Nat.not_lt_zero _)⟩
  refine ⟨fun _ _ hx => (nomatch hx), fun _ hf => (not_mem_nil hf).elim, fun f _ => ?_,
    fun _ _ _ => ⟨fun _ => rfl, fun _ => rfl⟩, fun _ hf => (not_mem_nil hf).elim,
    nodup_nil, hhistory⟩
  exact (count_empty (D := fds)).symm

lemma step_own {s : State} (h : Own [] [] s) (a : Nat × Call) :
    Sat (step s a) (fun s' => Own [] [] s') (fun _ => False) := by
  rw [step]
  split
  · next ha =>
    exact Sat.map ((call_own h ha.1 ha.2 a.2).mono (fun _ hr => hr.1) (fun _ he => he))
  · exact h

lemma Own.counted {s : State} (h : Own [] [] s) : Counted s := by
  have hopen : ∀ f < NFILE, (s.file f).ref ≠ 0 ↔ (s.file f).obj ≠ none := fun f hf => by
    rw [Ne, Ne, obj_eq_none, h.type f hf not_mem_nil]
  refine ⟨fun f hf => h.ref f hf, fun f hf => h.type f hf not_mem_nil, fun f hf hne => ?_,
    h.history.nodup, h.history.same, fun n hn => (h.history.once n hn).trans ?_⟩
  · obtain ⟨o, ho⟩ := Option.ne_none_iff_exists'.mp ((hopen f hf).mp hne)
    rw [ho]
    exact h.history.obj f hf o ho
  · exact forall₂_congr (fun f hf => imp_congr_left (hopen f hf).symm)

/-- **File references.**  Every run of calls returns.  At its end `ref` counts the descriptors
    of all processes, a file has a type when it has a reference, and every opening is released
    once, when its file has no reference any more; a further call that fails leaves the files
    and the descriptors as they were. -/
theorem files_counted (as : List (Nat × Call)) : ∃ s, exec step as start = .ok s ∧ Counted s ∧
      ∀ p < NPROC, s.live p = true → ∀ c, ∃ r s', call p c s = .ok (r, s') ∧
        (r = -1 → Unchanged s s') := by
  have hrun := exec_sat (P := fun _ _ => True) (E := fun _ => False)
    (fun s a h _ => step_own h a) as start start_own (.of_forall (fun _ _ => trivial) ..)
  obtain ⟨s, hs, h⟩ := hrun.exists_ok
  refine ⟨s, hs, h.counted, fun p hp hlive c => ?_⟩
  obtain ⟨⟨r, s'⟩, hcall, hdone⟩ := (call_own h hp hlive c).exists_ok
  exact ⟨r, s', hcall, hdone.2⟩

/-- A process opens a file and a pipe, duplicates the file and forks; the child closes its end
    of the pipe and exits, the parent closes the file. -/
def openForkClose : List (Nat × Call) :=
  [(0, .sysOpen (some 7) 0), (0, .sysPipe true true), (0, .sysDup (some 0)),
   (0, .fork (some 1) true), (1, .sysClose (some 2)), (1, .exit), (0, .sysClose (some 0)),
   (0, .sysClose (some 2)), (0, .sysClose (some 3))]

/-- After it the inode reference and the writing end are released, the reading end is open. -/
theorem files_counted_openForkClose : ∃ s, exec step openForkClose start = .ok s ∧
    s.released = [(2, .pipe 0 true), (0, .inode 7)] ∧ (s.file 1).ref = 1 ∧ Counted s := by
  obtain ⟨s, hs, h, -⟩ := files_counted openForkClose
  have hrun : (exec step openForkClose start).map (fun s => (s.released, (s.file 1).ref))
      = .ok ([(2, .pipe 0 true), (0, .inode 7)], 1) := by decide +kernel
  rw [hs] at hrun
  obtain ⟨hreleased, href⟩ := ok_pair_inj hrun
  exact ⟨s, hs, hreleased, href, h⟩

/-! ## The kernel's sys_open -/

/-- The tables are those of the kernel's state. -/
structure Agrees (s : State) (k : Kernel.State) : Prop where
  file  : ∀ f, (s.file f).toFile = k.file f
  ofile : ∀ q fd, s.ofile (q, fd) = (k.proc q).ofile fd

section Kernel

variable {cfg : Config} {s : State} {k k' : Kernel.State}

lemma Agrees.of_rest {rest : Rest} (h : Agrees s k) (hk : k.rest = rest)
    (hk' : k'.file = rest.file) (hproc : k'.proc = rest.proc) : Agrees s k' := by
  subst hk
  exact ⟨fun f => by rw [h.file f, hk']; rfl, fun q fd => by rw [h.ofile q fd, hproc]; rfl⟩

variable {f : Nat} {v : OpenFile}

lemma Agrees.setFile (h : Agrees s k) {w : File} (hv : v.toFile = w) :
    Agrees (setFile f v s) (Kernel.setFile f w k) := by
  refine ⟨fun g => ?_, h.ofile⟩
  have := h.file g
  show (update s.file f v g).toFile = update k.file f w g
  by_cases hg : g = f <;> simp_all

lemma filealloc_agrees (h : Agrees s k) : Ret Kernel.filealloc k (fun r k' =>
    k'.cur = k.cur ∧ (filealloc s).1 = r ∧ Agrees (filealloc s).2 k') := by
  have hsame : (fun f => decide ((s.file f).ref = 0)) = fun f => decide ((k.file f).ref = 0) := by
    funext f
    rw [← h.file f]
  show Sat (match firstFrom (fun f => decide ((k.file f).ref = 0)) NFILE 0 with
    | none => .ok (none, k)
    | some f => .ok (some f, Kernel.setFile f { k.file f with ref := 1 } k)) _ _
  rw [filealloc, hsame]
  cases firstFrom (fun f => decide ((k.file f).ref = 0)) NFILE 0 with
  | none => exact ⟨rfl, rfl, h⟩
  | some f =>
    refine ⟨rfl, rfl, h.setFile ?_⟩
    rw [← h.file f]

lemma fdalloc_agrees (h : Agrees s k) (f : Nat) : Ret (Kernel.fdalloc f) k (fun r k' =>
    k'.cur = k.cur ∧ (fdalloc k.cur f s).1 = r ∧ Agrees (fdalloc k.cur f s).2 k') := by
  have hsame : (fun fd => decide (s.ofile (k.cur, fd) = none))
      = fun fd => decide ((k.proc k.cur).ofile fd = none) := by
    funext fd
    rw [← h.ofile]
  show Sat (match firstFrom (fun fd => decide ((k.proc k.cur).ofile fd = none)) NOFILE 0 with
    | none => .ok (none, k)
    | some fd => .ok (some fd, setProc { k.proc k.cur with
        ofile := update (k.proc k.cur).ofile fd (some f) } k)) _ _
  rw [fdalloc, hsame]
  cases firstFrom (fun fd => decide ((k.proc k.cur).ofile fd = none)) NOFILE 0 with
  | none => exact ⟨rfl, rfl, h⟩
  | some fd =>
    refine ⟨rfl, rfl, h.file, fun q fd' => ?_⟩
    show update s.ofile (k.cur, fd) (some f) (q, fd') = (update k.proc k.cur
      { k.proc k.cur with ofile := update (k.proc k.cur).ofile fd (some f) } q).ofile fd'
    have := h.ofile q fd'
    by_cases hq : q = k.cur <;> by_cases hfd : fd' = fd <;> simp_all

lemma fileclose_untyped (hf : s.file f = v) (href : v.ref = 1) (htype : v.type = .none) :
    fileclose f s = .ok (setFile f { v with ref := 0, type := .none } s) := by
  rw [fileclose, hf, if_neg (by omega), if_neg (by omega), release, obj_eq_none.mpr htype]

/-- A file and a descriptor, or the tables as `sys_open` leaves them when it fails. -/
lemma openFile_agrees (h : Agrees s k) (hfree : FreeFiles k.file) :
    Ret (Kernel.openFile cfg) k (fun r k' => match r with
      | none => ∃ s', Agrees s' k' ∧ ∀ ip omode, sysOpen k.cur (some ip) omode s = .ok (-1, s')
      | some (f, fd) => ∃ s1 s2, filealloc s = (some f, s1) ∧
          fdalloc k.cur f s1 = (some fd, s2) ∧ Agrees s2 k') := by
  refine SatS.bind (filealloc_agrees h) (fun r k1 h1 => ?_)
  obtain ⟨hcur1, hr1, h1⟩ := h1
  rcases filealloc_cases s with heq | ⟨f, hf, href, heq⟩
  · rw [heq] at hr1 h1
    subst hr1
    refine ⟨s, h1, fun ip omode => ?_⟩
    rw [sysOpen, heq]
  rw [heq] at hr1 h1
  subst hr1
  dsimp only
  refine SatS.bind (fdalloc_agrees h1 f) (fun r k2 h2 => ?_)
  obtain ⟨-, hr2, h2⟩ := h2
  rw [hcur1] at hr2 h2
  dsimp only at hr2 h2
  rcases fdalloc_cases k.cur f (setFile f { s.file f with ref := 1 } s) with
    heq2 | ⟨fd, -, -, heq2⟩
  · rw [heq2] at hr2 h2
    subst hr2
    -- the file is closed again and has nothing to give back
    have hfile : k2.file f = { k.file f with ref := 1 } := by
      rw [← h2.file f, setFile_file, if_pos rfl, ← h.file f]
    have htype : (k.file f).type = .none := hfree f hf (by rw [← h.file f]; exact href)
    show Sat (Kernel.fileclose cfg f k2 >>= _) _ _
    rw [Kernel.fileclose_new hfile rfl htype]
    refine ⟨_, h2.setFile (v := { s.file f with ref := 0, type := .none }) ?_, fun ip omode => ?_⟩
    · rw [← h.file f]
    · rw [sysOpen, heq]
      dsimp only
      rw [heq2]
      dsimp only
      have htype' : (s.file f).type = .none := (congrArg File.type (h.file f)).trans htype
      have hself : (setFile f { s.file f with ref := 1 } s).file f
          = { s.file f with ref := 1 } := by rw [setFile_file, if_pos rfl]
      rw [fileclose_untyped hself rfl htype', ok_bind]
  · rw [heq2] at hr2 h2
    subst hr2
    exact ⟨_, _, heq, heq2, h2⟩

end Kernel

end Ftable
