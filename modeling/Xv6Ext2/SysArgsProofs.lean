import Xv6Ext2.VmProofs

/-! # The arguments of system calls

    `fetchint`, `fetchstr`, `argint`, `argptr` and `argstr` of `syscall.c`, and the part of
    each system call that fetches its arguments.  Stack pointer, arguments and sizes are any
    32-bit words and every sum is a 32-bit sum; `mem` is the memory as the process sees it.

    * `fetchint_spec`, `fetchstr_spec`, `argptr_spec` — what succeeds lies below `sz`: no sum
      of the checks wraps, because `sz` is at most `KERNBASE` and `argptr` refuses a
      negative size.
    * `handed p c` — the ranges of user memory that the call `c` is given.
    * `args_inside` — none of them reaches kernel memory. -/

namespace SysArgs

open ByteBlock Param

/-! ## The process and its memory -/

/-- `sizeof(struct stat)`. -/
def statSize : BitVec 32 := 20

/-- What the functions read of the current process: its size, the saved user stack pointer,
    its memory, and which descriptors are open. -/
structure Proc where
  sz    : BitVec 32
  esp   : BitVec 32
  mem   : Block
  ofile : Nat → Bool

def word (mem : Block) (addr : BitVec 32) : BitVec 32 := BitVec.ofNat 32 (getLE mem 4 addr.toNat)

structure Range where
  start : Nat
  size  : Nat
  deriving DecidableEq, Repr

def Range.Below (r : Range) (top : Nat) : Prop := r.start + r.size ≤ top

/-! ## Fetching -/

def fetchint (p : Proc) (addr : BitVec 32) : Option (BitVec 32) :=
  if addr ≥ p.sz ∨ addr + 4 > p.sz then none else some (word p.mem addr)

/-- The loop of `fetchstr` from `s` on, with `left` bytes before `ep`: the number of bytes to
    the first nul. -/
def strFrom (mem : Block) (s : Nat) : Nat → Option Nat
  | 0 => none
  | left + 1 => if mem s = 0 then some 0 else (strFrom mem (s + 1) left).map (· + 1)

/-- The length that `fetchstr` returns; `*pp` is `addr`. -/
def fetchstr (p : Proc) (addr : BitVec 32) : Option Nat :=
  if addr ≥ p.sz then none else strFrom p.mem addr.toNat (p.sz.toNat - addr.toNat)

/-- Where the `n`th argument is, `(myproc()->tf->esp) + 4 + 4*n`. -/
def argAddr (p : Proc) (n : BitVec 32) : BitVec 32 := p.esp + 4 + 4 * n

def argint (p : Proc) (n : BitVec 32) : Option (BitVec 32) := fetchint p (argAddr p n)

/-- The pointer that `argptr` stores in `*pp`. -/
def argptr (p : Proc) (n size : BitVec 32) : Option (BitVec 32) := do
  let i ← argint p n
  if size.toInt < 0 ∨ i ≥ p.sz ∨ i + size > p.sz then none else some i

/-- The pointer that `argstr` stores in `*pp` and the length that it returns. -/
def argstr (p : Proc) (n : BitVec 32) : Option (BitVec 32 × Nat) := do
  let addr ← argint p n
  let len ← fetchstr p addr
  return (addr, len)

def argfd (p : Proc) (n : BitVec 32) : Option Nat := do
  let fd ← argint p n
  if fd.toInt < 0 ∨ fd.toInt ≥ NOFILE ∨ p.ofile fd.toNat = false then none else some fd.toNat

/-! ## What a system call is handed -/

inductive Syscall where
  | fork | exit | wait | pipe | read | kill | exec | fstat | chdir | dup | getpid | sbrk
  | sleep | uptime | open | write | mknod | unlink | link | mkdir | close
  deriving DecidableEq, Repr

/-- A block of memory as a call gets it from `argptr`. -/
def ptrArg (p : Proc) (n size : BitVec 32) : Option (List Range) :=
  (argptr p n size).map fun a => [⟨a.toNat, size.toNat⟩]

/-- A string as a call gets it from `argstr`, its nul included. -/
def strArg (p : Proc) (n : BitVec 32) : Option (List Range) :=
  (argstr p n).map fun s => [⟨s.1.toNat, s.2 + 1⟩]

/-- The loop of `sys_exec` over `uargv` from element `i` on, `left` elements before `MAXARG`. -/
def execArgs (p : Proc) (uargv : BitVec 32) (i : Nat) : Nat → Option (List Range)
  | 0 => none
  | left + 1 => do
      let uarg ← fetchint p (uargv + 4 * BitVec.ofNat 32 i)
      if uarg = 0 then return []
      let len ← fetchstr p uarg
      let rest ← execArgs p uargv (i + 1) left
      return ⟨uarg.toNat, len + 1⟩ :: rest

/-- The ranges of user memory that the body of the call works on; `none` when the fetching of
    its arguments fails, and the call returns -1. -/
def handed (p : Proc) : Syscall → Option (List Range)
  | .fork | .exit | .wait | .getpid | .uptime => some []
  | .kill | .sbrk | .sleep => (argint p 0).map fun _ => []
  | .dup | .close => (argfd p 0).map fun _ => []
  | .pipe => ptrArg p 0 8
  | .read | .write => do
      let _ ← argfd p 0
      let n ← argint p 2
      ptrArg p 1 n
  | .fstat => do
      let _ ← argfd p 0
      ptrArg p 1 statSize
  | .unlink | .mkdir | .chdir => strArg p 0
  | .link => do
      let old ← strArg p 0
      let new ← strArg p 1
      return old ++ new
  | .open => do
      let path ← strArg p 0
      let _ ← argint p 1
      return path
  | .mknod => do
      let path ← strArg p 0
      let _ ← argint p 1
      let _ ← argint p 2
      return path
  | .exec => do
      let path ← strArg p 0
      let uargv ← argint p 1
      let args ← execArgs p uargv 0 MAXARG
      return path ++ args

/-! ## What succeeds lies below the size -/

section

variable {p : Proc} (hsz : p.sz.toNat ≤ KERNBASE)

include hsz

lemma fetchint_spec {addr v : BitVec 32} (h : fetchint p addr = some v) :
    addr.toNat + 4 ≤ p.sz.toNat ∧ v = word p.mem addr := by
  rw [fetchint, Option.ite_none_left_eq_some, not_or] at h
  obtain ⟨⟨hlt, hle⟩, hv⟩ := h
  rw [KERNBASE] at hsz
  refine ⟨?_, (Option.some.inj hv).symm⟩
  bv_omega

omit hsz in
lemma strFrom_spec {mem : Block} {s left len : Nat} (h : strFrom mem s left = some len) :
    len < left ∧ mem (s + len) = 0 ∧ ∀ k < len, mem (s + k) ≠ 0 := by
  induction left generalizing s len with
  | zero => exact absurd h (by simp [strFrom])
  | succ left ih =>
    rw [strFrom] at h
    by_cases h0 : mem s = 0
    · rw [if_pos h0] at h
      obtain rfl := Option.some.inj h
      exact ⟨by omega, h0, fun k hk => absurd hk (Nat.not_lt_zero k)⟩
    rw [if_neg h0, Option.map_eq_some_iff] at h
    obtain ⟨l, hl, rfl⟩ := h
    obtain ⟨hlt, hnul, hne⟩ := ih hl
    refine ⟨by omega, by rw [← hnul]; congr 1; omega, ?_⟩
    intro k hk
    cases k with
    | zero => exact h0
    | succ k =>
      rw [show s + (k + 1) = s + 1 + k by omega]
      exact hne k (by omega)

omit hsz in
/-- The string and its nul lie below the size, and the length is the distance to the first nul. -/
lemma fetchstr_spec {addr : BitVec 32} {len : Nat} (h : fetchstr p addr = some len) :
    addr.toNat + len < p.sz.toNat ∧ p.mem (addr.toNat + len) = 0 ∧
      ∀ k < len, p.mem (addr.toNat + k) ≠ 0 := by
  rw [fetchstr, Option.ite_none_left_eq_some] at h
  obtain ⟨hlen, hnul, hne⟩ := strFrom_spec h.2
  exact ⟨by omega, hnul, hne⟩

/-- The sum `(uint)i+size` of the check is the true sum: `i` is below `KERNBASE` and `size`
    is not negative, so that it is below `2^31` too. -/
lemma argptr_spec {n size a : BitVec 32} (h : argptr p n size = some a) :
    0 ≤ size.toInt ∧ a.toNat + size.toNat ≤ p.sz.toNat := by
  rw [argptr, Option.bind_eq_bind, Option.bind_eq_some_iff] at h
  obtain ⟨i, -, h⟩ := h
  rw [Option.ite_none_left_eq_some, not_or, not_or] at h
  obtain ⟨⟨hneg, hlt, hle⟩, hi⟩ := h
  obtain rfl := Option.some.inj hi
  rw [KERNBASE] at hsz
  have hpos : 2 * size.toNat < 2 ^ 32 := by
    rw [BitVec.toInt_eq_toNat_cond] at hneg
    by_contra hbig
    rw [if_neg hbig] at hneg
    have := size.isLt
    omega
  refine ⟨by omega, ?_⟩
  bv_omega

omit hsz in
lemma argint_of_argptr {n size a : BitVec 32} (h : argptr p n size = some a) :
    argint p n = some a := by
  rw [argptr, Option.bind_eq_bind, Option.bind_eq_some_iff] at h
  obtain ⟨i, hi, h⟩ := h
  rw [Option.ite_none_left_eq_some] at h
  rw [hi, h.2]

omit hsz in
lemma argstr_spec {n a : BitVec 32} {len : Nat} (h : argstr p n = some (a, len)) :
    argint p n = some a ∧ fetchstr p a = some len := by
  simp only [argstr, Option.bind_eq_bind, Option.bind_eq_some_iff, Option.pure_def,
    Option.some.injEq, Prod.mk.injEq] at h
  obtain ⟨b, hb, l, hl, rfl, rfl⟩ := h
  exact ⟨hb, hl⟩

/-! ## What a call is handed lies below the size -/

lemma ptrArg_below {n size : BitVec 32} {rs : List Range} (h : ptrArg p n size = some rs) :
    ∀ r ∈ rs, r.Below p.sz.toNat := by
  rw [ptrArg, Option.map_eq_some_iff] at h
  obtain ⟨a, ha, rfl⟩ := h
  intro r hr
  rw [List.mem_singleton.mp hr]
  exact (argptr_spec hsz ha).2

omit hsz in
lemma strArg_below {n : BitVec 32} {rs : List Range} (h : strArg p n = some rs) :
    ∀ r ∈ rs, r.Below p.sz.toNat := by
  rw [strArg, Option.map_eq_some_iff] at h
  obtain ⟨⟨a, len⟩, ha, rfl⟩ := h
  intro r hr
  rw [List.mem_singleton.mp hr]
  exact (fetchstr_spec (argstr_spec ha).2).1

omit hsz in
lemma execArgs_below {uargv : BitVec 32} {i left : Nat} {rs : List Range}
    (h : execArgs p uargv i left = some rs) : ∀ r ∈ rs, r.Below p.sz.toNat := by
  induction left generalizing i rs with
  | zero => exact absurd h (by simp [execArgs])
  | succ left ih =>
    rw [execArgs, Option.bind_eq_bind, Option.bind_eq_some_iff] at h
    obtain ⟨uarg, -, h⟩ := h
    split at h
    · obtain rfl := Option.some.inj h
      exact fun r hr => absurd hr List.not_mem_nil
    simp only [Option.pure_def, Option.bind_eq_bind, Option.bind_eq_some_iff,
      Option.some.injEq] at h
    obtain ⟨len, hlen, rest, hrest, rfl⟩ := h
    intro r hr
    rcases List.mem_cons.mp hr with rfl | hr
    · exact (fetchstr_spec hlen).1
    · exact ih hrest r hr

/-- Every range that a call works on lies below the size. -/
lemma handed_below {c : Syscall} {rs : List Range} (h : handed p c = some rs) :
    ∀ r ∈ rs, r.Below p.sz.toNat := by
  cases c <;>
    simp only [handed, Option.map_eq_some_iff, Option.bind_eq_bind, Option.bind_eq_some_iff,
      Option.pure_def, Option.some.injEq] at h
  case fork | exit | wait | getpid | uptime =>
    obtain rfl := h
    exact fun r hr => absurd hr List.not_mem_nil
  case kill | sbrk | sleep | dup | close =>
    obtain ⟨_, -, rfl⟩ := h
    exact fun r hr => absurd hr List.not_mem_nil
  case pipe => exact ptrArg_below hsz h
  case read | write =>
    obtain ⟨_, -, n, -, h⟩ := h
    exact ptrArg_below hsz h
  case fstat =>
    obtain ⟨_, -, h⟩ := h
    exact ptrArg_below hsz h
  case unlink | mkdir | chdir => exact strArg_below h
  case link =>
    obtain ⟨old, hold, new, hnew, rfl⟩ := h
    intro r hr
    rcases List.mem_append.mp hr with hr | hr
    · exact strArg_below hold r hr
    · exact strArg_below hnew r hr
  case «open» =>
    obtain ⟨path, hpath, _, -, rfl⟩ := h
    exact strArg_below hpath
  case mknod =>
    obtain ⟨path, hpath, _, -, _, -, rfl⟩ := h
    exact strArg_below hpath
  case exec =>
    obtain ⟨path, hpath, uargv, -, args, hargs, rfl⟩ := h
    intro r hr
    rcases List.mem_append.mp hr with hr | hr
    · exact strArg_below hpath r hr
    · exact execArgs_below hargs r hr

end

/-- **Main result.** For every size up to `KERNBASE`, every stack pointer and every argument:
    an integer is read from four bytes below the size, a block that `argptr` lets through
    lies below the size without any wrap, a string that `argstr` lets through has its nul
    below the size and its length is the distance to the first one.  No system call is handed
    a range that reaches kernel memory. -/
theorem args_inside (p : Proc) (hsz : p.sz.toNat ≤ KERNBASE) : (∀ n v, argint p n = some v →
      (argAddr p n).toNat + 4 ≤ p.sz.toNat ∧ v = word p.mem (argAddr p n)) ∧
    (∀ n size a, argptr p n size = some a →
      argint p n = some a ∧ 0 ≤ size.toInt ∧ a.toNat + size.toNat ≤ p.sz.toNat) ∧
    (∀ n a len, argstr p n = some (a, len) →
      argint p n = some a ∧ a.toNat + len < p.sz.toNat ∧ p.mem (a.toNat + len) = 0 ∧
        ∀ k < len, p.mem (a.toNat + k) ≠ 0) ∧
    (∀ c rs, handed p c = some rs → ∀ r ∈ rs, r.Below p.sz.toNat ∧ r.Below KERNBASE) := by
  refine ⟨fun n v h => fetchint_spec hsz h, fun n size a h => ?_, fun n a len h => ?_, ?_⟩
  · exact ⟨argint_of_argptr h, argptr_spec hsz h⟩
  · obtain ⟨ha, hlen⟩ := argstr_spec h
    exact ⟨ha, fetchstr_spec hlen⟩
  · intro c rs h r hr
    have hb := handed_below hsz h r hr
    exact ⟨hb, Nat.le_trans hb hsz⟩

/-- A process of one page whose stack holds, from 4000 on, a return address, a descriptor, a
    pointer to the string at 100 and a count. -/
def onePage : Proc where
  sz    := 4096
  esp   := 4000
  mem k := if k = 100 then 97 else if k = 4008 then 100 else if k = 4012 then 2 else 0
  ofile := fun fd => fd == 0

/-- The write of two bytes and the opening of `a` go through, at ranges inside the page. -/
theorem args_inside_onePage : argstr onePage 1 = some (100, 1) ∧
    handed onePage .write = some [⟨100, 2⟩] ∧ (⟨100, 2⟩ : Range).Below KERNBASE := by
  have hwrite : handed onePage .write = some [⟨100, 2⟩] := by decide +kernel
  obtain ⟨-, -, -, hall⟩ := args_inside onePage (by decide)
  exact ⟨by decide +kernel, hwrite, (hall .write _ hwrite _ (List.mem_singleton_self _)).2⟩

end SysArgs
