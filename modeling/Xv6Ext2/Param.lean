import Mathlib.Init

/-! # Constants that several files of the source share

    From param.h, mmu.h, memlayout.h and fs.h; a constant that only one file uses stands in
    the module of that file. -/

namespace Param

/-- The number of values of a `uint`. -/
def UINT : Nat := 0x100000000

/-! ## Param.h -/

/-- Open files per process. -/
def NOFILE : Nat := 16

/-- Maximum number of active i-nodes. -/
def NINODE : Nat := 50

/-- Device number of the file system root disk. -/
def ROOTDEV : Nat := 1

def EXT2DEV : Nat := 2

/-- Max exec arguments. -/
def MAXARG : Nat := 32

/-- Maximum number of blocks any FS op writes. -/
def MAXOPBLOCKS : Nat := 10

/-- Maximum number of data blocks in the on-disk log. -/
def LOGSIZE : Nat := MAXOPBLOCKS * 3

/-- Size of the file system in blocks. -/
def FSSIZE : Nat := 1000

/-! ## Mmu.h and memlayout.h -/

/-- Bytes mapped by a page. -/
def PGSIZE : Nat := 4096

/-- First kernel virtual address. -/
def KERNBASE : Nat := 0x80000000

/-- Root i-number (fs.h). -/
def ROOTINO : Nat := 1

def NEWLINE : UInt8 := 10

end Param
