import Xv6Ext2.BioProofs
import Xv6Ext2.ConsoleProofs
import Xv6Ext2.DirEmptyProofs
import Xv6Ext2.DirlinkStackProofs
import Xv6Ext2.Ext2IallocProofs
import Xv6Ext2.Ext2InodeSlotProofs
import Xv6Ext2.Ext2IoProofs
import Xv6Ext2.Ext2PersistProofs
import Xv6Ext2.Ext2RoundTripProofs
import Xv6Ext2.Ext2TruncProofs
import Xv6Ext2.FileTableProofs
import Xv6Ext2.WriteiLogProofs
import Xv6Ext2.GrepProofs
import Xv6Ext2.SysArgsProofs
import Xv6Ext2.IcacheRaceProofs
import Xv6Ext2.KillProofs
import Xv6Ext2.LockOrderProofs
import Xv6Ext2.LogCommitProofs
import Xv6Ext2.LogReservationProofs
import Xv6Ext2.MkfsFilesProofs
import Xv6Ext2.MkfsWritesProofs
import Xv6Ext2.PagesProofs
import Xv6Ext2.PipeProofs
import Xv6Ext2.SleepProofs
import Xv6Ext2.CopyMemoryProofs
import Xv6Ext2.MemmoveProofs
import Xv6Ext2.MpProofs
import Xv6Ext2.UmallocProofs
