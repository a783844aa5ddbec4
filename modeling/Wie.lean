import Wie.Lib.Word
import Wie.Lib.OrdMap
import Wie.Lib.Extents
import Wie.Lib.Reach
import Wie.Lib.Argv
import Wie.Lib.Bank
import Wie.Mem.Protect
import Wie.Mem.PageMap
import Wie.Mem.PageRuns
import Wie.Mem.PageTable
import Wie.Mem.Vad
import Wie.Mem.Host
import Wie.Mem.Arena
import Wie.Mem.Translate
import Wie.Mem.Guest
import Wie.Mem.Access
import Wie.Mem.Mapping
import Wie.Mem.HostProtect
import Wie.Mem.Change
import Wie.Mem.Lockstep
import Wie.Mem.Sealing
import Wie.Mem.FlatStore
import Wie.Mem.ZeroFill
import Wie.Mem.Transact
import Wie.Mem.Pins
import Wie.Mem.Generation
import Wie.Jit.Ctx
import Wie.Jit.Stub
import Wie.Jit.Chain
import Wie.Jit.ChainLoss
import Wie.Lib.Bytes
import Wie.Lib.Leb128
import Wie.Eh.VirtualUnwind
import Wie.Eh.Prologue
import Wie.Eh.Undo
import Wie.Eh.PrologueRun
import Wie.Eh.UnwindLayout
import Wie.Eh.UnwindInverts
import Wie.Eh.EntryScan
import Wie.Eh.UnwindFails
import Wie.Eh.Lsda
import Wie.Eh.LsdaLayout
import Wie.Eh.LsdaSearch
import Wie.Eh.Encoded
import Wie.Eh.LsdaShifts
import Wie.Eh.UnwindEnds
import Wie.Eh.Dispatch
import Wie.Eh.DispatchRun
import Wie.Mem.Fetch
import Wie.Jit.Insn
import Wie.Jit.Decode
import Wie.Jit.DecodeRun
import Wie.Lib.Flat
import Wie.Mem.FlatView
import Wie.Winapi.Engine
import Wie.Winapi.Thread
import Wie.Winapi.ThreadEnd
import Wie.Winapi.CriticalSection
import Wie.Winapi.Tls
import Wie.Winapi.Fls
import Wie.Winapi.SyncObj
import Wie.Winapi.WaitRun
import Wie.Winapi.Waits
import Wie.Winapi.MultiWait
import Wie.Lib.Blocks
import Wie.Winapi.GuestHeap
import Wie.Lib.Linked
import Wie.Winapi.CoherentHeap
import Wie.Winapi.CreateThread
import Wie.Lib.ByteFile
import Wie.Winapi.OpenFile
import Wie.Winapi.PlainFile
import Wie.Winapi.GuestTable
import Wie.Winapi.FileModes
import Wie.Winapi.GuestMirror
import Wie.Winapi.GuestIo
import Wie.Winapi.SlotPlace
import Wie.Winapi.OneCursor
import Wie.Lib.MemProg
import Wie.Cpu.Regs
import Wie.Cpu.Operand
import Wie.Cpu.Exchange
import Wie.Cpu.Locked
import Wie.Mem.HostSpan
import Wie.Cpu.Integer
import Wie.Cpu.Sse
import Wie.Cpu.StringOps
import Wie.Cpu.Exec
import Wie.Lib.Faults
import Wie.Cpu.Precise
import Wie.Cpu.Restart
import Wie.Lib.Probing
import Wie.Jit.ChainTable
import Wie.Eh.FunctionTable
import Wie.Lib.Text
import Wie.Winapi.GuestPath
import Wie.Jit.StubMatch
import Wie.Lib.Copying
import Wie.Lib.Iterate
import Wie.Cpu.FlatRun
import Wie.Cpu.StringElems
import Wie.Cpu.StringRuns
import Wie.Cpu.StringBulk
import Wie.Jit.InlineRep
import Wie.Lib.Patches
import Wie.Pe.Image
import Wie.Pe.CommandLine
import Wie.Pe.Program
import Wie.Pe.LoadedImage
import Wie.Pe.DirectLoad
import Wie.Winapi.Reloc
import Wie.Lib.LastPut
import Wie.Winapi.Exports
import Wie.Eh.MsvcCatch
import Wie.Eh.MsvcSelect
import Wie.Cpu.Width
import Wie.Cpu.SumFlags
import Wie.Cpu.Shifts
import Wie.Cpu.Division
import Wie.Mem.FirstFit
import Wie.Eh.UnwindActions
import Wie.Lib.Spread
import Wie.Mem.Query
import Wie.X86.Machine
import Wie.Stubs.CwdRun
import Wie.Lib.Ways
import Wie.Lib.Widen
import Wie.X86.Steps
import Wie.X86.Listing
import Wie.Stubs.MbwcServed
import Wie.Winapi.Wildcard
import Wie.Winapi.Encoding
import Wie.Jit.Conditions
import Wie.Cpu.StringScan
import Wie.Cpu.Parts
import Wie.Cpu.FlatExec
import Wie.Cpu.WordInsns
import Wie.Lib.Lanes
import Wie.Cpu.SseMoves
import Wie.Cpu.SseRight
import Wie.Winapi.Ucrt
import Wie.Jit.Tlb
import Wie.Jit.TlbRun
import Wie.Jit.TlbSound
import Wie.Jit.UcrtHelpers
import Wie.Winapi.DirListing
import Wie.Winapi.ModuleTable
import Wie.Winapi.LoadDll
import Wie.Winapi.Modules
import Wie.Winapi.ProcAddress
import Wie.Winapi.LoadApart
import Wie.Winapi.LoadRuns
import Wie.Winapi.DllSearch
import Wie.Winapi.RefCounts
import Wie.Winapi.RefRuns
import Wie.Lib.Tally
import Wie.Jit.CodeCache
import Wie.Jit.CodeIndex
import Wie.Jit.CodeRun
import Wie.Jit.CodeFresh
import Wie.Lib.Mailbox
import Wie.Lib.Nesting
import Wie.Winapi.GuestString
import Wie.Winapi.UserQueue
import Wie.Winapi.UserRun
import Wie.Winapi.UserLedger
import Wie.Winapi.Callbacks
import Wie.Winapi.WindowText
