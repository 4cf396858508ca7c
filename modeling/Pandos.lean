import Pandos.Lib.Queues
import Pandos.Lib.Forest
import Pandos.Lib.Systems
import Pandos.Lib.BinarySemaphore
import Pandos.Lib.TwoLevel
import Pandos.Lib.Mutex
import Pandos.Lib.Rendezvous
import Pandos.Lib.Paging
import Pandos.Lib.Numerals
import Pandos.Lib.Buffers
import Pandos.Lib.RoundRobin
import Pandos.Lib.Rings
import Pandos.Lib.Threads
import Pandos.Lib.Progress
import Pandos.Arch
import Pandos.Kernel
import Pandos.Pcb
import Pandos.Lists
import Pandos.PcbHeap
import Pandos.SemdHeap
import Pandos.Asl
import Pandos.Scheduler
import Pandos.Semaphores
import Pandos.Syscall
import Pandos.Exception
import Pandos.NucleusHeap
import Pandos.Machine
import Pandos.Memory
import Pandos.Pager
import Pandos.Support
import Pandos.SupportSyscall
import Pandos.Replacement
import Pandos.Writers
import Pandos.Printf
import Pandos.Theory.Places
import Pandos.Theory.Lists
import Pandos.Theory.Pointers
import Pandos.Theory.Threads
import Pandos.Theory.PcbQueues
import Pandos.Theory.PcbFunctions
import Pandos.Theory.Asl
import Pandos.Theory.SemdLists
import Pandos.Theory.Invariant
import Pandos.Theory.Moves
import Pandos.Theory.KillProgeny
import Pandos.Theory.Semaphores
import Pandos.Theory.Scheduler
import Pandos.Theory.Spawn
import Pandos.Theory.Devices
import Pandos.Theory.Interrupts
import Pandos.Theory.Syscalls
import Pandos.Theory.Exceptions
import Pandos.Theory.Effects
import Pandos.Theory.PassUp
import Pandos.Theory.Ready
import Pandos.Theory.Boot
import Pandos.Theory.Runs
import Pandos.Theory.States
import Pandos.Theory.Suspensions
import Pandos.Theory.Times
import Pandos.Theory.Pids
import Pandos.Theory.Replay
import Pandos.Theory.UprocSteps
import Pandos.Theory.Supports
import Pandos.Theory.SupportCalls
import Pandos.Theory.SupportSemaphores
import Pandos.Theory.FlashQueues
import Pandos.Theory.Progress
import Pandos.Theory.FlashData
import Pandos.Theory.UprocReplay
import Pandos.Theory.Addresses
import Pandos.Theory.PageTables
import Pandos.Theory.TlbEntries
import Pandos.Theory.Agreement
import Pandos.Theory.AgreementSteps
import Pandos.Theory.Contents
import Pandos.Theory.Bytes
import Pandos.Theory.SupportIo
import Pandos.Theory.Writers
import Pandos.Theory.Numbers
import Pandos.Theory.Conversions
import Pandos.Properties.PcbQueues
import Pandos.Theory.NucleusHeap
import Pandos.Theory.AslHeap
import Pandos.Theory.SchedulerHeap
import Pandos.Theory.BootHeap
import Pandos.Properties.ListMemory
import Pandos.Theory.MemoryCalls
import Pandos.Theory.MemoryExceptions
import Pandos.Properties.NucleusMemory
import Pandos.Properties.Processes
import Pandos.Properties.Progeny
import Pandos.Properties.ProcessTree
import Pandos.Properties.BinarySemaphores
import Pandos.Properties.MutualExclusion
import Pandos.Properties.SemaphoreList
import Pandos.Properties.SemaphoreLookup
import Pandos.Properties.DeviceIo
import Pandos.Properties.CpuTime
import Pandos.Properties.Clock
import Pandos.Properties.Deadlock
import Pandos.Properties.Pids
import Pandos.Properties.UserMode
import Pandos.Properties.IoAddress
import Pandos.Properties.Panics
import Pandos.Properties.Scheduling
import Pandos.Properties.Preemption
import Pandos.Properties.TimerDrain
import Pandos.Properties.TimeSlices
import Pandos.Properties.Overtaking
import Pandos.Properties.Registers
import Pandos.Properties.SystemCalls
import Pandos.Properties.DeviceSemaphores
import Pandos.Properties.SwapMutex
import Pandos.Properties.Termination
import Pandos.Properties.PagerProgress
import Pandos.Properties.PageLayout
import Pandos.Properties.BadAddress
import Pandos.Properties.TextPages
import Pandos.Properties.PageAgreement
import Pandos.Properties.DemandPaging
import Pandos.Properties.Replacement
import Pandos.Properties.Numerals
import Pandos.Properties.Expansion
import Pandos.Properties.Truncation
import Pandos.Properties.FormatScanner
import Pandos.Properties.WriterContract
