import GenshinOs.Memory.Transparency
import GenshinOs.Memory.Swap
import GenshinOs.Memory.Alloc
import GenshinOs.Lib.Trace
import GenshinOs.Process.Tokens
import GenshinOs.Memory.SwapTable
import GenshinOs.Memory.Forms
import GenshinOs.Process.Grants
import GenshinOs.Process.Teardown
import GenshinOs.Process.Footprint
import GenshinOs.Process.Loading
import GenshinOs.Process.Numbers
import GenshinOs.Process.ProcessTree
import GenshinOs.Process.Cloning
import GenshinOs.Process.Residue
import GenshinOs.Files.Durable
import GenshinOs.Process.Leaks
import GenshinOs.Files.Tree
import GenshinOs.Files.Sharing
import GenshinOs.Process.Answers
import GenshinOs.Process.Assembler
import GenshinOs.Process.Assembling
import GenshinOs.Process.Endings
import GenshinOs.Process.Halting
import GenshinOs.Hardware.Timer
import GenshinOs.Process.RoundRobin
import GenshinOs.Process.Tick
import GenshinOs.Process.Agreement
import GenshinOs.Process.Wakeups
import GenshinOs.Process.Mailboxes
import GenshinOs.Process.Faulting
import GenshinOs.Memory.FrameLists
import GenshinOs.Memory.SwapRequests
import GenshinOs.Hardware.Translation
import GenshinOs.Process.Exits
import GenshinOs.Process.Exclusion
import GenshinOs.Hardware.Reopening
import GenshinOs.Files.RoundTrip
import GenshinOs.Files.Paths
import GenshinOs.Files.Listing
import GenshinOs.Files.Shapes
import GenshinOs.Memory.SwapBacking
import GenshinOs.Lib.Locks
import GenshinOs.Memory.Locks
import GenshinOs.Process.Locks
import GenshinOs.Process.Deadlocks
import GenshinOs.Files.Refusals
import GenshinOs.Lib.Tape
import GenshinOs.Files.Words
import GenshinOs.Files.Reference
import GenshinOs.Files.Overflow
import GenshinOs.Files.Issuing
import GenshinOs.Process.Counting
import GenshinOs.Lib.Fifo
import GenshinOs.Process.Delivery
import GenshinOs.Process.Reading
import GenshinOs.Devices.Device
import GenshinOs.Devices.Manager
import GenshinOs.Hardware.Block
import GenshinOs.Shell.Parser
import GenshinOs.Memory.FreeFrames
import GenshinOs.Hardware.Flags
import GenshinOs.Process.SharedMemory
import GenshinOs.Shell.Escaping
import GenshinOs.Memory.SlotTables
import GenshinOs.Lib.Interleave
import GenshinOs.Lib.Hoare
import GenshinOs.Lib.Ranking
import GenshinOs.Lib.Server
import GenshinOs.Hardware.Space
import GenshinOs.Hardware.Isolation
import GenshinOs.Process.Programs
import GenshinOs.Process.Assertions
import GenshinOs.Process.Following
import GenshinOs.Process.Shipped
import GenshinOs.Process.Waiting
import GenshinOs.Messaging.Bus
import GenshinOs.Messaging.Atomic
import GenshinOs.Devices.Service
import GenshinOs.Devices.Registry
import GenshinOs.Memory.PageTables
import GenshinOs.Shell.MiniGdb
