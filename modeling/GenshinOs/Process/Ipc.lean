import GenshinOs.Lib.HashMap
import GenshinOs.Messaging

/-!
# Message queues and shared memory

The inter-process communication state (`src/services/process/ipc.rs`): one message queue for each
process and the shared-memory regions. Time stamps are left out, no handler reads them.
-/

set_option autoImplicit false

namespace GenshinOs.Process

open GenshinOs.Lib

/-- A message in a queue with its sender. -/
structure QueuedMessage where
  message : IPCMessage
  fromPid : Pid
  fromTid : Tid
  deriving DecidableEq, Repr

/-- Message queue of a process; capacity `0` is unlimited. -/
structure MessageQueue where
  ownerPid : Pid
  capacity : Nat
  messages : List QueuedMessage
  totalSent : Nat
  totalReceived : Nat
  deriving DecidableEq, Repr

/-- Why a message is not taken. -/
inductive QueueError where
  | full
  deriving DecidableEq, Repr

namespace MessageQueue

/-- An empty queue. Capacity 0 means no bound. -/
def new (ownerPid : Pid) (capacity : Nat) : MessageQueue := ⟨ownerPid, capacity, [], 0, 0⟩

/-- Append a message, unless a bounded queue is full. -/
def send (q : MessageQueue) (fromPid : Pid) (fromTid : Tid) (message : IPCMessage) :
    Except QueueError MessageQueue :=
  if 0 < q.capacity ∧ q.capacity ≤ q.messages.length then .error .full
  else
    .ok { q with messages := q.messages ++ [⟨message, fromPid, fromTid⟩],
                 totalSent := q.totalSent + 1 }

/-- Take the oldest message. -/
def receive (q : MessageQueue) : Option QueuedMessage × MessageQueue :=
  match q.messages with
  | [] => (none, q)
  | msg :: rest => (some msg, { q with messages := rest, totalReceived := q.totalReceived + 1 })

end MessageQueue

/-- Shared memory region. -/
structure SharedMemoryRegion where
  shmid : Nat
  creatorPid : Pid
  size : Nat
  physicalAddr : PhysAddr
  prot : MemProt
  refCount : Nat
  attached : HashMap Pid VirtAddr
  markedForDeletion : Bool

namespace SharedMemoryRegion

/-- A region that nobody has attached yet. -/
def new (shmid : Nat) (creatorPid : Pid) (size : Nat) (physicalAddr : PhysAddr) (prot : MemProt) :
    SharedMemoryRegion :=
  ⟨shmid, creatorPid, size, physicalAddr, prot, 0, ∅, false⟩

/-- Every call counts, also one of a process that is attached already. -/
def attach (r : SharedMemoryRegion) (pid : Pid) (vaddr : VirtAddr) : SharedMemoryRegion :=
  { r with attached := r.attached.insert pid vaddr, refCount := r.refCount + 1 }

/-- Whether the process was attached. One call removes it, however often it attached. -/
def detach (r : SharedMemoryRegion) (pid : Pid) : Bool × SharedMemoryRegion :=
  if (r.attached.lookup pid).isSome then
    (true, { r with attached := r.attached.erase pid, refCount := r.refCount - 1 })
  else (false, r)

end SharedMemoryRegion

/-- What can go wrong with a region. -/
inductive IPCError where
  | notFound (shmid : Nat)
  deriving DecidableEq, Repr

/-- The debug text of an error, which the handlers put into their own error. -/
def IPCError.debug : IPCError → String
  | .notFound shmid => "NotFound(" ++ toString shmid ++ ")"

/-- All communication resources. -/
structure IPCManager where
  messageQueues : HashMap Pid MessageQueue
  sharedMemory : HashMap Nat SharedMemoryRegion
  nextShmid : Nat

namespace IPCManager

/-- No queues and no regions; the first region gets number 1. -/
def new : IPCManager := ⟨∅, ∅, 1⟩

/-- The queue of a process; a missing one is made up and not stored. -/
def getMessageQueue (m : IPCManager) (pid : Pid) : MessageQueue :=
  (m.messageQueues.lookup pid).getD (MessageQueue.new pid 0)

/-- The queue of a process; a missing one is stored. -/
def ensureMessageQueue (m : IPCManager) (pid : Pid) : MessageQueue × IPCManager :=
  match m.messageQueues.lookup pid with
  | some queue => (queue, m)
  | none =>
    (MessageQueue.new pid 0,
      { m with messageQueues := m.messageQueues.insert pid (MessageQueue.new pid 0) })

/-- Write through the shared handle of a stored queue; a made-up queue has no other holder. -/
def putMessageQueue (m : IPCManager) (pid : Pid) (queue : MessageQueue) : IPCManager :=
  { m with messageQueues := HashMap.adjust m.messageQueues pid fun _ => queue }

/-- A new region under the next number. -/
def createSharedMemory (m : IPCManager) (creatorPid : Pid) (size : Nat) (physicalAddr : PhysAddr)
    (prot : MemProt) : Nat × IPCManager :=
  (m.nextShmid,
    { m with
      nextShmid := m.nextShmid + 1
      sharedMemory := m.sharedMemory.insert m.nextShmid
        (SharedMemoryRegion.new m.nextShmid creatorPid size physicalAddr prot) })

/-- Attach a process to a region that is there. -/
def attachSharedMemory (m : IPCManager) (shmid : Nat) (pid : Pid) (vaddr : VirtAddr) :
    Except IPCError IPCManager :=
  match m.sharedMemory.lookup shmid with
  | none => .error (.notFound shmid)
  | some region =>
    .ok { m with sharedMemory := m.sharedMemory.insert shmid (region.attach pid vaddr) }

/-- Detach a process from a region that is there. -/
def detachSharedMemory (m : IPCManager) (shmid : Nat) (pid : Pid) :
    Except IPCError (Bool × IPCManager) :=
  match m.sharedMemory.lookup shmid with
  | none => .error (.notFound shmid)
  | some region =>
    let detached := region.detach pid
    .ok (detached.1, { m with sharedMemory := m.sharedMemory.insert shmid detached.2 })

end IPCManager

end GenshinOs.Process
