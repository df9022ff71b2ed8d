import GenshinOs.Hardware.Cpu
import GenshinOs.Lib.Utf8
import GenshinOs.Memory.Service
import GenshinOs.Process.Kernel

/-!
# The process service and its surroundings

The whole state that the process service works on: its tables, the virtual CPUs and the memory
service with the MMU behind it. The two services are threads with a first-in first-out channel
between them, so requests to the memory service wait in a queue until that service gets to them.

What the program text does not decide is a `World`: the iteration orders of hash maps, whether an
answer arrives before its timeout, how far the memory service has got with its queue, the replies
of the file and the device service and the programs on disk. The world is asked at successive
values of a clock, so every question may have its own answer.
-/

set_option autoImplicit false

namespace GenshinOs.Process

open GenshinOs.Lib GenshinOs.Hardware GenshinOs.Memory

/-- The answers of the surroundings, by clock value. -/
structure World where
  order : Nat → HashOrder
  timely : Nat → Bool
  drain : Nat → Nat
  fileReply : Nat → FileRequest → Option Response
  deviceReply : Nat → DeviceRequest → Option Response
  program : Nat → String → Option (List UInt8)
  treeDepth : Nat

/-- A world in which every answer is in time, no other service replies and every name is the same
program. -/
def World.calm (program : List UInt8) : World where
  order := fun _ => HashOrder.stored
  timely := fun _ => true
  drain := fun _ => 0
  fileReply := fun _ _ => none
  deviceReply := fun _ _ => none
  program := fun _ _ => some program
  treeDepth := 0

/-! ## Virtual CPUs -/

/-- The virtual CPUs by process. Each belongs to the process under which it is stored. -/
structure CpuTable where
  table : HashMap Pid VirtualCPU
  owned : ∀ pid cpu, table.lookup pid = some cpu → cpu.currentPid = pid

namespace CpuTable

/-- No CPU. -/
def empty : CpuTable := ⟨∅, fun pid cpu h => by simp at h⟩

/-- The CPU of a process. -/
def get (c : CpuTable) (pid : Pid) : Option VirtualCPU := c.table.lookup pid

theorem owned_insert (c : CpuTable) (cpu : VirtualCPU) (pid : Pid) (cpu' : VirtualCPU)
    (h : AList.lookup pid (c.table.insert cpu.currentPid cpu) = some cpu') :
    cpu'.currentPid = pid := by
  rw [HashMap.lookup_insert_eq] at h
  split at h
  · next heq =>
    cases h
    exact heq.symm
  · exact c.owned pid cpu' h

/-- Store a CPU under its process. -/
def insert (c : CpuTable) (cpu : VirtualCPU) : CpuTable :=
  ⟨c.table.insert cpu.currentPid cpu, c.owned_insert cpu⟩

theorem owned_erase (c : CpuTable) (pid q : Pid) (cpu : VirtualCPU)
    (h : AList.lookup q (c.table.erase pid) = some cpu) : cpu.currentPid = q := by
  rw [HashMap.lookup_erase_eq] at h
  split at h
  · cases h
  · exact c.owned q cpu h

/-- The CPU of a process goes away. -/
def erase (c : CpuTable) (pid : Pid) : CpuTable := ⟨c.table.erase pid, c.owned_erase pid⟩

/-- The same CPU for a given owner. -/
def ownedBy (pid : Pid) (cpu : VirtualCPU) : VirtualCPU := { cpu with currentPid := pid }

theorem ownedBy_self {pid : Pid} {cpu : VirtualCPU} (h : cpu.currentPid = pid) :
    ownedBy pid cpu = cpu := by
  rw [← h]
  rfl

/-- Change the CPU of a process, if it has one. The owner stays. -/
def update (c : CpuTable) (pid : Pid) (f : VirtualCPU → VirtualCPU) : CpuTable :=
  match c.get pid with
  | some cpu => c.insert (ownedBy pid (f cpu))
  | none => c

theorem get_insert (c : CpuTable) (cpu : VirtualCPU) (pid : Pid) :
    (c.insert cpu).get pid = if pid = cpu.currentPid then some cpu else c.get pid :=
  HashMap.lookup_insert_eq c.table cpu.currentPid pid cpu

theorem get_erase (c : CpuTable) (pid q : Pid) :
    (c.erase pid).get q = if q = pid then none else c.get q :=
  HashMap.lookup_erase_eq c.table pid q

theorem get_update (c : CpuTable) (pid q : Pid) {f : VirtualCPU → VirtualCPU}
    (hf : ∀ cpu, (f cpu).currentPid = cpu.currentPid) :
    (c.update pid f).get q = if q = pid then (c.get pid).map f else c.get q := by
  simp only [update]
  cases h : c.get pid with
  | none =>
    simp only [Option.map_none]
    split
    · next heq => rw [heq, h]
    · rfl
  | some cpu =>
    have howner : (f cpu).currentPid = pid := (hf cpu).trans (c.owned pid cpu h)
    simp only [ownedBy_self howner, get_insert, howner, Option.map_some]

end CpuTable

/-! ## State -/

/-- State of the process service and what it talks to. -/
structure Machine extends Kernel where
  cpus : CpuTable
  memory : MemoryService
  memoryQueue : List (MemoryRequest × Bool)
  clock : Nat
  nextRequestId : RequestId
  outbox : List KernelMsg

namespace Machine

/-- Time goes on: what is asked of the world next is another question. -/
def advance (s : Machine) : Machine := { s with clock := s.clock + 1 }

/-- Change the tables. -/
def onKernel (s : Machine) (f : Kernel → Kernel) : Machine := { s with toKernel := f s.toKernel }

/-- Change the CPU of a process, if it has one. -/
def updateCpu (s : Machine) (pid : Pid) (f : VirtualCPU → VirtualCPU) : Machine :=
  { s with cpus := s.cpus.update pid f }

/-- The MMU, which the memory service has as well. -/
def mmu (s : Machine) : MMU := s.memory.mmu

/-- Change the MMU. -/
def onMmu (s : Machine) (f : MMU → MMU) : Machine :=
  { s with memory := { s.memory with mmu := f s.memory.mmu } }

/-- A message that nobody answers, to another service. -/
def send (s : Machine) (msg : KernelMsg) : Machine := { s with outbox := s.outbox ++ [msg] }

/-! ## Talking to the memory service -/

/-- The memory service takes one message from its channel. -/
def serve (ord : HashOrder) (m : MemoryService) (msg : MemoryRequest × Bool) : MemoryService :=
  if msg.2 then (m.handleEnvelope ord msg.1).1 else m.handleMessage msg.1

/-- A memory request without a response channel. -/
def sendMemory (s : Machine) (req : MemoryRequest) : Machine :=
  { s with memoryQueue := s.memoryQueue ++ [(req, false)] }

/-- A memory request with a response channel. In time, everything before it in the channel is
handled and the first answer is received; else the request stays in the channel. -/
def requestMemory (w : World) (s : Machine) (req : MemoryRequest) : Option Answer × Machine :=
  let ord := w.order s.clock
  if w.timely s.clock then
    let handled := (s.memoryQueue.foldl (serve ord) s.memory).handleEnvelope ord req
    (handled.2.head?, { s with memory := handled.1, memoryQueue := [], clock := s.clock + 1 })
  else
    (none, { s with memoryQueue := s.memoryQueue ++ [(req, true)], clock := s.clock + 1 })

/-- Some of the waiting messages are handled in the meantime. -/
def background (w : World) (s : Machine) : Machine :=
  let n := w.drain s.clock
  { s with
    memory := (s.memoryQueue.take n).foldl (serve (w.order s.clock)) s.memory
    memoryQueue := s.memoryQueue.drop n
    clock := s.clock + 1 }

/-! ## Talking to the file and the device service -/

/-- Ask the file service: the world has its reply. -/
def requestFile (w : World) (s : Machine) (req : FileRequest) : Option ResponseData × Machine :=
  ((w.fileReply s.clock req).bind Response.data, (s.send (.file req)).advance)

/-- The same of the device service. -/
def requestDevice (w : World) (s : Machine) (req : DeviceRequest) : Option ResponseData × Machine :=
  ((w.deviceReply s.clock req).bind Response.data, (s.send (.device req)).advance)

/-! ## Process memory -/

/-- Bytes of a process, `0` where a read fails. -/
def readBytesVirt (s : Machine) (pid : Pid) (vaddr : VirtAddr) (len : Nat) : List UInt8 :=
  (List.range len).map fun i =>
    match s.mmu.readU8 pid (vaddr + UInt64.ofNat i) with
    | .ok b => b
    | .error _ => 0

/-- The text at an address, up to a zero byte or 256 bytes. -/
def readStringVirt (s : Machine) (pid : Pid) (vaddr : VirtAddr) : String :=
  fromUtf8Lossy ((s.readBytesVirt pid vaddr 256).takeWhile (· != 0))

/-- Store bytes for a process, where its pages are mapped. -/
def writeSliceVirt (s : Machine) (pid : Pid) (vaddr : VirtAddr) (data : List UInt8) : Machine :=
  s.onMmu fun m => m.writeBytes pid vaddr data

/-- The bytes of a text. -/
def textBytes (text : String) : List UInt8 := text.toUTF8.data.toList

/-! ## Operations that leave tables and CPUs alone -/

/-- Neither the tables nor the CPUs change. -/
structure Quiet (s s' : Machine) : Prop where
  toKernel : s'.toKernel = s.toKernel
  cpus : s'.cpus = s.cpus

theorem Quiet.refl (s : Machine) : Quiet s s := ⟨rfl, rfl⟩

theorem Quiet.trans {s s' s'' : Machine} (h : Quiet s s') (h' : Quiet s' s'') : Quiet s s'' :=
  ⟨h'.toKernel.trans h.toKernel, h'.cpus.trans h.cpus⟩

/-- A loop of quiet steps is quiet. -/
theorem Quiet.foldl {α : Type} {f : Machine → α → Machine} (hf : ∀ s a, Quiet s (f s a))
    (l : List α) (s : Machine) : Quiet s (l.foldl f s) := by
  induction l generalizing s with
  | nil => exact Quiet.refl s
  | cons a l ih => exact (hf s a).trans (ih (f s a))

section quiet

variable (w : World) (s : Machine)

theorem quiet_advance : Quiet s s.advance := ⟨rfl, rfl⟩

theorem quiet_onMmu (f : MMU → MMU) : Quiet s (s.onMmu f) := ⟨rfl, rfl⟩

theorem quiet_send (msg : KernelMsg) : Quiet s (s.send msg) := ⟨rfl, rfl⟩

theorem quiet_sendMemory (req : MemoryRequest) : Quiet s (s.sendMemory req) := ⟨rfl, rfl⟩

theorem quiet_requestFile (req : FileRequest) : Quiet s (s.requestFile w req).2 := ⟨rfl, rfl⟩

theorem quiet_requestDevice (req : DeviceRequest) : Quiet s (s.requestDevice w req).2 := ⟨rfl, rfl⟩

theorem quiet_writeSliceVirt (pid : Pid) (vaddr : VirtAddr) (data : List UInt8) :
    Quiet s (s.writeSliceVirt pid vaddr data) := ⟨rfl, rfl⟩

theorem quiet_requestMemory (req : MemoryRequest) : Quiet s (s.requestMemory w req).2 := by
  simp only [requestMemory]
  split
  · exact ⟨rfl, rfl⟩
  · exact ⟨rfl, rfl⟩

/-- The same, for the result of a request that is known. -/
theorem quiet_of_requestMemory {req : MemoryRequest} {answer : Option Answer} {s' : Machine}
    (h : s.requestMemory w req = (answer, s')) : Quiet s s' := by
  have hquiet := quiet_requestMemory w s req
  rwa [h] at hquiet

end quiet

end Machine

end GenshinOs.Process
