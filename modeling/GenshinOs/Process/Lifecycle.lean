import GenshinOs.Process.Machine

/-!
# Fork and exec

How processes come into being and get their programs (`fork_impl`, `exec_impl` and their helpers in
`src/services/process/service.rs`). Both talk to the memory service and may fail half-way. What
they do to the tables is said by `Kernel.forkFresh`, `Kernel.forkChild` and `Kernel.exec`, and the
lemmas at the end of each section reduce the calls to these.
-/

set_option autoImplicit false

namespace GenshinOs.Process

open GenshinOs.Lib GenshinOs.Hardware GenshinOs.Memory

namespace Kernel

/-- A process without a parent. -/
def forkFresh (k : Kernel) : Kernel :=
  k.takePid.insertProcess k.nextPid (PCB.new k.nextPid "init" none)

/-- The control block of a forked process. -/
def childPcb (child parent : Pid) : PCB :=
  { PCB.new child ("(fork of " ++ toString parent ++ ")") (some parent) with state := .ready }

/-- A process with a parent. It is not queued: exec does that. -/
def forkChild (k : Kernel) (parent : Pid) : Kernel :=
  (k.takePid.insertProcess k.nextPid (childPcb k.nextPid parent)).linkChild parent k.nextPid

/-- A process starts a program: it is ready and queued once more. -/
def exec (k : Kernel) (pid : Pid) (executable : String) (args : List String) : Kernel :=
  ({ k with
      processTable := HashMap.adjust k.processTable pid fun pcb =>
        { pcb with name := executable, args := args, state := .ready } }).handleSchedule pid 1

end Kernel

namespace Machine

/-! ## Fork -/

/-- Copy a page byte by byte; a byte that cannot be read is skipped. -/
def copyPage (m : MMU) (fromPid toPid : Pid) (vaddr : VirtAddr) : MMU :=
  (List.range 4096).foldl (fun m o =>
    match m.readU8 fromPid (vaddr + UInt64.ofNat o) with
    | .ok b => m.writeU8Lossy toPid (vaddr + UInt64.ofNat o) b
    | .error _ => m) m

/-- Give the child a copy of each page of the parent. A page for which no frame is granted is left
out; a missing answer ends the fork. -/
def clonePages (w : World) (parent child : Pid) :
    List (VirtAddr × PhysAddr × PageFlags) → Machine → Except ServiceError Unit × Machine
  | [], s => (.ok (), s)
  | (vaddr, _, flags) :: rest, s =>
    match s.requestMemory w (.allocFrame 1 child) with
    | (none, s) => (.error (.other 91 "timeout"), s)
    | (some (.ok (.physicalAddr newFrame)), s) =>
      let mapped := s.requestMemory w
        (.mapPage child vaddr newFrame ⟨true, true, !flags.writable⟩)
      clonePages w parent child rest (mapped.2.onMmu fun m => copyPage m parent child vaddr)
    | (some _, s) => clonePages w parent child rest s

/-- The CPU of a child: the parent's counters and registers, and zero as the result of fork. -/
def childCpu (parentCpu : Option VirtualCPU) (child : Pid) : VirtualCPU :=
  let cpu := VirtualCPU.new child
  let cloned :=
    match parentCpu with
    | some p => { (cpu.setPc p.pc).setSp p.sp with registers := p.registers }
    | none => (cpu.setPc 0).setSp 0xFFFF
  cloned.writeRegister .r0 0

/-- Fork: clone memory and CPU of the parent. Parent `0` is the kernel, which makes an empty
process. -/
def forkImpl (w : World) (s : Machine) (parent : Pid) : Except ServiceError Pid × Machine :=
  let child := s.nextPid
  if parent = 0 then
    (.ok child, { (s.onKernel Kernel.forkFresh) with cpus := s.cpus.insert (VirtualCPU.new child) })
  else if (s.processTable.lookup parent).isNone then (.error (Kernel.processNotFound parent), s)
  else
    let entries := s.mmu.getPageEntries (w.order s.clock) parent
    match clonePages w parent child entries s.advance with
    | (.error e, cloned) => (.error e, cloned.onKernel Kernel.takePid)
    | (.ok (), cloned) =>
      let withCpu := { cloned with cpus := cloned.cpus.insert (childCpu (cloned.cpus.get parent) child) }
      let linked := withCpu.onKernel fun k => k.forkChild parent
      (.ok child, (linked.requestFile w (.cloneFds parent child)).2)

/-- The copies of the pages leave the tables of the service and the CPUs alone. -/
theorem quiet_clonePages (w : World) (parent child : Pid)
    (entries : List (VirtAddr × PhysAddr × PageFlags)) (s : Machine) :
    Quiet s (clonePages w parent child entries s).2 := by
  induction entries generalizing s with
  | nil => exact Quiet.refl s
  | cons entry rest ih =>
    obtain ⟨vaddr, paddr, flags⟩ := entry
    simp only [clonePages]
    split
    · next heq => exact quiet_of_requestMemory w s heq
    · next newFrame s' heq =>
      have hmapped := quiet_requestMemory w s'
        (.mapPage child vaddr newFrame ⟨true, true, !flags.writable⟩)
      exact ((quiet_of_requestMemory w s heq).trans (hmapped.trans (quiet_onMmu _ _))).trans (ih _)
    · next heq => exact (quiet_of_requestMemory w s heq).trans (ih _)

/-- A process with an entry in the table has a state. -/
theorem stateOf_isSome (s : Machine) {pid : Pid}
    (h : ¬(s.processTable.lookup pid).isNone = true) : (s.stateOf pid).isSome = true := by
  rw [Kernel.stateOf, Option.isSome_map]
  cases hlook : s.processTable.lookup pid with
  | none => simp [hlook] at h
  | some pcb => rfl

/-- What a fork does to the tables and the CPUs. -/
inductive Forked (s : Machine) (parent : Pid) : Except ServiceError Pid × Machine → Prop
  | fresh {s' : Machine} (hparent : parent = 0) (hk : s'.toKernel = s.toKernel.forkFresh)
      (hcpus : s'.cpus = s.cpus.insert (VirtualCPU.new s.nextPid)) :
      Forked s parent (.ok s.nextPid, s')
  | orphan {s' : Machine} {e : ServiceError} (hk : s'.toKernel = s.toKernel)
      (hcpus : s'.cpus = s.cpus) : Forked s parent (.error e, s')
  | aborted {s' : Machine} {e : ServiceError} (hk : s'.toKernel = s.toKernel.takePid)
      (hcpus : s'.cpus = s.cpus) : Forked s parent (.error e, s')
  | child {s' : Machine} (hparent : (s.stateOf parent).isSome)
      (hk : s'.toKernel = s.toKernel.forkChild parent)
      (hcpus : s'.cpus = s.cpus.insert (childCpu (s.cpus.get parent) s.nextPid)) :
      Forked s parent (.ok s.nextPid, s')

/-- Every fork ends in one of the four ways. -/
theorem forkImpl_forked (w : World) (s : Machine) (parent : Pid) :
    Forked s parent (forkImpl w s parent) := by
  simp only [forkImpl]
  split
  · next hparent => exact .fresh hparent rfl rfl
  split
  · exact .orphan rfl rfl
  next hsome =>
  have hquiet := (quiet_advance s).trans (quiet_clonePages w parent s.nextPid
    (s.mmu.getPageEntries (w.order s.clock) parent) s.advance)
  split
  · next cloned heq =>
    rw [heq] at hquiet
    exact .aborted (congrArg Kernel.takePid hquiet.toKernel) hquiet.cpus
  · next cloned heq =>
    rw [heq] at hquiet
    refine .child (s.stateOf_isSome hsome) ?_ ?_
    · exact congrArg (fun k => Kernel.forkChild k parent) hquiet.toKernel
    · exact congrArg (fun c => CpuTable.insert c (childCpu (c.get parent) s.nextPid)) hquiet.cpus

/-! ## Exec -/

/-- An instruction that moves a small number into a register. -/
def mov (reg value : UInt8) : List UInt8 := [0x01, reg, 0x01, 0x00, value, 0x00, 0x00, 0x00]

/-- The system call instruction. -/
def int80 : List UInt8 := [0x80, 0x00, 0x00, 0x00, 0x80, 0x00, 0x00, 0x00]

/-- System call zero: exit. -/
def haltCode : List UInt8 := mov 0 0 ++ int80

/-- The programs that need no file. An unknown name gives an instruction that halts. -/
def genBuiltinProgram (name : String) (dataLen : Nat) : List UInt8 :=
  if name = "ls" ∨ name = "listdir" then mov 0 18 ++ int80 ++ haltCode
  else if name = "mkdir" then mov 0 14 ++ int80 ++ haltCode
  else if name = "rm" ∨ name = "unlink" then mov 0 16 ++ int80 ++ haltCode
  else if name = "touch" ∨ name = "open" then
    mov 1 1 ++ mov 0 10 ++ int80 ++ mov 0 11 ++ int80 ++ haltCode
  else if name = "cat" ∨ name = "read" then
    mov 0 10 ++ int80 ++ mov 0 12 ++ mov 2 0x10 ++ int80 ++ mov 0 11 ++ int80 ++ haltCode
  else if name = "write" then
    mov 1 1 ++ mov 0 10 ++ int80 ++ mov 0 13 ++ mov 2 (UInt8.ofNat dataLen) ++ int80 ++
      mov 0 11 ++ int80 ++ haltCode
  else if name = "stat" then mov 0 17 ++ int80 ++ haltCode
  else if name = "busy" then ((List.range 15).flatMap fun i => mov 1 (UInt8.ofNat i)) ++ haltCode
  else if name = "fork" then mov 0 100 ++ int80 ++ haltCode
  else if name = "exec" then mov 0 101 ++ int80 ++ haltCode
  else if name = "tree" then mov 0 102 ++ int80 ++ haltCode
  else [0xFF, 0x00, 0x00, 0x00, 0x00, 0x00, 0x00, 0x00]

/-- The image of a program: from disk, else a built-in one. -/
def programImage (w : World) (s : Machine) (executable : String) (args : List String) :
    Option (List UInt8) :=
  match w.program s.clock executable with
  | some code => some code
  | none =>
    let builtin := genBuiltinProgram executable ((args[1]?.map String.utf8ByteSize).getD 0)
    if builtin.head? = some 0xFF then none else some builtin

/-- Ask for consecutive frames: the answer names the first one. -/
def allocFrames (w : World) (s : Machine) (count : Nat) (pid : Pid) :
    Except ServiceError (List PhysAddr) × Machine :=
  match s.requestMemory w (.allocFrame count pid) with
  | (none, s) => (.error (.other 91 "AllocFrame timeout"), s)
  | (some (.ok (.physicalAddr start)), s) =>
    (.ok ((List.range count).map fun i => start + UInt64.ofNat i * 4096), s)
  | (some _, s) => (.error (.resourceExhausted "memory" 0 count), s)

/-- Map frames to consecutive pages. -/
def mapFrames (w : World) (pid : Pid) : Nat → List PhysAddr → Machine → Machine
  | _, [], s => s
  | i, addr :: rest, s =>
    mapFrames w pid (i + 1) rest
      (s.requestMemory w (.mapPage pid (UInt64.ofNat (i * 4096)) addr ⟨true, true, true⟩)).2

/-- Copy the image and the first two arguments into the memory of a process. -/
def loadImage (s : Machine) (pid : Pid) (code : List UInt8) (args : List String) : Machine :=
  let withCode := s.writeSliceVirt pid 0 code
  match args with
  | [] => withCode
  | [path] => withCode.writeSliceVirt pid 0x100 (textBytes path)
  | path :: data :: _ =>
    (withCode.writeSliceVirt pid 0x100 (textBytes path)).writeSliceVirt pid 0x200 (textBytes data)

/-- The CPU of a process that starts a program. -/
def resetCpu (cpu : VirtualCPU) : VirtualCPU := { (cpu.setPc 0).setSp 0xFFFF with halted := false }

/-- Exec: replace memory and code of a process. -/
def execImpl (w : World) (s : Machine) (pid : Pid) (executable : String) (args : List String) :
    Except ServiceError Unit × Machine :=
  if (s.processTable.lookup pid).isNone then (.error (Kernel.processNotFound pid), s)
  else
    match programImage w s executable args with
    | none => (.error (.notFound "Program" executable), s.advance)
    | some code =>
      let entries := s.mmu.getPageEntries (w.order s.clock) pid
      let unmapped := entries.foldl (fun s entry => s.sendMemory (.unmapPage pid entry.1)) s.advance
      match allocFrames w unmapped ((code.length + 4095) / 4096) pid with
      | (.error e, s') => (.error e, s')
      | (.ok frames, s') =>
        let loaded := loadImage (mapFrames w pid 0 frames s') pid code args
        (.ok (), (loaded.updateCpu pid resetCpu).onKernel fun k => k.exec pid executable args)

/-- The request for the frames of an image leaves tables and CPUs alone, -/
theorem quiet_allocFrames (w : World) (s : Machine) (count : Nat) (pid : Pid) :
    Quiet s (allocFrames w s count pid).2 := by
  simp only [allocFrames]
  split
  · next heq => exact quiet_of_requestMemory w s heq
  · next heq => exact quiet_of_requestMemory w s heq
  · next heq => exact quiet_of_requestMemory w s heq

/-- so does the mapping of these frames, -/
theorem quiet_mapFrames (w : World) (pid : Pid) (i : Nat) (frames : List PhysAddr) (s : Machine) :
    Quiet s (mapFrames w pid i frames s) := by
  induction frames generalizing i s with
  | nil => exact Quiet.refl s
  | cons addr rest ih => exact (quiet_requestMemory w s _).trans (ih (i + 1) _)

/-- and the copy of the image into them. -/
theorem quiet_loadImage (s : Machine) (pid : Pid) (code : List UInt8) (args : List String) :
    Quiet s (loadImage s pid code args) := by
  simp only [loadImage]
  split
  · exact ⟨rfl, rfl⟩
  · exact ⟨rfl, rfl⟩
  · exact ⟨rfl, rfl⟩

/-- What an exec does to the tables and the CPUs: everything or nothing. -/
inductive Execed (s : Machine) (pid : Pid) (executable : String) (args : List String) :
    Except ServiceError Unit × Machine → Prop
  | failed {s' : Machine} {e : ServiceError} (hk : s'.toKernel = s.toKernel)
      (hcpus : s'.cpus = s.cpus) : Execed s pid executable args (.error e, s')
  | started {s' : Machine} (hpid : (s.stateOf pid).isSome)
      (hk : s'.toKernel = s.toKernel.exec pid executable args)
      (hcpus : s'.cpus = s.cpus.update pid resetCpu) : Execed s pid executable args (.ok (), s')

/-- Every exec ends in one of the two ways. -/
theorem execImpl_execed (w : World) (s : Machine) (pid : Pid) (executable : String)
    (args : List String) : Execed s pid executable args (execImpl w s pid executable args) := by
  simp only [execImpl]
  split
  · exact .failed rfl rfl
  next hsome =>
  split
  · exact .failed rfl rfl
  next code _ =>
  have hunmapped : Quiet s ((s.mmu.getPageEntries (w.order s.clock) pid).foldl
      (fun s entry => s.sendMemory (.unmapPage pid entry.1)) s.advance) :=
    (quiet_advance s).trans (Quiet.foldl (fun s _ => quiet_sendMemory s _) _ _)
  have hquiet := hunmapped.trans (quiet_allocFrames w _ ((code.length + 4095) / 4096) pid)
  split
  · next heq =>
    rw [heq] at hquiet
    exact .failed hquiet.toKernel hquiet.cpus
  · next frames s' heq =>
    rw [heq] at hquiet
    have hloaded := (hquiet.trans (quiet_mapFrames w pid 0 frames s')).trans
      (quiet_loadImage _ pid code args)
    refine .started (s.stateOf_isSome hsome) ?_ ?_
    · exact congrArg (fun k => Kernel.exec k pid executable args) hloaded.toKernel
    · exact congrArg (fun c => CpuTable.update c pid resetCpu) hloaded.cpus

end Machine

end GenshinOs.Process
