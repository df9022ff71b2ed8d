import GenshinOs.Memory.Locks
import GenshinOs.Process.Grants
import GenshinOs.Process.Loading
import GenshinOs.Process.Locks

/-!
# Handlers that wait for themselves

Which handlers block on a mutex that their own call chain holds. The chains are those of
`GenshinOs.Process.Locks` and `GenshinOs.Memory.Locks`; the rule that decides them is
`CallChain.deadlocks_guard`: a guard is fatal exactly if its scope locks the same mutex.

No request to the process service does that, and the timer does it only at the table of CPUs, which it
keeps for the whole time slice: in a fork or an exec that gets as far as the CPUs, and in a release of a
lock that somebody waits for.
-/

set_option autoImplicit false

namespace GenshinOs.Process

open GenshinOs.Lib GenshinOs.Hardware GenshinOs.Memory CallChain

namespace Kernel

variable (k : Kernel) (pid : Pid)

/-! ## Requests that need the tables only -/

@[simp] theorem mem_locks_entry (scope : CallChain ProcessMutex) (m : ProcessMutex) :
    m ∈ (k.entryLocks pid scope).locks ↔
      m = .processTable ∨ (k.processTable.lookup pid).isSome ∧ (m = .pcb pid ∨ m ∈ scope.locks) := by
  rw [entryLocks]
  cases (k.processTable.lookup pid).isSome with
  | false => simp
  | true => simp

@[simp] theorem deadlocks_entry (scope : CallChain ProcessMutex) :
    (k.entryLocks pid scope).Deadlocks ↔
      (k.processTable.lookup pid).isSome ∧
        (.processTable ∈ scope.locks ∨ .pcb pid ∈ scope.locks ∨ scope.Deadlocks) := by
  rw [entryLocks]
  cases (k.processTable.lookup pid).isSome with
  | false => simp
  | true => simp

@[simp] theorem not_deadlocks_scheduleLocks : ¬(k.scheduleLocks pid).Deadlocks := by
  rw [scheduleLocks]
  cases (k.processTable.lookup pid).isSome with
  | false => simp
  | true => simp

@[simp] theorem mem_locks_schedule (m : ProcessMutex) :
    m ∈ (k.scheduleLocks pid).locks ↔
      m = .processTable ∨ (k.processTable.lookup pid).isSome ∧ m = .pcb pid ∨ m = .scheduler := by
  rw [scheduleLocks]
  cases (k.processTable.lookup pid).isSome with
  | false => simp
  | true => simp

@[simp] theorem mem_locks_block (m : ProcessMutex) :
    m ∈ (k.blockLocks pid).locks ↔
      m = .scheduler ∨ m = .processTable ∨ (k.processTable.lookup pid).isSome ∧ m = .pcb pid := by
  simp [blockLocks]

@[simp] theorem not_deadlocks_blockLocks : ¬(k.blockLocks pid).Deadlocks := by
  simp [blockLocks]

@[simp] theorem not_deadlocks_queueLocks : ¬(queueLocks pid).Deadlocks := by
  simp [queueLocks]

@[simp] theorem not_deadlocks_receiveMessageLocks (blocking : Bool) :
    ¬(k.receiveMessageLocks pid blocking).Deadlocks := by
  rw [receiveMessageLocks]
  split
  · exact not_deadlocks_queueLocks pid
  · cases blocking with
    | false => simp
    | true => simp

@[simp] theorem not_deadlocks_regionLocks (shmid : Nat) : ¬(k.regionLocks shmid).Deadlocks := by
  rw [regionLocks]
  cases (k.ipcManager.sharedMemory.lookup shmid).isSome with
  | false => simp
  | true => simp

@[simp] theorem not_deadlocks_waitSemaphoreLocks (semid : SemaphoreId) :
    ¬(k.waitSemaphoreLocks pid semid).Deadlocks := by
  rw [waitSemaphoreLocks]
  split <;> simp

@[simp] theorem not_deadlocks_acquireLockLocks (lockId : LockId) :
    ¬(k.acquireLockLocks pid lockId).Deadlocks := by
  rw [acquireLockLocks]
  split <;> simp

@[simp] theorem not_deadlocks_waitChildLocks (childPid : Option Pid) :
    ¬(k.waitChildLocks pid childPid).Deadlocks := by
  rw [waitChildLocks]
  split <;> simp

@[simp] theorem not_deadlocks_waitChildWithResponseLocks (childPid : Option Pid) :
    ¬(k.waitChildWithResponseLocks pid childPid).Deadlocks := by
  cases childPid with
  | none => exact deadlocks_done
  | some child =>
    rw [waitChildWithResponseLocks]
    split
    · simp
    · cases k.stateOf child with
      | none => simp
      | some state =>
        dsimp only
        split <;> simp

@[simp] theorem not_deadlocks_signalLocks (signal : SignalType) :
    ¬(k.signalLocks pid signal).Deadlocks := by
  cases signal with
  | terminate => simp [signalLocks]
  | kill => simp [signalLocks]
  | _ => simp [signalLocks]

/-- No request of the tables waits for itself. -/
theorem not_deadlocks_processRequestLocks (req : ProcessRequest) :
    ¬(k.processRequestLocks req).Deadlocks := by
  cases req with
  | unblock q tid => simp [processRequestLocks, unblockLocks]
  | sendMessage fromPid toPid msg =>
    rw [processRequestLocks, sendMessageLocks]
    split <;> simp
  | _ => simp [processRequestLocks]

/-- The search for an entry locks control blocks under the guard of the table. -/
theorem not_deadlocks_entries (p : Pid × PCB → Bool) (entries : List (Pid × PCB)) :
    ¬(guard ProcessMutex.processTable
      (scan p (fun entry => touch (.pcb entry.1)) entries)).Deadlocks := by
  rw [deadlocks_guard]
  rintro (h | h)
  · obtain ⟨entry, -, hm⟩ := mem_locks_scan h
    simp at hm
  · exact not_deadlocks_scan (fun entry _ => deadlocks_touch _) h

@[simp] theorem not_deadlocks_findWaiterLocks (ord : HashOrder) (lockAddr : Nat) :
    ¬(k.findWaiterLocks ord lockAddr).Deadlocks := not_deadlocks_entries _ _

@[simp] theorem not_deadlocks_findZombieLocks (ord : HashOrder) :
    ¬(k.findZombieLocks ord).Deadlocks := not_deadlocks_entries _ _

@[simp] theorem cpus_notMem_findWaiterLocks (ord : HashOrder) (lockAddr : Nat) :
    .cpus ∉ (k.findWaiterLocks ord lockAddr).locks := by
  rw [findWaiterLocks, mem_locks_guard]
  rintro (h | h)
  · cases h
  · obtain ⟨entry, -, hm⟩ := mem_locks_scan h
    simp at hm

@[simp] theorem not_deadlocks_trackLastLocks (cpuId : Fin 2) (decision : SchedulingDecision) :
    ¬(k.trackLastLocks cpuId decision).Deadlocks := by
  cases decision with
  | run pid tid =>
    rw [trackLastLocks]
    split
    · simp
    · cases k.lastRunning cpuId with
      | none => simp
      | some prev =>
        dsimp only
        split <;> simp
  | _ => simp [trackLastLocks]

end Kernel

namespace Machine

variable (w : World) (s : Machine) (pid : Pid)

/-! ## Fork and exec -/

@[simp] theorem not_deadlocks_mmuAccesses (count : Nat) : ¬(mmuAccesses count).Deadlocks := by
  simp [mmuAccesses]

@[simp] theorem cpus_notMem_mmuAccesses (count : Nat) : .cpus ∉ (mmuAccesses count).locks := by
  rw [mmuAccesses, mem_locks_each]
  rintro ⟨-, -, hm⟩
  simp at hm

/-- The copies of the pages need the bus and the MMU, never two locks at once. -/
theorem clonePagesLocks_leaf (parent child : Pid)
    (entries : List (VirtAddr × PhysAddr × PageFlags)) (s : Machine) :
    ¬(clonePagesLocks w parent child entries s).Deadlocks ∧
      .cpus ∉ (clonePagesLocks w parent child entries s).locks := by
  induction entries generalizing s with
  | nil => simp [clonePagesLocks]
  | cons entry rest ih =>
    obtain ⟨vaddr, paddr, flags⟩ := entry
    rw [clonePagesLocks]
    split
    · simp
    · next newFrame s' _ =>
      have htail := ih ((s'.requestMemory w
        (.mapPage child vaddr newFrame ⟨true, true, !flags.writable⟩)).2.onMmu
          fun m => copyPage m parent child vaddr)
      simp [htail]
    · next s' _ _ =>
      have htail := ih s'
      simp [htail]

@[simp] theorem not_deadlocks_forkLocks : ¬(s.forkLocks w pid).Deadlocks := by
  rw [forkLocks]
  split
  · simp
  · rw [deadlocks_append, or_iff_right (deadlocks_touch _)]
    split
    · exact deadlocks_done
    · have hclone := clonePagesLocks_leaf w pid s.nextPid
        (s.mmu.getPageEntries (w.order s.clock) pid) s.advance
      simp only [forkChildLocks, deadlocks_append, deadlocks_touch, hclone.1, false_or]
      split <;> simp [adoptLocks]

@[simp] theorem not_deadlocks_execLocks (executable : String) (args : List String) :
    ¬(s.execLocks w pid executable args).Deadlocks := by
  rw [execLocks, deadlocks_append, or_iff_right (deadlocks_touch _)]
  split
  · exact deadlocks_done
  · cases programImage w s executable args with
    | none => exact deadlocks_done
    | some code =>
      simp only [deadlocks_append, deadlocks_touch, deadlocks_each, exists_false, and_false, false_or]
      split <;> simp

/-! ## Requests -/

@[simp] theorem not_deadlocks_createProcessLocks (executable : String) (args : List String) :
    ¬(s.createProcessLocks w executable args).Deadlocks := by
  rw [createProcessLocks]
  split <;> simp

/-- Creations one after the other do not wait for themselves, -/
theorem not_deadlocks_spawnStrictLocks (name : String) (n : Nat) (s : Machine) :
    ¬(spawnStrictLocks w name n s).Deadlocks := by
  induction n generalizing s with
  | zero => exact deadlocks_done
  | succ n ih =>
    rw [spawnStrictLocks, deadlocks_append, or_iff_right (not_deadlocks_createProcessLocks w s name [])]
    split
    · exact deadlocks_done
    · exact ih _

/-- nor do forks and execs one after the other, -/
theorem not_deadlocks_spawnLenientLocks (name : String) (n : Nat) (s : Machine) :
    ¬(spawnLenientLocks w name n s).Deadlocks := by
  induction n generalizing s with
  | zero => exact deadlocks_done
  | succ n ih =>
    rw [spawnLenientLocks, deadlocks_append, or_iff_right (not_deadlocks_forkLocks w s 0)]
    split
    · exact ih _
    · rw [deadlocks_append, or_iff_right (not_deadlocks_execLocks w _ _ _ _)]
      exact ih _

/-- the message that asks for them, -/
theorem not_deadlocks_spawnMessageLocks (program : String) :
    ¬(s.spawnMessageLocks w program).Deadlocks := by
  simp only [spawnMessageLocks, deadlocks_append, not_deadlocks_spawnLenientLocks, or_false]
  rintro (h | h)
  · split at h <;> simp at h
  · split at h <;> simp at h

/-- a request without work in memory, -/
theorem not_deadlocks_simpleRequestLocks (req : ProcessRequest) (channel : Option RequestId) :
    ¬(s.simpleRequestLocks w req channel).Deadlocks := by
  simp only [simpleRequestLocks]
  split
  · simp
  · simp
  · simp
  · simp
  · simp
  · exact s.not_deadlocks_processRequestLocks req

/-- a request of any kind, -/
theorem not_deadlocks_requestLocks (req : ProcessRequest) (channel : Option RequestId) :
    ¬(s.requestLocks w req channel).Deadlocks := by
  simp only [requestLocks]
  split
  · simp
  · simp
  · exact not_deadlocks_spawnStrictLocks w _ _ s
  · exact s.not_deadlocks_spawnMessageLocks w _
  · exact s.not_deadlocks_simpleRequestLocks w req channel

/-- and a message of a system call. -/
theorem not_deadlocks_syscallMessageLocks (syscall : Syscall) :
    ¬(s.syscallMessageLocks w syscall).Deadlocks := by
  cases syscall with
  | createProcess executable args => exact not_deadlocks_createProcessLocks w s executable args
  | _ => exact deadlocks_done

/-! ## System calls -/

@[simp] theorem not_deadlocks_sleepLocks (asleep : Bool) : ¬(s.sleepLocks pid asleep).Deadlocks := by
  cases asleep with
  | false => simp [sleepLocks]
  | true => simp [sleepLocks]

@[simp] theorem cpus_notMem_sleepLocks (asleep : Bool) : .cpus ∉ (s.sleepLocks pid asleep).locks := by
  cases asleep with
  | false => simp [sleepLocks]
  | true => simp [sleepLocks]

@[simp] theorem not_deadlocks_buildTreeLocks (path : String) :
    ¬(s.buildTreeLocks w path).Deadlocks := by
  simp [buildTreeLocks]

@[simp] theorem cpus_notMem_buildTreeLocks (path : String) :
    .cpus ∉ (s.buildTreeLocks w path).locks := by
  rw [buildTreeLocks, mem_locks_each]
  rintro ⟨-, -, hm⟩
  simp at hm

/-- A system call on its own never waits for itself. -/
theorem not_deadlocks_callLocks (call : SystemCall) : ¬(s.callLocks w pid call).Deadlocks := by
  cases call with
  | exit code =>
    rw [callLocks]
    split <;> simp
  | printStr vaddr len =>
    rw [callLocks]
    split <;> simp
  | write fd len =>
    rw [callLocks]
    split <;> simp
  | deviceWrite size =>
    rw [callLocks]
    split <;> simp
  | read fd len =>
    rw [callLocks]
    split <;> simp [deliverLocks]
  | listdir =>
    rw [callLocks]
    split <;> simp [deliverLocks, pathLocks]
  | deviceRead maxSize =>
    rw [callLocks]
    split <;> simp
  | semSignal semId =>
    rw [callLocks, semSignalLocks]
    split <;> simp
  | lockRelease lockId =>
    rw [callLocks, lockReleaseLocks]
    split <;> simp
  | _ => simp [callLocks, pathLocks, deliverLocks]

/-- Every request for a frame of a copied page is answered before its timeout. -/
def FramesAnswered (parent child : Pid) :
    List (VirtAddr × PhysAddr × PageFlags) → Machine → Prop
  | [], _ => True
  | entry :: rest, s =>
    w.timely s.clock = true ∧ FramesAnswered parent child rest (clonePages w parent child [entry] s).2

/-- A fork gets as far as the table of CPUs: the kernel forks, or the process is in the table and the
memory service answers in time for each of its pages. -/
def ForkReachesCpus : Prop :=
  pid = 0 ∨ (s.processTable.lookup pid).isSome ∧
    FramesAnswered w pid s.nextPid (s.mmu.getPageEntries (w.order s.clock) pid) s.advance

/-- An exec gets as far as the table of CPUs: the process is in the table, the program exists, and the
memory service answers in time and has enough free frames when it has handled what waits in its channel,
the messages that unmap the old pages included. -/
def ExecReachesCpus (executable : String) : Prop :=
  (s.processTable.lookup pid).isSome ∧ ∃ code, programImage w s executable [] = some code ∧
    w.timely (tornDown w s pid).clock = true ∧
    ((tornDown w s pid).grantedFrames w ((code.length + 4095) / 4096) pid).length =
      (code.length + 4095) / 4096

/-- A system call that locks the table of CPUs. -/
def LocksCpus : SystemCall → Prop
  | .fork => s.ForkReachesCpus w pid
  | .exec => s.ExecReachesCpus w pid (s.readStringVirt pid 0x100)
  | .lockRelease lockId => (s.toKernel.findWaiter (w.order s.clock) lockId.toNat).isSome
  | _ => False

/-- A request for frames gets an answer exactly if it is handled in time. -/
theorem allocFrame_unanswered_iff (count : Nat) :
    (s.requestMemory w (.allocFrame count pid)).1 = none ↔ w.timely s.clock = false := by
  simp only [requestMemory]
  cases w.timely s.clock with
  | false => simp
  | true =>
    simp only [if_true, Bool.true_eq_false, iff_false, MemoryService.handleEnvelope,
      MemoryService.handleMemoryRequestWithResponse, MemoryService.handleAllocFrameWithResponse]
    split
    · split <;> simp
    · split <;> simp

/-- All pages are copied when all requests for frames are answered in time. -/
theorem clonePages_ok_iff (parent child : Pid) (entries : List (VirtAddr × PhysAddr × PageFlags))
    (s : Machine) :
    (clonePages w parent child entries s).1 = .ok () ↔ FramesAnswered w parent child entries s := by
  induction entries generalizing s with
  | nil => simp [clonePages, FramesAnswered]
  | cons entry rest ih =>
    obtain ⟨vaddr, paddr, flags⟩ := entry
    have hanswer := s.allocFrame_unanswered_iff w child 1
    simp only [FramesAnswered, clonePages]
    split
    · next heq =>
      -- no answer in time: the fork ends here
      rw [heq, eq_self_iff_true, true_iff] at hanswer
      simp [hanswer]
    · next heq =>
      rw [heq] at hanswer
      have htimely : w.timely s.clock = true := by simpa using hanswer
      rw [ih, htimely]
      simp
    · next heq =>
      rw [heq] at hanswer
      have htimely : w.timely s.clock = true := by simpa using hanswer
      rw [ih, htimely]
      simp

/-- The frames of an image are there when the answer is in time and names enough of them. -/
theorem allocFrames_ok_iff (count : Nat) :
    (∃ frames s', allocFrames w s count pid = (.ok frames, s')) ↔
      w.timely s.clock = true ∧ (s.grantedFrames w count pid).length = count := by
  have hanswer := s.allocFrame_unanswered_iff w pid count
  constructor
  · rintro ⟨frames, s', h⟩
    refine ⟨?_, (allocFrames_ok h).1⟩
    by_contra hlate
    rw [Bool.not_eq_true] at hlate
    have hnone := hanswer.2 hlate
    rw [allocFrames] at h
    split at h
    · cases h
    · next heq =>
      rw [heq] at hnone
      cases hnone
    · cases h
  · rintro ⟨htimely, hlength⟩
    rw [grantedFrames, pendingMemory] at hlength
    simp [allocFrames, requestMemory, htimely, MemoryService.handleEnvelope,
      MemoryService.handleMemoryRequestWithResponse, MemoryService.handleAllocFrameWithResponse, hlength]

/-! ## Calls that lock the table of CPUs -/

/-- A fork locks the table of the CPUs exactly when it gets as far. -/
theorem mem_cpus_forkLocks : .cpus ∈ (s.forkLocks w pid).locks ↔ s.ForkReachesCpus w pid := by
  rw [forkLocks, ForkReachesCpus, ← clonePages_ok_iff]
  by_cases hkernel : pid = 0
  · simp [hkernel]
  · simp only [hkernel, if_false, false_or]
    cases s.processTable.lookup pid with
    | none => simp
    | some pcb =>
      have hclone := (clonePagesLocks_leaf w pid s.nextPid
        (s.mmu.getPageEntries (w.order s.clock) pid) s.advance).2
      rw [forkChildLocks]
      obtain ⟨result, s'⟩ := clonePages w pid s.nextPid (s.mmu.getPageEntries (w.order s.clock) pid)
        s.advance
      cases result with
      | error e => simp [hclone]
      | ok u => simp [adoptLocks]

/-- So does an exec. -/
theorem mem_cpus_execLocks (executable : String) :
    .cpus ∈ (s.execLocks w pid executable []).locks ↔ s.ExecReachesCpus w pid executable := by
  rw [execLocks, ExecReachesCpus]
  cases hpcb : s.processTable.lookup pid with
  | none => simp
  | some pcb =>
    cases programImage w s executable [] with
    | none => simp
    | some code =>
      have hframes := (tornDown w s pid).allocFrames_ok_iff w pid ((code.length + 4095) / 4096)
      simp only [Option.some.injEq, exists_eq_left', ← hframes, Option.isSome_some, true_and,
        Option.isNone_some, Bool.false_eq_true, if_false]
      rw [tornDown]
      generalize allocFrames w _ _ pid = asked
      obtain ⟨result, s'⟩ := asked
      cases result with
      | error e => simp
      | ok frames => simp

/-- The calls that lock the table of CPUs. -/
theorem mem_cpus_callLocks (call : SystemCall) :
    .cpus ∈ (s.callLocks w pid call).locks ↔ s.LocksCpus w pid call := by
  cases call with
  | fork => exact s.mem_cpus_forkLocks w pid
  | exec =>
    rw [callLocks, mem_locks_append, mem_cpus_execLocks]
    simp [pathLocks, LocksCpus]
  | lockRelease lockId =>
    rw [callLocks, lockReleaseLocks, LocksCpus]
    cases s.toKernel.findWaiter (w.order s.clock) lockId.toNat with
    | none => simp
    | some waiter => simp
  | semSignal semId =>
    -- the attempt does not wait for the lock
    rw [callLocks, semSignalLocks]
    cases s.toKernel.findWaiter (w.order s.clock) semId.toNat with
    | none => simp [LocksCpus]
    | some waiter => simp [LocksCpus]
  | exit code =>
    rw [callLocks]
    split <;> simp [LocksCpus]
  | printStr vaddr len =>
    rw [callLocks]
    split <;> simp [LocksCpus]
  | write fd len =>
    rw [callLocks]
    split <;> simp [LocksCpus]
  | deviceWrite size =>
    rw [callLocks]
    split <;> simp [LocksCpus]
  | read fd len =>
    rw [callLocks]
    split <;> simp [LocksCpus, deliverLocks]
  | listdir =>
    rw [callLocks]
    split <;> simp [LocksCpus, deliverLocks, pathLocks]
  | deviceRead maxSize =>
    rw [callLocks]
    split <;> simp [LocksCpus]
  | _ => simp [callLocks, LocksCpus, pathLocks, deliverLocks]

end Machine

/-! ## The time slice -/

/-- A system call that locks the table of CPUs, which the timer holds. -/
def Relocks (w : World) (t : Tr) : Prop :=
  match t.act with
  | .syscall _ pid call => (t.pre.dispatching pid).LocksCpus w pid call
  | _ => False

/-- What the service does on its own behalf is no system call of a process. -/
theorem Served.not_relocks {w : World} {s s' : Machine} {trace : List Tr} (h : Served w s trace s')
    {t : Tr} (ht : t ∈ trace) : ¬Relocks w t := by
  have hservice := h.service t ht
  obtain ⟨pre, act, post⟩ := t
  cases act with
  | syscall cpuId q call => cases hservice
  | _ => exact id

namespace Machine

variable (w : World) (s : Machine) (pid : Pid)

/-- A system call does not wait for itself, as long as the CPUs are not locked before. -/
theorem not_deadlocks_runSyscallLocks : ¬(s.runSyscallLocks w pid).Deadlocks := by
  rw [runSyscallLocks]
  split
  · exact deadlocks_done
  · split
    · exact deadlocks_done
    · exact not_deadlocks_callLocks w _ pid _

/-- It locks them exactly when it is a fork or an exec that gets as far. -/
theorem mem_cpus_runSyscallLocks (cpuId : Fin 2) :
    .cpus ∈ (s.runSyscallLocks w pid).locks ↔ ∃ t ∈ (runSyscall w cpuId pid s).2, Relocks w t := by
  simp only [runSyscallLocks, runSyscall]
  cases s.cpus.get pid with
  | none => simp
  | some cpu =>
    dsimp only
    split
    · simp
    · rw [mem_cpus_callLocks]
      simp [Relocks]

@[simp] theorem forwardFaultLocks_leaf :
    ¬(s.forwardFaultLocks pid).Deadlocks ∧ .cpus ∉ (s.forwardFaultLocks pid).locks := by
  rw [forwardFaultLocks]
  split
  · simp
  · split <;> simp

/-- A fault that is passed on does not. -/
theorem forwardFault_not_relocks (cpuId : Fin 2) (t : Tr) (ht : t ∈ (forwardFault w cpuId pid s).2) :
    ¬Relocks w t := by
  simp only [forwardFault] at ht
  split at ht
  · cases ht
  · split at ht
    · cases ht
    · rw [List.mem_singleton.1 ht]
      exact id

@[simp] theorem stepLocks_leaf : ¬stepLocks.Deadlocks ∧ .cpus ∉ stepLocks.locks := by
  simp [stepLocks]

/-- The steps of a slice do not wait for themselves on their own. -/
theorem not_deadlocks_executeLocks (cpuId : Fin 2) (n : Nat) (s : Machine) :
    ¬(executeLocks w cpuId pid n s).Deadlocks := by
  induction n generalizing s with
  | zero => exact deadlocks_done
  | succ n ih =>
    rw [executeLocks]
    split
    · exact deadlocks_done
    · split
      · exact deadlocks_done
      · simp only [deadlocks_append, stepLocks_leaf.1, false_or]
        split
        · exact deadlocks_done
        · rw [deadlocks_append, or_iff_right (not_deadlocks_runSyscallLocks w _ pid)]
          split
          · exact deadlocks_done
          · rw [deadlocks_append, or_iff_right (forwardFaultLocks_leaf _ pid).1]
            exact ih _

/-- The loop over the instructions locks the table of CPUs exactly in its system calls. -/
theorem mem_cpus_executeLocks (cpuId : Fin 2) (n : Nat) (s : Machine) :
    .cpus ∈ (executeLocks w cpuId pid n s).locks ↔ ∃ t ∈ (execute w cpuId pid n s).2, Relocks w t := by
  induction n generalizing s with
  | zero => simp [executeLocks, execute]
  | succ n ih =>
    simp only [executeLocks, execute]
    cases s.cpus.get pid with
    | none => simp
    | some cpu =>
      dsimp only
      split
      · simp
      · -- stepping has locks of its own, of the bus and the MMU
        have hstep : ¬Relocks w ⟨s, Act.step cpuId pid, (s.stepCpu w pid cpu).2⟩ := id
        simp only [mem_locks_append, stepLocks_leaf.2, false_or]
        split
        · simp [hstep]
        · rw [mem_locks_append, mem_cpus_runSyscallLocks w _ pid cpuId]
          split
          · simp [hstep]
          · rw [mem_locks_append, ih]
            -- a fault is forwarded by a message
            have hfault := forwardFault_not_relocks w
              (runSyscall w cpuId pid (s.stepCpu w pid cpu).2).1 pid cpuId
            simp only [List.mem_append, List.mem_singleton, or_and_right, exists_or, exists_eq_left, hstep,
              (forwardFaultLocks_leaf _ pid).2, false_or]
            constructor
            · rintro (h | h)
              · exact Or.inl (Or.inl h)
              · exact Or.inr h
            · rintro ((h | ⟨t, ht, h⟩) | h)
              · exact Or.inl h
              · exact absurd h (hfault t ht)
              · exact Or.inr h

/-- The end of a slice locks one thing at a time, and never the CPUs. -/
theorem settleLocks_leaf : ¬(s.settleLocks pid).Deadlocks ∧ .cpus ∉ (s.settleLocks pid).locks := by
  simp only [settleLocks]
  split
  · split
    · simp
    · split <;> simp
  · simp

/-- A time slice on its own does not wait for itself. -/
theorem not_deadlocks_sliceLocks (cpuId : Fin 2) (dispatched : Machine) :
    ¬(s.sliceLocks w pid cpuId dispatched).Deadlocks := by
  simp only [sliceLocks, deadlocks_append, not_deadlocks_executeLocks, (settleLocks_leaf _ pid).1,
    or_false]
  rintro (h | h)
  · split at h <;> simp at h
  · split at h <;> simp at h

/-- A slice locks the CPUs when one of its calls does. -/
theorem mem_cpus_sliceLocks (cpuId : Fin 2) (dispatched : Machine) :
    .cpus ∈ (s.sliceLocks w pid cpuId dispatched).locks ↔
      ∃ t ∈ (execute w cpuId pid 3 dispatched).2, Relocks w t := by
  simp only [sliceLocks, mem_locks_append, (settleLocks_leaf _ pid).2, or_false,
    ← mem_cpus_executeLocks]
  constructor
  · rintro ((h | h) | h)
    · split at h <;> simp at h
    · exact h
    · split at h <;> simp at h
  · exact fun h => Or.inl (Or.inr h)

@[simp] theorem not_deadlocks_reapLocks : ¬(s.reapLocks w).Deadlocks := by
  rw [reapLocks]
  split
  · simp
  · split <;> simp

/-- A dispatch does not wait for itself. -/
theorem not_deadlocks_dispatchLocks (cpuId : Fin 2) (scheduledThisTick : List Pid) :
    ¬(s.dispatchLocks cpuId scheduledThisTick).Deadlocks := by
  simp only [dispatchLocks]
  split <;> simp

/-! ## The timer and the events -/

/-- A CPU's part of a tick waits for itself exactly in a system call that locks the table of CPUs. -/
theorem turnLocks_deadlocks_iff (cpuId : Fin 2) (scheduledThisTick : List Pid) :
    (s.turnLocks w cpuId scheduledThisTick).Deadlocks ↔
      ∃ t ∈ (turn w cpuId scheduledThisTick s).2.1, Relocks w t := by
  simp only [turnLocks, turn]
  rw [deadlocks_append, or_iff_right (s.not_deadlocks_dispatchLocks cpuId scheduledThisTick)]
  cases (s.dispatch cpuId scheduledThisTick).1 with
  | run pid tid =>
    dsimp only
    rw [deadlocks_append, deadlocks_guard, mem_cpus_sliceLocks,
      or_iff_left (not_deadlocks_sliceLocks w s pid cpuId _), or_iff_left (not_deadlocks_reapLocks w _)]
    constructor
    · rintro ⟨t, ht, h⟩
      exact ⟨t, by simp [ht], h⟩
    · rintro ⟨t, ht, h⟩
      rcases List.mem_append.1 ht with ht | ht
      · rcases List.mem_append.1 ht with ht | ht
        · rw [List.mem_singleton.1 ht] at h
          exact h.elim
        · exact ⟨t, ht, h⟩
      · rcases List.mem_cons.1 ht with rfl | ht
        · exact h.elim
        · rw [List.mem_singleton.1 ht] at h
          exact h.elim
  | idle => simp [Relocks]
  | halt => simp [Relocks]

/-- A tick waits for itself exactly when a call in it locks the CPUs again, -/
theorem timerLocks_deadlocks_iff :
    (s.timerLocks w).Deadlocks ↔ ∃ t ∈ (s.handleTimerInterrupt w).2, Relocks w t := by
  show (s.turnLocks w 0 [] ++ (turn w 0 [] s).1.turnLocks w 1 (turn w 0 [] s).2.2).Deadlocks ↔ _
  simp only [handleTimerInterrupt, deadlocks_append, turnLocks_deadlocks_iff, List.mem_append,
    or_and_right, exists_or]

/-- and so does a message, -/
theorem messageLocks_deadlocks_iff (msg : KernelMsg) (channel : Option RequestId) :
    (s.messageLocks w msg channel).Deadlocks ↔ ∃ t ∈ (s.handleMessage w msg channel).2, Relocks w t := by
  cases msg with
  | process req =>
    refine iff_of_false (s.not_deadlocks_requestLocks w req channel) ?_
    rintro ⟨t, ht, h⟩
    exact (handleRequest_served w s req channel).not_relocks ht h
  | syscall req =>
    refine iff_of_false (s.not_deadlocks_syscallMessageLocks w req) ?_
    rintro ⟨t, ht, h⟩
    exact (handleSyscallMessage_served w s req channel).not_relocks ht h
  | interrupt int =>
    cases int with
    | timer => exact s.timerLocks_deadlocks_iff w
    | _ => simp [messageLocks, interruptLocks, handleMessage, handleInterrupt, Relocks]
  | _ => simp [messageLocks, handleMessage]

/-- and an event. -/
theorem eventLocks_deadlocks_iff (event : Event) :
    (s.eventLocks w event).Deadlocks ↔ ∃ t ∈ (s.handleEvent w event).2, Relocks w t := by
  cases event with
  | timer => exact s.timerLocks_deadlocks_iff w
  | envelope msg expectsResponse =>
    cases expectsResponse with
    | false => exact s.messageLocks_deadlocks_iff w msg none
    | true =>
      simp only [eventLocks, envelopeLocks, handleEvent, handleEnvelope, if_true,
        messageLocks_deadlocks_iff, List.mem_cons, exists_eq_or_imp]
      exact (or_iff_right id).symm

end Machine

/-! ## Runs of the two services -/

open Machine

/-- The handlers that wait for themselves, in every reachable state of either service: those of the
process service that come to a system call which locks the table of CPUs, and the answered fault on a
page in swap for which there is a frame. -/
theorem self_deadlock_iff (w : World) (memory : MemoryService) (events : List Event) (event : Event)
    (size : UInt64) (swapImage : Nat → UInt8) (memoryEvents : List MemoryEvent) (e : MemoryEvent) :
    (((run w memory events).1.eventLocks w event).Deadlocks ↔
      ∃ t ∈ ((run w memory events).1.handleEvent w event).2, Relocks w t) ∧
    (((runTrace memoryTransition (bootMemory size swapImage) memoryEvents).1.eventLocks e).Deadlocks ↔
      e.answered = true ∧
        (runTrace memoryTransition (bootMemory size swapImage) memoryEvents).1.hangs e.req = true) := by
  constructor
  · exact eventLocks_deadlocks_iff w _ event
  · exact MemoryService.eventLocks_deadlocks_iff _ e

/-- A program that calls exec. -/
def execAgain : List UInt8 := mov 0 101 ++ int80

/-- Process 2 starts the program. -/
def execAgainEvents : List Event :=
  [.envelope (.process (.forkProcess 0)) false, .envelope (.process (.execProcess 2 "a" [] none)) false]

/-- The only frame goes from process 1 to process 2, and is freed. -/
def swappedThenFreed : List MemoryEvent :=
  [⟨HashOrder.stored, .pageFaultHandler 1 0x1000 .read, true⟩,
    ⟨HashOrder.stored, .pageFaultHandler 2 0x1000 .read, true⟩,
    ⟨HashOrder.stored, .freeFrame 0, false⟩]

/-- The timer waits for itself when process 2 calls exec, the memory service when process 1 wants its
page back. -/
theorem exec_and_fault_deadlock :
    ((run (World.calm execAgain) (bootMemory 16384 fun _ => 0) execAgainEvents).1.eventLocks
      (World.calm execAgain) .timer).Deadlocks ∧
    ((runTrace memoryTransition (bootMemory 4096 fun _ => 0) swappedThenFreed).1.eventLocks
      ⟨HashOrder.stored, .pageFaultHandler 1 0x1000 .read, true⟩).Deadlocks := by
  constructor
  · decide +kernel
  · have hangs : (runTrace memoryTransition (bootMemory 4096 fun _ => 0) swappedThenFreed).1.hangs
        (.pageFaultHandler 1 0x1000 .read) = true := by
      rw [bootMemory_eq]
      decide +kernel
    exact (MemoryService.eventLocks_deadlocks_iff _ _).2 ⟨rfl, hangs⟩

end GenshinOs.Process
