import GenshinOs.Process.Lifecycle

/-!
# System calls

The system calls of programs (`handle_file_syscall` in `src/services/process/service.rs`). The timer
loop runs them while it holds the table of CPUs; here every lock succeeds, except that the
non-blocking attempt of `sem_signal` to take that table fails as it does in the timer loop.

`SystemCall.Effect` says for each call what it does to the tables and to the halted flags of the
CPUs; the proofs about runs use it and never unfold a call.
-/

set_option autoImplicit false

namespace GenshinOs.Process

open GenshinOs.Lib GenshinOs.Hardware GenshinOs.Memory

/-- System calls, as the registers select them. -/
inductive SystemCall where
  | exit (code : UInt64)
  | printChar (value : UInt64)
  | printStr (vaddr len : UInt64)
  | open (mode : UInt64)
  | close (fd : UInt64)
  | read (fd len : UInt64)
  | write (fd len : UInt64)
  | mkdir
  | unlink
  | stat
  | listdir
  | fork
  | exec
  | tree
  | semCreate
  | semWait (semId : UInt64)
  | semSignal (semId : UInt64)
  | lockCreate
  | lockAcquire (lockId : UInt64)
  | lockRelease (lockId : UInt64)
  | deviceOpen
  | deviceClose
  | deviceRead (maxSize : UInt64)
  | deviceWrite (size : UInt64)
  | unknown
  deriving DecidableEq, Repr

/-- The dispatch table. -/
def SystemCall.decode (r0 r1 r2 : UInt64) : SystemCall :=
  match r0.toNat with
  | 0 => .exit r1
  | 1 => .printChar r1
  | 2 => .printStr r1 r2
  | 10 => .open r1
  | 11 => .close r1
  | 12 => .read r1 r2
  | 13 => .write r1 r2
  | 14 => .mkdir
  | 16 => .unlink
  | 17 => .stat
  | 18 => .listdir
  | 100 => .fork
  | 101 => .exec
  | 102 => .tree
  | 200 => .semCreate
  | 201 => .semWait r1
  | 202 => .semSignal r1
  | 203 => .lockCreate
  | 204 => .lockAcquire r1
  | 205 => .lockRelease r1
  | 208 => .deviceOpen
  | 209 => .deviceClose
  | 210 => .deviceRead r1
  | 211 => .deviceWrite r2
  | _ => .unknown

namespace Machine

variable (w : World) (s : Machine) (pid : Pid)

/-! ## Lifecycle -/

/-- Exit. The messages that free the pages are not answered. -/
def syscallExit (exitCodeRaw : UInt64) : Machine :=
  if pid = 1 then s
  else
    let entries := s.mmu.getPageEntries (w.order s.clock) pid
    let freed := entries.foldl (fun s entry =>
      (s.sendMemory (.unmapPage pid entry.1)).sendMemory (.freeFrame entry.2.1)) s.advance
    (freed.onKernel fun k => k.exit pid (exitCodeOf exitCodeRaw)).updateCpu pid VirtualCPU.halt

/-! ## Files -/

/-- Write a result into a register of the calling process. -/
def setRegister (reg : Register) (value : UInt64) : Machine :=
  s.updateCpu pid fun cpu => cpu.writeRegister reg value

/-- Put bytes at `0x200`, at most a page of them, and their number into `R2`. -/
def deliverBytes (data : List UInt8) : Machine :=
  let len := min data.length 4096
  (s.writeSliceVirt pid 0x200 (data.take len)).setRegister pid .r2 (UInt64.ofNat len)

/-- The path that the calling process has put at `0x100`. -/
def getSyscallPath : String := s.readStringVirt pid 0x100

/-- Open the path, for reading or to create it. Without an answer `R1` stays as it is. -/
def syscallOpen (r1 : UInt64) : Machine :=
  let flags := if r1 = 0 then OpenFlags.readOnly else OpenFlags.forCreate
  match s.requestFile w (.open (s.getSyscallPath pid) flags) with
  | (some (.fd fd), s) => s.setRegister pid .r1 (UInt64.ofNat fd)
  | (_, s) => s

/-- Read at most a page from a file, and deliver it. Without an answer nothing is delivered. -/
def syscallRead (r1 r2 : UInt64) : Machine :=
  match s.requestFile w (.read r1.toUInt32 0 0 (min r2.toNat 4096)) with
  | (some (.bytes data), s) => s.deliverBytes pid data
  | (_, s) => s

/-- A buffer of more than `isize::MAX` bytes cannot be made: the call panics. -/
def bufferTooLarge (len : UInt64) : Bool := decide (2 ^ 63 ≤ len.toNat)

/-- Send the bytes at `0x200` to a file. Nobody waits for the answer. -/
def syscallWrite (r1 r2 : UInt64) : Machine :=
  s.send (.file (.writeData r1.toUInt32 (s.readBytesVirt pid 0x200 r2.toNat)))

/-- Deliver the names in a directory, one on each line. -/
def syscallListdir : Machine :=
  match s.requestFile w (.listDir (s.getSyscallPath pid)) with
  | (some (.stringList entries), s) =>
    s.deliverBytes pid (textBytes (String.intercalate "\n" entries))
  | (_, s) => s

/-- The lines below a directory. The depth bounds the recursion, which ends when the file service
lists no further directories. -/
def buildTreeRecursive : Nat → Machine → String → String → List String → Machine × List String
  | 0, s, _, _, result => (s, result)
  | depth + 1, s, path, indent, result =>
    match s.requestFile w (.listDir path) with
    | (some (.stringList listed), s) =>
      let entries := listed.mergeSort fun a b => decide (a ≤ b)
      (entries.zipIdx).foldl (fun acc entry =>
        let isLast := entry.2 + 1 = entries.length
        let epath := if path = "/" then "/" ++ entry.1 else path ++ "/" ++ entry.1
        let line := indent ++ (if isLast then "└── " else "├── ") ++ entry.1
        let newIndent := indent ++ (if isLast then "    " else "│   ")
        buildTreeRecursive depth acc.1 epath newIndent (acc.2 ++ [line])) (s, result)
    | (_, s) => (s, result)

/-- Deliver the tree below the path. -/
def syscallTree : Machine :=
  let path := s.readStringVirt pid 0x100
  let tree := buildTreeRecursive w w.treeDepth s path "" [path]
  tree.1.deliverBytes pid (textBytes (String.intercalate "\n" tree.2))

/-! ## Processes -/

/-- The parent gets the number of the child, or 0 when there is none. -/
def syscallFork : Machine :=
  match s.forkImpl w pid with
  | (.ok child, s) => s.setRegister pid .r0 (UInt64.ofNat child)
  | (.error _, s) => s.setRegister pid .r0 0

/-- Load the program of the path. A failure is not reported. -/
def syscallExec : Machine := (s.execImpl w pid (s.readStringVirt pid 0x100) []).2

/-! ## Synchronisation -/

/-- A new semaphore with one token; its number goes into `R1`. -/
def syscallSemCreate : Machine :=
  let semId := s.syncManager.nextSemId
  (s.onKernel fun k => k.handleCreateSemaphore pid 1).setRegister pid .r1 (UInt64.ofNat semId)

/-- A call that may put its process to sleep. -/
def sleepIf (call : Bool × Kernel) : Machine :=
  let called := s.onKernel fun _ => call.2
  if call.1 then called.updateCpu pid VirtualCPU.halt else called

/-- Take a token, or sleep. -/
def syscallSemWait (semId : UInt64) : Machine := s.sleepIf pid (s.toKernel.semWait pid semId.toNat)

/-- The CPU of the woken process stays halted: the table of CPUs is taken. -/
def syscallSemSignal (semId : UInt64) : Machine :=
  (s.onKernel fun k => k.semSignal (w.order s.clock) semId.toNat).advance

/-- A new mutex; its number goes into `R1`. -/
def syscallLockCreate : Machine :=
  let lockId := s.syncManager.nextMutexId
  (s.onKernel fun k => k.handleCreateLock pid).setRegister pid .r1 (UInt64.ofNat lockId)

/-- Take the mutex, or sleep. -/
def syscallLockAcquire (lockId : UInt64) : Machine :=
  s.sleepIf pid (s.toKernel.lockAcquire pid lockId.toNat)

/-- A woken process repeats its call: the program counter goes back by one instruction. -/
def rewind (cpu : VirtualCPU) : VirtualCPU :=
  { cpu with halted := false, pc := if 8 ≤ cpu.pc then cpu.pc - 8 else cpu.pc }

/-- Release the mutex, or wake a waiter. For the waiter the program locks the table of CPUs, which the timer
holds, and hangs there; the model goes on. -/
def syscallLockRelease (lockId : UInt64) : Machine :=
  match s.toKernel.lockRelease (w.order s.clock) pid lockId.toNat with
  | (some waiter, k) => ((s.onKernel fun _ => k).updateCpu waiter rewind).advance
  | (none, k) => (s.onKernel fun _ => k).advance

/-! ## Devices -/

/-- Read from the clipboard to `0x200`. -/
def syscallDeviceRead (maxSize : UInt64) : Machine :=
  match s.requestDevice w (.clipboardGet maxSize.toNat) with
  | (some (.bytes data), s) =>
    (s.writeSliceVirt pid 0x200 data).setRegister pid .r2 (UInt64.ofNat data.length)
  | (_, s) => s

/-- Put the bytes at `0x200` into the clipboard. -/
def syscallDeviceWrite (size : UInt64) : Machine :=
  s.send (.device (.clipboardSet (s.readBytesVirt pid 0x200 size.toNat)))

/-! ## Dispatch -/

/-- Run a system call; `none` is a panic. -/
def handleFileSyscall : SystemCall → Option Machine
  | .exit code => some (s.syscallExit w pid code)
  | .printChar _ => some s
  | .printStr _ len => if bufferTooLarge len then none else some s
  | .open mode => some (s.syscallOpen w pid mode)
  | .close fd => some (s.send (.file (.close fd.toUInt32)))
  | .read fd len => some (s.syscallRead w pid fd len)
  | .write fd len => if bufferTooLarge len then none else some (s.syscallWrite pid fd len)
  | .mkdir => some (s.send (.file (.createDirectory (s.getSyscallPath pid))))
  | .unlink => some (s.send (.file (.unlink (s.getSyscallPath pid))))
  | .stat => some (s.send (.file (.stat (s.getSyscallPath pid))))
  | .listdir => some (s.syscallListdir w pid)
  | .fork => some (s.syscallFork w pid)
  | .exec => some (s.syscallExec w pid)
  | .tree => some (s.syscallTree w pid)
  | .semCreate => some (s.syscallSemCreate pid)
  | .semWait semId => some (s.syscallSemWait pid semId)
  | .semSignal semId => some (s.syscallSemSignal w semId)
  | .lockCreate => some (s.syscallLockCreate pid)
  | .lockAcquire lockId => some (s.syscallLockAcquire pid lockId)
  | .lockRelease lockId => some (s.syscallLockRelease w pid lockId)
  | .deviceOpen => some (s.setRegister pid .r1 0)
  | .deviceClose => some s
  | .deviceRead maxSize => some (s.syscallDeviceRead w pid maxSize)
  | .deviceWrite size => if bufferTooLarge size then none else some (s.syscallDeviceWrite pid size)
  | .unknown => some s

/-! ## Effects -/

/-- The same processes have a CPU, and the same CPUs are halted. -/
def SameHalted (c c' : CpuTable) : Prop :=
  ∀ q, (c'.get q).map VirtualCPU.halted = (c.get q).map VirtualCPU.halted

theorem SameHalted.of_eq {c c' : CpuTable} (h : c' = c) : SameHalted c c' := by
  intro q
  rw [h]

theorem sameHalted_setRegister (s : Machine) (pid : Pid) (reg : Register) (value : UInt64) :
    SameHalted s.cpus (s.setRegister pid reg value).cpus := by
  intro q
  have hget := s.cpus.get_update pid q (f := fun cpu => cpu.writeRegister reg value) fun _ => rfl
  show ((s.cpus.update pid _).get q).map VirtualCPU.halted = _
  rw [hget]
  split
  · next heq =>
    rw [heq, Option.map_map]
    rfl
  · rfl

/-- The tables stay, and the halted flags too. -/
structure Harmless (s s' : Machine) : Prop where
  toKernel : s'.toKernel = s.toKernel
  halted : SameHalted s.cpus s'.cpus

/-- The tables stay, and so do the CPUs, up to a register of the calling process. -/
structure OneRegister (s : Machine) (pid : Pid) (s' : Machine) : Prop where
  toKernel : s'.toKernel = s.toKernel
  cpus : s'.cpus = s.cpus ∨
    ∃ reg value, s'.cpus = s.cpus.update pid fun cpu => cpu.writeRegister reg value

theorem OneRegister.harmless {s s' : Machine} {pid : Pid} (h : OneRegister s pid s') :
    Harmless s s' := by
  refine ⟨h.toKernel, ?_⟩
  rcases h.cpus with hcpus | ⟨reg, value, hcpus⟩
  · exact SameHalted.of_eq hcpus
  · rw [hcpus]
    exact sameHalted_setRegister s pid reg value

theorem Quiet.oneRegister {s s' : Machine} (h : Quiet s s') (pid : Pid) : OneRegister s pid s' :=
  ⟨h.toKernel, Or.inl h.cpus⟩

theorem Quiet.setRegister {s s' : Machine} (h : Quiet s s') (pid : Pid) (reg : Register)
    (value : UInt64) : OneRegister s pid (s'.setRegister pid reg value) := by
  refine ⟨h.toKernel, Or.inr ⟨reg, value, ?_⟩⟩
  rw [← h.cpus]
  rfl

theorem Quiet.deliverBytes {s s' : Machine} (h : Quiet s s') (pid : Pid) (data : List UInt8) :
    OneRegister s pid (s'.deliverBytes pid data) :=
  (h.trans (quiet_writeSliceVirt s' pid 0x200 _)).setRegister pid .r2 _

theorem quiet_of_requestFile {w : World} {s s' : Machine} {req : FileRequest}
    {reply : Option ResponseData} (h : s.requestFile w req = (reply, s')) : Quiet s s' := by
  have hquiet := quiet_requestFile w s req
  rwa [h] at hquiet

theorem quiet_of_requestDevice {w : World} {s s' : Machine} {req : DeviceRequest}
    {reply : Option ResponseData} (h : s.requestDevice w req = (reply, s')) : Quiet s s' := by
  have hquiet := quiet_requestDevice w s req
  rwa [h] at hquiet

/-- What every request to the file service keeps, the listing of a tree keeps. -/
theorem buildTreeRecursive_closed {R : Machine → Machine → Prop} (hrefl : ∀ s, R s s)
    (htrans : ∀ {s s' s''}, R s s' → R s' s'' → R s s'') {w : World}
    (hask : ∀ s req, R s (s.requestFile w req).2) (depth : Nat) (s : Machine) (path indent : String)
    (result : List String) : R s (buildTreeRecursive w depth s path indent result).1 := by
  induction depth generalizing s path indent result with
  | zero => exact hrefl s
  | succ depth ih =>
    simp only [buildTreeRecursive]
    split
    · next listed s' heq =>
      obtain rfl : (s.requestFile w (.listDir path)).2 = s' := congrArg Prod.snd heq
      -- the loop over the entries only adds recursive calls
      have hloop : ∀ (l : List (String × Nat)) (f : Machine × List String → String × Nat →
          Machine × List String) (acc : Machine × List String),
          (∀ acc e, R acc.1 (f acc e).1) → R acc.1 (l.foldl f acc).1 := by
        intro l f acc hf
        induction l generalizing acc with
        | nil => exact hrefl acc.1
        | cons e l ihl => exact htrans (hf acc e) (ihl (f acc e))
      apply htrans (hask s (.listDir path))
      apply hloop _ _ ((s.requestFile w (.listDir path)).2, result)
      intro acc e
      exact ih _ _ _ _
    · next reply s' _ heq =>
      obtain rfl : (s.requestFile w (.listDir path)).2 = s' := congrArg Prod.snd heq
      exact hask s (.listDir path)

theorem quiet_buildTreeRecursive (w : World) (depth : Nat) (s : Machine) (path indent : String)
    (result : List String) : Quiet s (buildTreeRecursive w depth s path indent result).1 :=
  buildTreeRecursive_closed Quiet.refl Quiet.trans (quiet_requestFile w) depth s path indent result

end Machine

/-- The calls that touch neither the tables nor a halted flag. -/
def SystemCall.isQuiet : SystemCall → Bool
  | .exit _ => false
  | .fork => false
  | .exec => false
  | .semCreate => false
  | .semWait _ => false
  | .semSignal _ => false
  | .lockCreate => false
  | .lockAcquire _ => false
  | .lockRelease _ => false
  | _ => true

open Machine in
/-- What a system call does. -/
inductive SystemCall.Effect (s : Machine) (pid : Pid) : SystemCall → Machine → Prop
  | quiet {call : SystemCall} {s' : Machine} (hcall : call.isQuiet = true) (h : Harmless s s') :
      Effect s pid call s'
  | initExit {code : UInt64} (hpid : pid = 1) : Effect s pid (.exit code) s
  | exit {code : UInt64} {s' : Machine} (hpid : pid ≠ 1)
      (hk : s'.toKernel = s.toKernel.exit pid (exitCodeOf code))
      (hcpus : s'.cpus = s.cpus.update pid VirtualCPU.halt) : Effect s pid (.exit code) s'
  | fork {r : Except ServiceError Pid} {s' s'' : Machine} (h : Forked s pid (r, s'))
      (h' : Harmless s' s'') : Effect s pid .fork s''
  | exec {name : String} {r : Except ServiceError Unit} {s' : Machine}
      (h : Execed s pid name [] (r, s')) : Effect s pid .exec s'
  | semCreate {s' : Machine} (hk : s'.toKernel = s.toKernel.handleCreateSemaphore pid 1)
      (hhalted : SameHalted s.cpus s'.cpus) : Effect s pid .semCreate s'
  | semWait {semId : UInt64} {s' : Machine} (hk : s'.toKernel = (s.toKernel.semWait pid semId.toNat).2)
      (hcpus : s'.cpus = if (s.toKernel.semWait pid semId.toNat).1
        then s.cpus.update pid VirtualCPU.halt else s.cpus) : Effect s pid (.semWait semId) s'
  | semSignal {semId : UInt64} {s' : Machine} (ord : HashOrder)
      (hk : s'.toKernel = s.toKernel.semSignal ord semId.toNat) (hcpus : s'.cpus = s.cpus) :
      Effect s pid (.semSignal semId) s'
  | lockCreate {s' : Machine} (hk : s'.toKernel = s.toKernel.handleCreateLock pid)
      (hhalted : SameHalted s.cpus s'.cpus) : Effect s pid .lockCreate s'
  | lockAcquire {lockId : UInt64} {s' : Machine}
      (hk : s'.toKernel = (s.toKernel.lockAcquire pid lockId.toNat).2)
      (hcpus : s'.cpus = if (s.toKernel.lockAcquire pid lockId.toNat).1
        then s.cpus.update pid VirtualCPU.halt else s.cpus) : Effect s pid (.lockAcquire lockId) s'
  | lockRelease {lockId : UInt64} {s' : Machine} (ord : HashOrder)
      (hk : s'.toKernel = (s.toKernel.lockRelease ord pid lockId.toNat).2)
      (hcpus : s'.cpus = match (s.toKernel.lockRelease ord pid lockId.toNat).1 with
        | some waiter => s.cpus.update waiter rewind
        | none => s.cpus) : Effect s pid (.lockRelease lockId) s'

namespace Machine

theorem sleepIf_cpus (s : Machine) (pid : Pid) (call : Bool × Kernel) :
    (s.sleepIf pid call).cpus =
      if call.1 then s.cpus.update pid VirtualCPU.halt else s.cpus := by
  simp only [sleepIf]
  split <;> rfl

theorem sleepIf_toKernel (s : Machine) (pid : Pid) (call : Bool × Kernel) :
    (s.sleepIf pid call).toKernel = call.2 := by
  simp only [sleepIf]
  split <;> rfl

theorem syscallExit_effect (w : World) (s : Machine) (pid : Pid) (code : UInt64) :
    SystemCall.Effect s pid (.exit code) (s.syscallExit w pid code) := by
  simp only [syscallExit]
  split
  · next hpid => exact .initExit hpid
  · next hpid =>
    have hfreed : Quiet s ((s.mmu.getPageEntries (w.order s.clock) pid).foldl (fun s entry =>
        (s.sendMemory (.unmapPage pid entry.1)).sendMemory (.freeFrame entry.2.1)) s.advance) :=
      (quiet_advance s).trans (Quiet.foldl
        (fun s _ => (quiet_sendMemory s _).trans (quiet_sendMemory _ _)) _ _)
    refine .exit hpid ?_ ?_
    · exact congrArg (fun k => Kernel.exit k pid (exitCodeOf code)) hfreed.toKernel
    · exact congrArg (fun c => CpuTable.update c pid VirtualCPU.halt) hfreed.cpus

theorem syscallFork_effect (w : World) (s : Machine) (pid : Pid) :
    SystemCall.Effect s pid .fork (s.syscallFork w pid) := by
  have hforked := forkImpl_forked w s pid
  simp only [syscallFork]
  split
  · next heq =>
    rw [heq] at hforked
    exact .fork hforked ((Quiet.refl _).setRegister pid .r0 _).harmless
  · next heq =>
    rw [heq] at hforked
    exact .fork hforked ((Quiet.refl _).setRegister pid .r0 _).harmless

theorem syscallLockRelease_effect (w : World) (s : Machine) (pid : Pid) (lockId : UInt64) :
    SystemCall.Effect s pid (.lockRelease lockId) (s.syscallLockRelease w pid lockId) := by
  apply SystemCall.Effect.lockRelease (w.order s.clock)
  · simp only [syscallLockRelease]
    split
    · next heq => rw [heq]; rfl
    · next heq => rw [heq]; rfl
  · simp only [syscallLockRelease]
    split
    · next heq => rw [heq]; rfl
    · next heq => rw [heq]; rfl

/-- The calls that touch neither the tables nor a halted flag write at most one register. -/
theorem handleFileSyscall_quiet {w : World} {s s' : Machine} {pid : Pid} {call : SystemCall}
    (hcall : call.isQuiet = true) (h : s.handleFileSyscall w pid call = some s') :
    OneRegister s pid s' := by
  cases call with
  | exit code => cases hcall
  | fork => cases hcall
  | exec => cases hcall
  | semCreate => cases hcall
  | semWait semId => cases hcall
  | semSignal semId => cases hcall
  | lockCreate => cases hcall
  | lockAcquire lockId => cases hcall
  | lockRelease lockId => cases hcall
  -- a call that would panic has no result, which leaves the other branch
  | printStr vaddr len =>
    simp only [handleFileSyscall, Option.ite_none_left_eq_some] at h
    cases h.2
    exact (Quiet.refl s).oneRegister pid
  | write fd len =>
    simp only [handleFileSyscall, Option.ite_none_left_eq_some] at h
    cases h.2
    exact (quiet_send s _).oneRegister pid
  | deviceWrite size =>
    simp only [handleFileSyscall, Option.ite_none_left_eq_some] at h
    cases h.2
    exact (quiet_send s _).oneRegister pid
  | «open» mode =>
    cases h
    simp only [syscallOpen]
    split
    · next heq => exact (quiet_of_requestFile heq).setRegister pid .r1 _
    · next heq => exact (quiet_of_requestFile heq).oneRegister pid
  | read fd len =>
    cases h
    simp only [syscallRead]
    split
    · next heq => exact (quiet_of_requestFile heq).deliverBytes pid _
    · next heq => exact (quiet_of_requestFile heq).oneRegister pid
  | listdir =>
    cases h
    simp only [syscallListdir]
    split
    · next heq => exact (quiet_of_requestFile heq).deliverBytes pid _
    · next heq => exact (quiet_of_requestFile heq).oneRegister pid
  | tree =>
    cases h
    exact (quiet_buildTreeRecursive w _ s _ _ _).deliverBytes pid _
  | deviceRead maxSize =>
    cases h
    simp only [syscallDeviceRead]
    split
    · next heq =>
      exact ((quiet_of_requestDevice heq).trans (quiet_writeSliceVirt _ _ _ _)).setRegister pid .r2 _
    · next heq => exact (quiet_of_requestDevice heq).oneRegister pid
  | deviceOpen =>
    cases h
    exact (Quiet.refl s).setRegister pid .r1 0
  | printChar value =>
    cases h
    exact (Quiet.refl s).oneRegister pid
  | close fd =>
    cases h
    exact (quiet_send s _).oneRegister pid
  | mkdir =>
    cases h
    exact (quiet_send s _).oneRegister pid
  | unlink =>
    cases h
    exact (quiet_send s _).oneRegister pid
  | stat =>
    cases h
    exact (quiet_send s _).oneRegister pid
  | deviceClose =>
    cases h
    exact (Quiet.refl s).oneRegister pid
  | unknown =>
    cases h
    exact (Quiet.refl s).oneRegister pid

/-- Every system call that returns has its effect. -/
theorem handleFileSyscall_effect {w : World} {s s' : Machine} {pid : Pid} {call : SystemCall}
    (h : s.handleFileSyscall w pid call = some s') : SystemCall.Effect s pid call s' := by
  cases call with
  | exit code =>
    cases h
    exact syscallExit_effect w s pid code
  | fork =>
    cases h
    exact syscallFork_effect w s pid
  | exec =>
    cases h
    exact .exec (execImpl_execed w s pid _ [])
  | semCreate =>
    cases h
    exact .semCreate rfl (sameHalted_setRegister (s.onKernel _) pid .r1 _)
  | semWait semId =>
    cases h
    exact .semWait (sleepIf_toKernel s pid _) (sleepIf_cpus s pid _)
  | semSignal semId =>
    cases h
    exact .semSignal (w.order s.clock) rfl rfl
  | lockCreate =>
    cases h
    exact .lockCreate rfl (sameHalted_setRegister (s.onKernel _) pid .r1 _)
  | lockAcquire lockId =>
    cases h
    exact .lockAcquire (sleepIf_toKernel s pid _) (sleepIf_cpus s pid _)
  | lockRelease lockId =>
    cases h
    exact syscallLockRelease_effect w s pid lockId
  | _ => exact .quiet rfl (handleFileSyscall_quiet rfl h).harmless

end Machine

end GenshinOs.Process
