import GenshinOs.Process.Grants
import GenshinOs.Process.Steps

/-!
# The memory service in a run

Whatever the process service does, the memory service changes in two ways only: it handles messages,
and bytes are stored through the MMU. `Touched` is the closure of the two; `run_touched` says that it
relates the memory service at boot to the one in every state of every run, so that what requests and
stores keep holds throughout.
-/

set_option autoImplicit false

namespace GenshinOs.Process

open GenshinOs.Lib GenshinOs.Hardware GenshinOs.Memory

open Machine

/-- Same tables over a memory of the same size: only bytes differ. -/
structure SameTables (m m' : MMU) : Prop where
  pageTables_eq : m'.pageTables = m.pageTables
  pageSize_eq : m'.pageSize = m.pageSize
  size_eq : m'.memory.size = m.memory.size

/-- Nothing differs from itself. -/
theorem SameTables.refl (m : MMU) : SameTables m m := ⟨rfl, rfl, rfl⟩

/-- Stores one after the other. -/
theorem SameTables.trans {m m' m'' : MMU} (h : SameTables m m') (h' : SameTables m' m'') :
    SameTables m m'' :=
  ⟨h'.pageTables_eq.trans h.pageTables_eq, h'.pageSize_eq.trans h.pageSize_eq,
    h'.size_eq.trans h.size_eq⟩

/-- The same pages are mapped. -/
theorem SameTables.mapped_eq {m m' : MMU} (h : SameTables m m') (pid : Pid) (page : VirtAddr) :
    m'.mapped pid page = m.mapped pid page := by
  rw [MMU.mapped, h.pageTables_eq]
  rfl

/-- A loop of stores. -/
theorem SameTables.foldl {α : Type} {f : MMU → α → MMU} (hf : ∀ m a, SameTables m (f m a))
    (l : List α) (m : MMU) : SameTables m (l.foldl f m) := by
  induction l generalizing m with
  | nil => exact SameTables.refl m
  | cons a l ih => exact (hf m a).trans (ih (f m a))

/-- A store of a byte, also one that fails, keeps the tables. -/
theorem sameTables_writeU8Lossy (m : MMU) (pid : Pid) (vaddr : VirtAddr) (value : UInt8) :
    SameTables m (m.writeU8Lossy pid vaddr value) := by
  obtain ⟨htables, hps, hsize⟩ := m.writeU8Lossy_tables pid vaddr value
  exact ⟨htables, hps, hsize⟩

/-- So does a store of several bytes, -/
theorem sameTables_writeBytes (m : MMU) (pid : Pid) (vaddr : VirtAddr) (data : List UInt8) :
    SameTables m (m.writeBytes pid vaddr data) := by
  rw [MMU.writeBytes]
  apply SameTables.foldl
  intro m e
  exact sameTables_writeU8Lossy m pid _ e.1

/-- and the copy of a page from one process to another. -/
theorem sameTables_copyPage (m : MMU) (fromPid toPid : Pid) (vaddr : VirtAddr) :
    SameTables m (copyPage m fromPid toPid vaddr) := by
  refine SameTables.foldl ?_ _ m
  intro m o
  split
  · exact sameTables_writeU8Lossy m toPid _ _
  · exact SameTables.refl m

/-- What messages and stores make of a memory service. -/
inductive Touched (m : MemoryService) : MemoryService → Prop
  | refl : Touched m m
  | serve {m' : MemoryService} (ord : HashOrder) (msg : MemoryRequest × Bool) :
      Touched m m' → Touched m (serve ord m' msg)
  | store {m' : MemoryService} {mmu : MMU} (hsame : SameTables m'.mmu mmu) :
      Touched m m' → Touched m { m' with mmu := mmu }

namespace Touched

variable {m m' m'' : MemoryService}

/-- What is done to a service that something was done to. -/
theorem trans (h : Touched m m') (h' : Touched m' m'') : Touched m m'' := by
  induction h' with
  | refl => exact h
  | serve ord msg _ ih => exact ih.serve ord msg
  | store hsame _ ih => exact ih.store hsame

/-- The messages of a queue, one after the other. -/
theorem foldl_serve (ord : HashOrder) (queue : List (MemoryRequest × Bool)) (h : Touched m m') :
    Touched m (queue.foldl (Machine.serve ord) m') := by
  induction queue generalizing m' with
  | nil => exact h
  | cons msg queue ih => exact ih (h.serve ord msg)

end Touched

/-- The memory service of one machine after that of another. -/
def Machine.Touches (s s' : Machine) : Prop := Touched s.memory s'.memory

/-- What the operations of the service are made of, as far as the memory service and the numbers of the
requests go: work that concerns neither, a request to the memory service, messages that it handles in the
meantime, and stores through the MMU. -/
inductive Machine.Works (w : World) : Machine → Machine → Prop
  | aside {s s' : Machine} (hmemory : s'.memory = s.memory) (hid : s'.nextRequestId = s.nextRequestId) :
      Works w s s'
  | requestMemory (s : Machine) (req : MemoryRequest) : Works w s (s.requestMemory w req).2
  | background (s : Machine) : Works w s (s.background w)
  | store {s : Machine} {mmu : MMU} (hsame : SameTables s.mmu mmu) : Works w s (s.onMmu fun _ => mmu)
  | trans {s s' s'' : Machine} (h : Works w s s') (h' : Works w s' s'') : Works w s s''

namespace Machine.Works

variable {w : World} {s s' s'' : Machine}

/-- Other work before. -/
theorem after (h : Works w s' s'') (hmemory : s'.memory = s.memory)
    (hid : s'.nextRequestId = s.nextRequestId) : Works w s s'' :=
  (aside hmemory hid).trans h

/-- Other work afterwards. -/
theorem followed (h : Works w s s') (hmemory : s''.memory = s'.memory)
    (hid : s''.nextRequestId = s'.nextRequestId) : Works w s s'' :=
  h.trans (aside hmemory hid)

/-- A loop of such work. -/
theorem foldl {α : Type} {f : Machine → α → Machine} (hf : ∀ s a, Works w s (f s a)) (l : List α)
    (s : Machine) : Works w s (l.foldl f s) := by
  induction l generalizing s with
  | nil => exact aside rfl rfl
  | cons a l ih => exact (hf s a).trans (ih (f s a))

/-- Such work touches the memory service by messages and stores only. -/
theorem touches (h : Works w s s') : Touches s s' := by
  induction h with
  | aside hmemory hid =>
    rw [Touches, hmemory]
    exact Touched.refl
  | requestMemory s req =>
    simp only [Machine.requestMemory]
    split
    · exact (Touched.refl.foldl_serve _ s.memoryQueue).serve (w.order s.clock) (req, true)
    · exact Touched.refl
  | background s => exact Touched.refl.foldl_serve _ _
  | store hsame => exact Touched.refl.store hsame
  | trans h h' ih ih' => exact Touched.trans ih ih'

/-- The numbers of the requests are left to the envelopes. -/
theorem nextRequestId_eq (h : Works w s s') : s'.nextRequestId = s.nextRequestId := by
  induction h with
  | aside hmemory hid => exact hid
  | requestMemory s req =>
    simp only [Machine.requestMemory]
    split
    · rfl
    · rfl
  | background s => rfl
  | store hsame => rfl
  | trans h h' ih ih' => exact ih'.trans ih

end Machine.Works

section operations

variable (w : World) (s : Machine)

/-- A store through the MMU. -/
theorem works_onMmu {f : MMU → MMU} (hf : SameTables s.mmu (f s.mmu)) : Works w s (s.onMmu f) :=
  Works.store hf

/-- A request to the memory service whose result has a name. -/
theorem works_of_requestMemory {w : World} {s s' : Machine} {req : MemoryRequest}
    {answer : Option Answer} (h : s.requestMemory w req = (answer, s')) : Works w s s' := by
  have hasked := Works.requestMemory (w := w) s req
  rwa [h] at hasked

/-- A message that is only sent has not been handled yet. -/
theorem works_sendMemory (req : MemoryRequest) : Works w s (s.sendMemory req) := Works.aside rfl rfl

/-- Bytes that the service stores for a process. -/
theorem works_writeSliceVirt (pid : Pid) (vaddr : VirtAddr) (data : List UInt8) :
    Works w s (s.writeSliceVirt pid vaddr data) :=
  works_onMmu w s (sameTables_writeBytes _ pid vaddr data)

/-- An instruction: messages handled in the meantime, and the stores of the CPU. -/
theorem works_stepCpu (pid : Pid) (cpu : VirtualCPU) : Works w s (s.stepCpu w pid cpu).2 := by
  have hcontained := VirtualCPU.step_contained cpu (s.background w).mmu
  have hstored : Works w s ((s.background w).onMmu fun _ => (cpu.step (s.background w).mmu).mmu) :=
    (Works.background s).trans
      (Works.store ⟨hcontained.tables_eq, hcontained.pageSize_eq, hcontained.size_eq⟩)
  -- what is left is to put the CPU back into the table
  apply hstored.trans
  simp only [stepCpu]
  split
  · exact Works.aside rfl rfl
  · exact Works.aside rfl rfl
  · split
    · exact Works.aside rfl rfl
    · exact Works.aside rfl rfl

/-! ## Fork and exec -/

/-- A frame, a mapping and a copy for each page, by induction on the pages. -/
theorem works_clonePages (parent child : Pid) (entries : List (VirtAddr × PhysAddr × PageFlags)) :
    Works w s (clonePages w parent child entries s).2 := by
  induction entries generalizing s with
  | nil => exact Works.aside rfl rfl
  | cons entry rest ih =>
    obtain ⟨vaddr, paddr, flags⟩ := entry
    simp only [clonePages]
    split
    · next heq => exact works_of_requestMemory heq
    · next newFrame s' heq =>
      have hmapped := Works.requestMemory (w := w) s'
        (.mapPage child vaddr newFrame ⟨true, true, !flags.writable⟩)
      have hcopied := hmapped.trans (works_onMmu w _ (f := fun m => copyPage m parent child vaddr)
        (sameTables_copyPage _ parent child vaddr))
      exact ((works_of_requestMemory heq).trans hcopied).trans (ih _)
    · next heq => exact (works_of_requestMemory heq).trans (ih _)

/-- A fork asks for frames and copies pages. -/
theorem works_forkImpl (parent : Pid) : Works w s (s.forkImpl w parent).2 := by
  have hcloned : Works w s (clonePages w parent s.nextPid (s.mmu.getPageEntries (w.order s.clock) parent)
      s.advance).2 := (works_clonePages w s.advance parent s.nextPid _).after rfl rfl
  simp only [forkImpl]
  split
  · exact Works.aside rfl rfl
  split
  · exact Works.aside rfl rfl
  split
  · next heq =>
    rw [heq] at hcloned
    exact hcloned.followed rfl rfl
  · next heq =>
    rw [heq] at hcloned
    exact hcloned.followed rfl rfl

/-- The frames of an image are one request. -/
theorem works_allocFrames (count : Nat) (pid : Pid) : Works w s (allocFrames w s count pid).2 := by
  simp only [allocFrames]
  split
  · next heq => exact works_of_requestMemory heq
  · next heq => exact works_of_requestMemory heq
  · next heq => exact works_of_requestMemory heq

/-- The mappings of an image are a request each. -/
theorem works_mapFrames (pid : Pid) (i : Nat) (frames : List PhysAddr) :
    Works w s (mapFrames w pid i frames s) := by
  induction frames generalizing i s with
  | nil => exact Works.aside rfl rfl
  | cons addr rest ih => exact (Works.requestMemory s _).trans (ih _ (i + 1))

/-- The image and its arguments are stores. -/
theorem works_loadImage (pid : Pid) (code : List UInt8) (args : List String) :
    Works w s (loadImage s pid code args) := by
  have hcode := works_writeSliceVirt w s pid 0 code
  simp only [loadImage]
  split
  · exact hcode
  · exact hcode.trans (works_writeSliceVirt w _ pid 0x100 _)
  · exact (hcode.trans (works_writeSliceVirt w _ pid 0x100 _)).trans
      (works_writeSliceVirt w _ pid 0x200 _)

/-- An exec unmaps pages, asks for frames, maps them and stores the image. -/
theorem works_execImpl (pid : Pid) (executable : String) (args : List String) :
    Works w s (s.execImpl w pid executable args).2 := by
  simp only [execImpl]
  split
  · exact Works.aside rfl rfl
  split
  · exact Works.aside rfl rfl
  next code _ =>
  have hsent : Works w s ((s.mmu.getPageEntries (w.order s.clock) pid).foldl
      (fun s entry => s.sendMemory (.unmapPage pid entry.1)) s.advance) :=
    (Works.foldl (fun s (entry : VirtAddr × PhysAddr × PageFlags) =>
      works_sendMemory w s (.unmapPage pid entry.1)) _ s.advance).after rfl rfl
  have halloc := hsent.trans (works_allocFrames w _ ((code.length + 4095) / 4096) pid)
  split
  · next heq =>
    rw [heq] at halloc
    exact halloc
  · next frames s' heq =>
    rw [heq] at halloc
    have hloaded := (halloc.trans (works_mapFrames w s' pid 0 frames)).trans
      (works_loadImage w _ pid code args)
    exact hloaded.followed rfl rfl

/-! ## System calls -/

/-- The calls that ask for memory or give it back. -/
def SystemCall.housing : SystemCall → Bool
  | .exit _ => true
  | .fork => true
  | .exec => true
  | _ => false

/-- The requests to the memory service and their numbers stay, and bytes are copied to `0x200` at most. -/
structure Machine.Copies (s : Machine) (pid : Pid) (s' : Machine) : Prop where
  queue_eq : s'.memoryQueue = s.memoryQueue
  nextRequestId_eq : s'.nextRequestId = s.nextRequestId
  memory_eq : ∃ data, s'.memory = (s.writeSliceVirt pid 0x200 data).memory

/-- A call that stores nothing copies the empty list. -/
theorem Machine.Copies.of_eq {s s' : Machine} {pid : Pid} (hqueue : s'.memoryQueue = s.memoryQueue)
    (hid : s'.nextRequestId = s.nextRequestId) (hmemory : s'.memory = s.memory) : Copies s pid s' :=
  ⟨hqueue, hid, [], hmemory⟩

/-- The machine after a request to the file service, whatever the reply is. -/
theorem Machine.requestFile_machine {w : World} {s s' : Machine} {req : FileRequest}
    {reply : Option ResponseData} (h : s.requestFile w req = (reply, s')) :
    s' = (s.send (.file req)).advance := (congrArg Prod.snd h).symm

/-- The device service is sent the request, and time goes on. -/
theorem Machine.requestDevice_machine {w : World} {s s' : Machine} {req : DeviceRequest}
    {reply : Option ResponseData} (h : s.requestDevice w req = (reply, s')) :
    s' = (s.send (.device req)).advance := (congrArg Prod.snd h).symm

/-- A machine that differs in other things, with bytes copied to it. -/
theorem Machine.Copies.deliverBytes {s s' : Machine} {pid : Pid} {data : List UInt8}
    (hqueue : s'.memoryQueue = s.memoryQueue) (hid : s'.nextRequestId = s.nextRequestId)
    (hmemory : s'.memory = s.memory) : Copies s pid (s'.deliverBytes pid data) := by
  refine ⟨hqueue, hid, data.take (min data.length 4096), ?_⟩
  simp only [Machine.deliverBytes, setRegister, updateCpu, writeSliceVirt, onMmu, hmemory]

/-- The listing stores the text that it has built. -/
theorem copies_tree (w : World) (s : Machine) (pid : Pid) : Copies s pid (s.syscallTree w pid) := by
  have hsame := buildTreeRecursive_closed (w := w) (R := fun s s' : Machine =>
      s'.memoryQueue = s.memoryQueue ∧ s'.nextRequestId = s.nextRequestId ∧ s'.memory = s.memory)
    (fun _ => ⟨rfl, rfl, rfl⟩)
    (fun h h' => ⟨h'.1.trans h.1, h'.2.1.trans h.2.1, h'.2.2.trans h.2.2⟩)
    (fun _ _ => ⟨rfl, rfl, rfl⟩) w.treeDepth s (s.readStringVirt pid 0x100) ""
    [s.readStringVirt pid 0x100]
  exact Copies.deliverBytes hsame.1 hsame.2.1 hsame.2.2

/-- The calls that are not about memory leave the requests alone. -/
theorem copies_handleFileSyscall {w : World} {s s' : Machine} {pid : Pid} {call : SystemCall}
    (h : s.handleFileSyscall w pid call = some s') (hcall : call.housing = false) : Copies s pid s' := by
  cases call with
  | exit code => cases hcall
  | fork => cases hcall
  | exec => cases hcall
  -- a reply in time is copied to the process; without one nothing is
  | read fd len =>
    cases h
    simp only [syscallRead]
    split
    · next heq =>
      rw [requestFile_machine heq]
      exact Copies.deliverBytes rfl rfl rfl
    · next heq =>
      rw [requestFile_machine heq]
      exact Copies.of_eq rfl rfl rfl
  | listdir =>
    cases h
    simp only [syscallListdir]
    split
    · next heq =>
      rw [requestFile_machine heq]
      exact Copies.deliverBytes rfl rfl rfl
    · next heq =>
      rw [requestFile_machine heq]
      exact Copies.of_eq rfl rfl rfl
  | tree =>
    cases h
    exact copies_tree w s pid
  | deviceRead maxSize =>
    cases h
    simp only [syscallDeviceRead]
    split
    · next heq =>
      rw [requestDevice_machine heq]
      exact ⟨rfl, rfl, _, rfl⟩
    · next heq =>
      rw [requestDevice_machine heq]
      exact Copies.of_eq rfl rfl rfl
  | «open» mode =>
    cases h
    simp only [syscallOpen]
    split
    · next heq =>
      rw [requestFile_machine heq]
      exact Copies.of_eq rfl rfl rfl
    · next heq =>
      rw [requestFile_machine heq]
      exact Copies.of_eq rfl rfl rfl
  | lockRelease lockId =>
    cases h
    simp only [syscallLockRelease]
    split
    · exact Copies.of_eq rfl rfl rfl
    · exact Copies.of_eq rfl rfl rfl
  | semWait semId =>
    cases h
    simp only [syscallSemWait, sleepIf]
    split
    · exact Copies.of_eq rfl rfl rfl
    · exact Copies.of_eq rfl rfl rfl
  | lockAcquire lockId =>
    cases h
    simp only [syscallLockAcquire, sleepIf]
    split
    · exact Copies.of_eq rfl rfl rfl
    · exact Copies.of_eq rfl rfl rfl
  | printStr vaddr len =>
    simp only [handleFileSyscall, Option.ite_none_left_eq_some] at h
    cases h.2
    exact Copies.of_eq rfl rfl rfl
  | write fd len =>
    simp only [handleFileSyscall, Option.ite_none_left_eq_some] at h
    cases h.2
    exact Copies.of_eq rfl rfl rfl
  | deviceWrite size =>
    simp only [handleFileSyscall, Option.ite_none_left_eq_some] at h
    cases h.2
    exact Copies.of_eq rfl rfl rfl
  | _ =>
    cases h
    exact Copies.of_eq rfl rfl rfl

/-- A system call that comes to its end. -/
theorem works_handleFileSyscall {w : World} {s s' : Machine} {pid : Pid} {call : SystemCall}
    (h : s.handleFileSyscall w pid call = some s') : Works w s s' := by
  cases call with
  | exit code =>
    cases h
    simp only [syscallExit]
    split
    · exact Works.aside rfl rfl
    · have hsent := Works.foldl (fun s (entry : VirtAddr × PhysAddr × PageFlags) =>
        (works_sendMemory w s (.unmapPage pid entry.1)).trans (works_sendMemory w _ (.freeFrame entry.2.1)))
        (s.mmu.getPageEntries (w.order s.clock) pid) s.advance
      have hexit : Works w s _ := hsent.after rfl rfl
      exact hexit.followed rfl rfl
  | fork =>
    cases h
    have hforked := works_forkImpl w s pid
    simp only [syscallFork]
    split
    · next heq =>
      rw [heq] at hforked
      exact hforked.followed rfl rfl
    · next heq =>
      rw [heq] at hforked
      exact hforked.followed rfl rfl
  | exec =>
    cases h
    exact works_execImpl w s pid _ _
  | _ =>
    obtain ⟨-, hid, data, hmemory⟩ := copies_handleFileSyscall h rfl
    exact (works_writeSliceVirt w s pid 0x200 data).followed hmemory hid

/-! ## Runs -/

/-- The memory service, the messages on their way to it and the numbers of the requests are as before. -/
structure Machine.SameMemory (s s' : Machine) : Prop where
  queue_eq : s'.memoryQueue = s.memoryQueue
  memory_eq : s'.memory = s.memory
  id_eq : s'.nextRequestId = s.nextRequestId

/-- Work that the memory service does not see. -/
theorem Machine.SameMemory.works {w : World} {s s' : Machine} (h : SameMemory s s') : Works w s s' :=
  Works.aside h.memory_eq h.id_eq

/-- A dispatch is such work, -/
theorem sameMemory_dispatch (s : Machine) (cpuId : Fin 2) (scheduledThisTick : List Pid) :
    SameMemory s (s.dispatch cpuId scheduledThisTick).2 := by
  simp only [Machine.dispatch]
  split
  · split
    · exact ⟨rfl, rfl, rfl⟩
    · exact ⟨rfl, rfl, rfl⟩
  · exact ⟨rfl, rfl, rfl⟩

/-- so is the end of a slice, -/
theorem sameMemory_settle (s : Machine) (pid : Pid) : SameMemory s (s.settle pid) := by
  simp only [Machine.settle]
  split
  · split
    · exact ⟨rfl, rfl, rfl⟩
    · exact ⟨rfl, rfl, rfl⟩
  · exact ⟨rfl, rfl, rfl⟩

/-- every request other than fork, exec and create, -/
theorem sameMemory_handleSimpleRequest (w : World) (s : Machine) (req : ProcessRequest)
    (channel : Option RequestId) : SameMemory s (s.handleSimpleRequest w req channel).1 := by
  simp only [handleSimpleRequest]
  split <;> exact ⟨rfl, rfl, rfl⟩

/-- and every answer. -/
theorem sameMemory_finish (s : Machine) (channel : Option RequestId) (answer : Option Answer) :
    SameMemory s (s.finish channel answer) := by
  simp only [finish]
  split <;> exact ⟨rfl, rfl, rfl⟩

/-- Every operation is such work, but for the one that takes a number for a request. -/
theorem Performed.works {w : World} {s s' : Machine} {act : Act} (h : Performed w s act s') :
    Works w s s' ∨ s' = { s with nextRequestId := s.nextRequestId + 1 } := by
  cases h with
  | takeRequestId => exact Or.inr rfl
  | dispatch cpuId scheduledThisTick => exact Or.inl (sameMemory_dispatch s cpuId scheduledThisTick).works
  | step cpuId hget hrun => exact Or.inl (works_stepCpu w s _ _)
  | syscall cpuId hcall =>
    exact Or.inl ((works_handleFileSyscall hcall).after rfl rfl)
  | panic cpuId hcall => exact Or.inl (Works.aside rfl rfl)
  | @pageFault cpuId pid cpu hget hpending =>
    have hcleared : Works w s (s.updateCpu pid fun cpu => { cpu with pagefaultPending := false }) :=
      Works.aside rfl rfl
    exact Or.inl (hcleared.trans (Works.requestMemory _ _))
  | settle cpuId pid => exact Or.inl (sameMemory_settle s pid).works
  | reap cpuId =>
    simp only [Machine.reap, reapProcess]
    split
    · split
      · exact Or.inl (Works.aside rfl rfl)
      · exact Or.inl (Works.aside rfl rfl)
    · exact Or.inl (Works.aside rfl rfl)
  | fork parent => exact Or.inl (works_forkImpl w s parent)
  | exec pid executable args => exact Or.inl (works_execImpl w s pid executable args)
  | sharedSemaphores =>
    have hcreated : Works w s (s.onKernel fun k =>
        (k.handleCreateSemaphore 0 1).handleCreateSemaphore 0 1) := Works.aside rfl rfl
    exact Or.inl (hcreated.trans (Works.requestMemory _ _))
  | request req channel => exact Or.inl (sameMemory_handleSimpleRequest w s req channel).works
  | respond channel answer => exact Or.inl (sameMemory_finish s channel answer).works
  | mapShared frame pids => exact Or.inl (Works.foldl (fun s _ => Works.requestMemory s _) _ s)
  | faultMessage addr accessType => exact Or.inl (Works.aside rfl rfl)

/-- A fork touches the memory service by messages and stores only, -/
theorem touches_forkImpl (parent : Pid) : Touches s (s.forkImpl w parent).2 :=
  (works_forkImpl w s parent).touches

/-- and so does an exec. -/
theorem touches_execImpl (pid : Pid) (executable : String) (args : List String) :
    Touches s (s.execImpl w pid executable args).2 :=
  (works_execImpl w s pid executable args).touches

/-- Every operation touches the memory service by messages and stores only. -/
theorem Performed.touches {w : World} {s s' : Machine} {act : Act} (h : Performed w s act s') :
    Touches s s' := by
  rcases h.works with hworks | hnumber
  · exact hworks.touches
  · rw [hnumber]
    exact Touched.refl

end operations

/-! ## What requests and stores keep -/

/-- Whole pages in whole frames, over an allocator with a history. -/
structure Regular (size : UInt64) (manager : PhysicalMemoryManager) (mmu : MMU) : Prop where
  history : FrameHistory size manager
  pageSize_eq : mmu.pageSize = PageSize.fourK
  size_eq : mmu.memory.size = size.toNat
  entry_ok : ∀ q page entry, mmu.mapped q page = some entry →
    pageBase page = page ∧ pageBase entry.frame = entry.frame ∧ entry.flags.present = true

namespace Regular

variable {size : UInt64} {manager : PhysicalMemoryManager} {mmu : MMU}

/-- The page of an address, as the memory service and the MMU compute it. -/
theorem alignDown_eq (h : Regular size manager mmu) (addr : UInt64) :
    mmu.alignDown addr = pageBase addr := by
  rw [MMU.alignDown, h.pageSize_eq]
  rfl

/-- Frames that are given out, -/
theorem allocate (h : Regular size manager mmu) (pid : Pid) (count : Nat) :
    Regular size (manager.allocateFrames pid count).2 mmu :=
  ⟨h.history.allocate pid count, h.pageSize_eq, h.size_eq, h.entry_ok⟩

/-- and taken back, are a step of the history. -/
theorem free (h : Regular size manager mmu) (pid : Pid) (n : Nat) :
    Regular size (manager.freeFrame pid n).2 mmu :=
  ⟨h.history.free pid n, h.pageSize_eq, h.size_eq, h.entry_ok⟩

/-- Bytes are stored in the frames that there are. -/
theorem store {mmu' : MMU} (h : Regular size manager mmu) (hsame : SameTables mmu mmu') :
    Regular size manager mmu' := by
  refine ⟨h.history, hsame.pageSize_eq.trans h.pageSize_eq, hsame.size_eq.trans h.size_eq, ?_⟩
  intro q page entry hentry
  rw [hsame.mapped_eq] at hentry
  exact h.entry_ok q page entry hentry

/-- A page that is mapped is present. -/
theorem map (h : Regular size manager mmu) (pid : Pid) (vaddr : VirtAddr) (paddr : PhysAddr)
    {flags : PageFlags} (hpresent : flags.present = true) :
    Regular size manager (MemoryService.mapLossy mmu pid vaddr paddr flags) := by
  obtain ⟨hmem, hps, hmapped⟩ := MemoryService.mapLossy_spec mmu pid vaddr paddr flags
  refine ⟨h.history, hps.trans h.pageSize_eq, by rw [hmem]; exact h.size_eq, ?_⟩
  intro q page entry hentry
  rw [hmapped] at hentry
  split at hentry
  · next heq =>
    cases hentry
    rw [heq.2, h.alignDown_eq, h.alignDown_eq]
    exact ⟨PageSize.fourK.alignDown_alignDown vaddr, PageSize.fourK.alignDown_alignDown paddr, hpresent⟩
  · exact h.entry_ok q page entry hentry

/-- A page less is mapped. -/
theorem unmap {mmu' : MMU} (h : Regular size manager mmu) {pid : Pid} {vaddr : VirtAddr}
    (hunmap : mmu.unmapPage pid vaddr = .ok mmu') : Regular size manager mmu' := by
  obtain ⟨hmem, hps, hmapped⟩ := MMU.unmapPage_mapped hunmap
  refine ⟨h.history, hps.trans h.pageSize_eq, by rw [hmem]; exact h.size_eq, ?_⟩
  intro q page entry hentry
  rw [hmapped] at hentry
  split at hentry
  · cases hentry
  · exact h.entry_ok q page entry hentry

/-- Also when there was no such page. -/
theorem unmapLossy (h : Regular size manager mmu) (pid : Pid) (vaddr : VirtAddr) :
    Regular size manager (MemoryService.unmapLossy mmu pid vaddr) := by
  simp only [MemoryService.unmapLossy]
  split
  · next hunmap => exact h.unmap hunmap
  · exact h

end Regular

/-- The same for a service. -/
def RegularService (size : UInt64) (m : MemoryService) : Prop := Regular size m.memoryManager m.mmu

section handlers

variable {size : UInt64} {m : MemoryService}

/-- A frame is mapped for the page of a fault, -/
theorem regular_installFrame (h : RegularService size m) (pid : Pid) (page : VirtAddr) (frame : Frame) :
    RegularService size (m.installFrame pid page frame).service :=
  h.map pid page frame.address rfl

/-- a page is evicted for it before, -/
theorem regular_evictAndInstall (h : RegularService size m) (ord : HashOrder) (pid : Pid)
    (page : VirtAddr) : RegularService size (m.evictAndInstall ord pid page).service := by
  simp only [MemoryService.evictAndInstall]
  split
  · exact h
  next vpid vaddr vframe _ =>
  split
  · exact h
  next slot swap _ =>
  split
  · exact h
  next swap' _ =>
  have hreleased : RegularService size (MemoryService.releaseVictim
      { m with swapManager := swap' } vpid vaddr vframe slot.number) :=
    (h.unmapLossy vpid vaddr).free vpid (vframe.toNat / 4096)
  have hallocated := hreleased.allocate pid 1
  split
  · next heq =>
    rw [heq] at hallocated
    exact hallocated
  · next heq =>
    rw [heq] at hallocated
    apply regular_installFrame
    exact hallocated

/-- or the frame is a free one. -/
theorem regular_allocateOrEvict (h : RegularService size m) (ord : HashOrder) (pid : Pid)
    (page : VirtAddr) : RegularService size (m.allocateOrEvict ord pid page).service := by
  have hallocated := h.allocate pid 1
  simp only [MemoryService.allocateOrEvict]
  split
  · next heq =>
    rw [heq] at hallocated
    apply regular_installFrame
    exact hallocated
  · next heq =>
    rw [heq] at hallocated
    apply regular_evictAndInstall
    exact hallocated

/-- The handler of a fault keeps frames and tables regular. -/
theorem regular_pageFault (h : RegularService size m) (ord : HashOrder) (pid : Pid) (addr : VirtAddr)
    (access : AccessType) :
    RegularService size (m.handlePageFaultWithResponse ord pid addr access).service := by
  have hallocated := h.allocate pid 1
  simp only [MemoryService.handlePageFaultWithResponse]
  split
  · exact regular_allocateOrEvict h ord pid _
  split
  · exact h
  split
  · next frame _ _ heq =>
    rw [heq] at hallocated
    exact (hallocated.map pid (pageBase addr) frame.address rfl).store
      (sameTables_writeBytes _ pid (pageBase addr) _)
  · next heq =>
    rw [heq] at hallocated
    apply regular_allocateOrEvict
    exact hallocated

/-- So do the handlers without an answer, -/
theorem regular_message (h : RegularService size m) (req : MemoryRequest) :
    RegularService size (m.handleMessage req) := by
  -- the older handlers map pages in a table of their own, which the MMU does not see
  have hmap : ∀ (m : MemoryService) pid virt phys prot, RegularService size m →
      RegularService size (m.handleMapPage pid virt phys prot).service := by
    intro m pid virt phys prot hm
    simp only [MemoryService.handleMapPage]
    split <;> exact hm
  cases req with
  | allocFrame count pid => exact h.allocate pid count
  | freeFrame paddr => exact h.free 0 _
  | mapPage pid virt phys prot => exact hmap m pid virt phys prot h
  | unmapPage pid virt =>
    simp only [MemoryService.handleMessage, MemoryService.handleMemoryRequest,
      MemoryService.handleUnmapPage]
    split
    · next hunmap => exact h.unmap hunmap
    · exact h
  | pageFaultHandler pid addr access =>
    -- a fault takes a frame first, and keeps it when it cannot be mapped
    have hallocated := h.allocate pid 1
    simp only [MemoryService.handleMessage, MemoryService.handleMemoryRequest,
      MemoryService.handlePageFault]
    split
    · exact h
    split
    · exact h
    split
    · next heq =>
      rw [heq] at hallocated
      split <;> exact hallocated
    · next heq =>
      rw [heq] at hallocated
      exact hmap _ _ _ _ _ hallocated
  | swapOut pid virt =>
    simp only [MemoryService.handleMessage, MemoryService.handleMemoryRequest,
      MemoryService.handleSwapOut]
    split
    · exact h
    · split <;> exact h
  | swapIn pid virt =>
    simp only [MemoryService.handleMessage, MemoryService.handleMemoryRequest,
      MemoryService.handleSwapIn]
    split <;> exact h
  | getStats => exact h
  | getFrameMap => exact h

/-- and those with one. -/
theorem regular_envelope (h : RegularService size m) (ord : HashOrder) (req : MemoryRequest) :
    RegularService size (m.handleEnvelope ord req).1 := by
  rw [handleEnvelope_service]
  cases req with
  | allocFrame count pid =>
    simp only [MemoryService.handleMemoryRequestWithResponse,
      MemoryService.handleAllocFrameWithResponse]
    split <;> exact h.allocate pid count
  | freeFrame paddr =>
    simp only [MemoryService.handleMemoryRequestWithResponse,
      MemoryService.handleFreeFrameWithResponse]
    split <;> exact h.free 0 _
  | mapPage pid virt phys prot => exact h.map pid virt phys rfl
  | unmapPage pid virt =>
    simp only [MemoryService.handleMemoryRequestWithResponse,
      MemoryService.handleUnmapPageWithResponse]
    split
    · next hunmap => exact h.unmap hunmap
    · exact h
  | pageFaultHandler pid addr access => exact regular_pageFault h ord pid addr access
  | swapOut pid virt =>
    simp only [MemoryService.handleMemoryRequestWithResponse,
      MemoryService.handleSwapOutWithResponse]
    split
    · exact h
    split
    · exact h
    · split <;> exact h
  | swapIn pid virt =>
    simp only [MemoryService.handleMemoryRequestWithResponse,
      MemoryService.handleSwapInWithResponse]
    split
    · exact h
    split
    · exact h
    split
    · exact h
    split
    · exact h
    -- the page is copied to memory, whose size stays
    · next hwrite =>
      refine h.store ⟨rfl, rfl, ?_⟩
      simp only [PhysicalMemory.writeSlice] at hwrite
      split at hwrite
      · cases hwrite
      · cases hwrite
        rfl
  | getStats => exact h
  | getFrameMap => exact h

/-- A message of the queue is of one kind or the other. -/
theorem regular_serve (h : RegularService size m) (ord : HashOrder) (msg : MemoryRequest × Bool) :
    RegularService size (serve ord m msg) := by
  simp only [serve]
  split
  · exact regular_envelope h ord msg.1
  · exact regular_message h msg.1

end handlers

/-- At boot no page is mapped. -/
theorem regular_boot (size : UInt64) (swapImage : Nat → UInt8) :
    RegularService size (bootMemory size swapImage) := by
  refine ⟨.new, rfl, rfl, ?_⟩
  intro q page entry hentry
  simp [bootMemory, MemoryService.new, MMU.new, MMU.mapped] at hentry

/-- Frames and tables are regular whatever messages and stores have made of the service at boot. -/
theorem Touched.regular {size : UInt64} {swapImage : Nat → UInt8} {m : MemoryService}
    (h : Touched (bootMemory size swapImage) m) : RegularService size m := by
  induction h with
  | refl => exact regular_boot size swapImage
  | serve ord msg _ ih => exact regular_serve ih ord msg
  | store hsame _ ih => exact ih.store hsame

/-- The memory service of a machine comes from a given one. -/
def Machine.ComesFrom (memory : MemoryService) (s : Machine) : Prop := Touched memory s.memory

/-- In every state of a run, the memory service comes from the one at boot. -/
theorem run_touched (w : World) (memory : MemoryService) (events : List Event) :
    (run w memory events).1.ComesFrom memory ∧
      ∀ t ∈ (run w memory events).2, t.pre.ComesFrom memory := by
  have hboot : (boot w memory).ComesFrom memory := touches_forkImpl w (Machine.new memory) 0
  have htraced := run_traced w memory events
  have hinv := htraced.chain.invariant hboot
    fun t ht hpre => Touched.trans hpre (htraced.performed t ht).touches
  exact ⟨hinv.1, fun t ht => (hinv.2 t ht).1⟩

end GenshinOs.Process
