import GenshinOs.Process.Leaks

/-!
# Page faults of programs

From the fault in the CPU to the mapping in the MMU. The CPU knows the address of the fault and puts
the program counter back; the timer loop asks the memory service for the page of the program counter.
When this is the page of the fault, the page gets a frame and nothing else changes. When it is not,
the page of the fault stays unmapped, and the page of the instruction, which was there, is replaced.
-/

set_option autoImplicit false

namespace GenshinOs.Process

open GenshinOs.Lib GenshinOs.Hardware GenshinOs.Memory

/-- The address at which the next step of a running CPU faults. -/
def faultAddr (cpu : VirtualCPU) (m : MMU) : Option VirtAddr :=
  match VirtualCPU.fetchInstruction m cpu with
  | (.error (.pageFault vaddr _), _) => some vaddr
  | (.error _, _) => none
  | (.ok instr, cpu') =>
    match (cpu'.executeInstruction m instr).result with
    | .error (.pageFault vaddr _) => some vaddr
    | _ => none

/-- A step that faults leaves everything but the mark as it was. -/
theorem step_of_faultAddr {cpu : VirtualCPU} {m : MMU} {vaddr : VirtAddr}
    (hrunning : cpu.halted = false) (hready : cpu.pagefaultPending = false)
    (hfault : faultAddr cpu m = some vaddr) :
    cpu.step m = ⟨.ok (), { cpu with pagefaultPending := true }, m⟩ := by
  have hpending : (cpu.step m).cpu.pagefaultPending = true := by
    rw [VirtualCPU.step, if_neg (by rw [hrunning]; exact Bool.false_ne_true),
      if_neg (by rw [hready]; exact Bool.false_ne_true)]
    rw [faultAddr] at hfault
    rcases hfetch : VirtualCPU.fetchInstruction m cpu with ⟨_ | instr, cpu'⟩ <;> rw [hfetch] at hfault
    · rename_i error
      cases error with
      | pageFault _ _ => rfl
      | _ => cases hfault
    · rcases hexec : cpu'.executeInstruction m instr with ⟨_ | _, cpu'', m'⟩
      · rename_i error
        simp only [hexec] at hfault ⊢
        cases error with
        | pageFault _ _ => rfl
        | _ => cases hfault
      · simp only [hexec] at hfault
        cases hfault
  rcases VirtualCPU.step_fault_cases m hrunning hready with hfaulted | hunmarked
  · exact hfaulted
  · rw [hunmarked] at hpending
    cases hpending

/-! ## The handler -/

section handler

variable {m : MemoryService}

/-- Every mapping afterwards was there before, except for that of the given page. -/
def MapsOnly (mmu mmu' : MMU) (pid : Pid) (page : VirtAddr) : Prop :=
  ∀ q v entry, mmu'.mapped q v = some entry → (q = pid ∧ v = page) ∨ mmu.mapped q v = some entry

theorem MapsOnly.refl (mmu : MMU) (pid : Pid) (page : VirtAddr) : MapsOnly mmu mmu pid page :=
  fun _ _ _ hentry => Or.inr hentry

theorem MapsOnly.trans {mmu mmu' mmu'' : MMU} {pid : Pid} {page : VirtAddr}
    (h : MapsOnly mmu mmu' pid page) (h' : MapsOnly mmu' mmu'' pid page) :
    MapsOnly mmu mmu'' pid page := by
  intro q v entry hentry
  rcases h' q v entry hentry with heq | hbefore
  · exact Or.inl heq
  · exact h q v entry hbefore

theorem pageBase_pageBase (addr : VirtAddr) : pageBase (pageBase addr) = pageBase addr :=
  PageSize.fourK.alignDown_alignDown addr

theorem mapsOnly_mapLossy {mmu : MMU} (hps : mmu.pageSize = PageSize.fourK) (pid : Pid)
    (addr : VirtAddr) (paddr : PhysAddr) (flags : PageFlags) :
    MapsOnly mmu (MemoryService.mapLossy mmu pid (pageBase addr) paddr flags) pid (pageBase addr) := by
  intro q v entry hentry
  obtain ⟨-, -, hmapped⟩ := MemoryService.mapLossy_spec mmu pid (pageBase addr) paddr flags
  rw [hmapped, MMU.alignDown, hps] at hentry
  split at hentry
  · next heq => exact Or.inl ⟨heq.1, heq.2.trans (pageBase_pageBase addr)⟩
  · exact Or.inr hentry

theorem unmapLossy_only (mmu : MMU) (vpid : Pid) (vaddr : VirtAddr) (pid : Pid) (page : VirtAddr) :
    MapsOnly mmu (MemoryService.unmapLossy mmu vpid vaddr) pid page ∧
      (MemoryService.unmapLossy mmu vpid vaddr).pageSize = mmu.pageSize := by
  simp only [MemoryService.unmapLossy]
  split
  · next mmu' hunmap =>
    obtain ⟨-, hps, hmapped⟩ := MMU.unmapPage_mapped hunmap
    refine ⟨fun q v entry hentry => ?_, hps⟩
    rw [hmapped] at hentry
    split at hentry
    · cases hentry
    · exact Or.inr hentry
  · exact ⟨MapsOnly.refl mmu pid page, rfl⟩

theorem evictAndInstall_mapsOnly (hps : m.mmu.pageSize = PageSize.fourK) (ord : HashOrder) (pid : Pid)
    (addr : VirtAddr) :
    MapsOnly m.mmu (m.evictAndInstall ord pid (pageBase addr)).service.mmu pid (pageBase addr) := by
  simp only [MemoryService.evictAndInstall]
  split
  · exact MapsOnly.refl m.mmu pid _
  next vpid vaddr vframe _ =>
  split
  · exact MapsOnly.refl m.mmu pid _
  split
  · exact MapsOnly.refl m.mmu pid _
  obtain ⟨hunmapped, hps'⟩ := unmapLossy_only m.mmu vpid vaddr pid (pageBase addr)
  split
  · exact hunmapped
  · exact hunmapped.trans (mapsOnly_mapLossy (hps'.trans hps) pid addr _ _)

theorem allocateOrEvict_mapsOnly (hps : m.mmu.pageSize = PageSize.fourK) (ord : HashOrder) (pid : Pid)
    (addr : VirtAddr) :
    MapsOnly m.mmu (m.allocateOrEvict ord pid (pageBase addr)).service.mmu pid (pageBase addr) := by
  simp only [MemoryService.allocateOrEvict]
  split
  · exact mapsOnly_mapLossy hps pid addr _ _
  · next manager _ =>
    exact @evictAndInstall_mapsOnly { m with memoryManager := manager } hps ord pid addr

/-- A fault maps no page but that of its address. -/
theorem pageFault_mapsOnly (hps : m.mmu.pageSize = PageSize.fourK) (ord : HashOrder) (pid : Pid)
    (addr : VirtAddr) (access : AccessType) :
    MapsOnly m.mmu (m.handlePageFaultWithResponse ord pid addr access).service.mmu pid
      (pageBase addr) := by
  simp only [MemoryService.handlePageFaultWithResponse]
  split
  · exact allocateOrEvict_mapsOnly hps ord pid addr
  split
  · exact MapsOnly.refl m.mmu pid _
  next data _ =>
  split
  · next frame _ _ _ =>
    intro q v entry hentry
    rw [MemoryService.restorePage] at hentry
    have hsame := sameTables_writeBytes (MemoryService.mapLossy m.mmu pid (pageBase addr)
      frame.address PageFlags.presentWritable) pid (pageBase addr) data
    exact mapsOnly_mapLossy hps pid addr _ _ q v entry ((hsame.mapped_eq q v).symm.trans hentry)
  · next manager _ =>
    exact @allocateOrEvict_mapsOnly { m with memoryManager := manager } hps ord pid addr

/-- With a free frame and no copy on the swap disk, the page of the address is mapped and every other
mapping stays. -/
theorem pageFault_installs {size : UInt64} (h : RegularService size m) (ord : HashOrder) (pid : Pid)
    (addr : VirtAddr) (access : AccessType) {f : Frame}
    (hfree : f ∈ m.memoryManager.allocator.frames ∧ f.allocated = false)
    (hswap : m.swappedSlot pid (pageBase addr) = none) :
    ∃ frame, ∀ q v, (m.handlePageFaultWithResponse ord pid addr access).service.mmu.mapped q v =
      if q = pid ∧ v = pageBase addr then some ⟨frame, PageFlags.presentWritable⟩
      else m.mmu.mapped q v := by
  have hexact := h.history.fit.exact
  have hqueue : m.memoryManager.allocator.freeQueue ≠ [] := by
    obtain ⟨n, hn⟩ := List.getElem?_of_mem hfree.1
    exact List.ne_nil_of_mem ((hexact.mem_queue_iff n).2 ⟨f, hn, hfree.2⟩)
  rcases PhysicalMemoryManager.allocateFrames_one hexact pid with
    ⟨hempty, -⟩ | ⟨frame, manager, halloc, -⟩
  · exact absurd hempty hqueue
  · refine ⟨pageBase frame.address, fun q v => ?_⟩
    simp only [MemoryService.handlePageFaultWithResponse, hswap, MemoryService.allocateOrEvict, halloc,
      MemoryService.installFrame_eq]
    obtain ⟨-, -, hmapped⟩ := MemoryService.mapLossy_spec m.mmu pid (pageBase addr) frame.address
      PageFlags.presentWritable
    rw [hmapped, h.alignDown_eq, h.alignDown_eq, pageBase_pageBase]

end handler

/-! ## From the CPU to the MMU -/

/-- The page of an address is mapped for the process, and present. -/
def PagePresent (m : MMU) (pid : Pid) (vaddr : VirtAddr) : Prop :=
  ∃ entry, m.mapped pid (pageBase vaddr) = some entry ∧ entry.flags.present = true

/-- The page of the address is present afterwards, and all mappings that were present stay. -/
def FaultServiced (mmu mmu' : MMU) (pid : Pid) (vaddr : VirtAddr) : Prop :=
  PagePresent mmu' pid vaddr ∧
    ∀ q page entry, mmu.mapped q page = some entry → entry.flags.present = true →
      mmu'.mapped q page = some entry

open Machine

/-- A process whose next step faults at an address that is not mapped, when there is a free frame and
the page has no copy on the swap disk. The memory service has handled the messages before the request
and answers it in time. -/
structure FaultPending (w : World) (s : Machine) (pid : Pid) (cpu : VirtualCPU) (vaddr : VirtAddr) :
    Prop where
  get : s.cpus.get pid = some cpu
  running : cpu.halted = false
  ready : cpu.pagefaultPending = false
  idle : cpu.syscallPending = false
  fault : faultAddr cpu (s.background w).mmu = some vaddr
  answered : w.timely (s.stepCpu w pid cpu).2.clock = true
  unmapped : ¬PagePresent ((s.stepCpu w pid cpu).2.pendingMemory w).mmu pid vaddr
  free : ∃ f ∈ ((s.stepCpu w pid cpu).2.pendingMemory w).memoryManager.allocator.frames,
    f.allocated = false
  noCopy : ((s.stepCpu w pid cpu).2.pendingMemory w).swappedSlot pid (pageBase vaddr) = none

section serviced

variable {w : World} {s : Machine} {pid : Pid} {cpu : VirtualCPU} {vaddr : VirtAddr}

/-- One round of the loop: the step, which only leaves its mark, and the request. -/
theorem FaultPending.round (h : FaultPending w s pid cpu vaddr) (cpuId : Fin 2) :
    (execute w cpuId pid 1 s).1.mmu =
      (((s.stepCpu w pid cpu).2.pendingMemory w).handlePageFaultWithResponse
        (w.order (s.stepCpu w pid cpu).2.clock) pid cpu.pc .read).service.mmu := by
  have hstep := step_of_faultAddr h.running h.ready h.fault
  have howner : cpu.currentPid = pid := s.cpus.owned pid cpu h.get
  have hstepped : s.stepCpu w pid cpu = (true, (s.stepCpu w pid cpu).2) := by
    simp only [stepCpu, hstep]
  have hget : (s.stepCpu w pid cpu).2.cpus.get pid = some { cpu with pagefaultPending := true } := by
    simp only [stepCpu, hstep]
    refine (CpuTable.get_insert ..).trans (if_pos howner.symm)
  have hcall : runSyscall w cpuId pid (s.stepCpu w pid cpu).2 = ((s.stepCpu w pid cpu).2, []) := by
    simp only [runSyscall, hget, h.idle, if_true]
  have hfault : (forwardFault w cpuId pid (s.stepCpu w pid cpu).2).1.mmu =
      (((s.stepCpu w pid cpu).2.pendingMemory w).handlePageFaultWithResponse
        (w.order (s.stepCpu w pid cpu).2.clock) pid cpu.pc .read).service.mmu := by
    simp only [forwardFault, hget, Bool.true_eq_false, if_false]
    have hanswered : w.timely ((s.stepCpu w pid cpu).2.updateCpu pid fun cpu =>
        { cpu with pagefaultPending := false }).clock = true := h.answered
    rw [requestMemory_timely hanswered]
    exact congrArg MemoryService.mmu (handleEnvelope_service ..)
  rw [← hfault]
  simp only [execute, h.get, h.running, Bool.false_eq_true, if_false]
  rw [hstepped]
  simp only [Bool.true_eq_false, if_false, hcall, List.isEmpty_nil, false_and]

/-- A fault is serviced exactly when the program counter is on the page of the fault. -/
theorem fault_serviced_iff {size : UInt64} {swapImage : Nat → UInt8}
    (hreach : s.Reached (bootMemory size swapImage)) (h : FaultPending w s pid cpu vaddr)
    (cpuId : Fin 2) :
    FaultServiced ((s.stepCpu w pid cpu).2.pendingMemory w).mmu (execute w cpuId pid 1 s).1.mmu pid
      vaddr ↔ pageBase cpu.pc = pageBase vaddr := by
  have hcomes : (s.stepCpu w pid cpu).2.ComesFrom (bootMemory size swapImage) :=
    Touched.trans hreach.comesFrom (Performed.step (w := w) cpuId h.get h.running).touches
  have hregular : RegularService size ((s.stepCpu w pid cpu).2.pendingMemory w) :=
    regular_settled hcomes _
  rw [FaultServiced, h.round cpuId]
  constructor
  · rintro ⟨⟨entry, hentry, hpresent⟩, -⟩
    -- the page of the fault was not mapped, so it is the page that the request is for
    rcases pageFault_mapsOnly hregular.pageSize_eq _ pid cpu.pc .read pid _ entry hentry with
      ⟨-, hpage⟩ | hbefore
    · exact hpage.symm
    · exact absurd ⟨entry, hbefore, hpresent⟩ h.unmapped
  · intro hpage
    obtain ⟨f, hf, hfree⟩ := h.free
    obtain ⟨frame, hmapped⟩ := pageFault_installs hregular
      (w.order (s.stepCpu w pid cpu).2.clock) pid cpu.pc .read ⟨hf, hfree⟩
      (by rw [hpage]; exact h.noCopy)
    refine ⟨⟨⟨frame, PageFlags.presentWritable⟩, ?_, rfl⟩, ?_⟩
    · rw [hmapped, hpage, if_pos ⟨rfl, rfl⟩]
    · intro q page entry hentry hpresent
      rw [hmapped, if_neg, hentry]
      rintro ⟨rfl, rfl⟩
      rw [hpage] at hentry
      exact h.unmapped ⟨entry, hentry, hpresent⟩

end serviced

/-- The first fetch of the first process. -/
theorem first_fault_serviced :
    FaultServiced (((boot (World.calm []) (bootMemory 8192 fun _ => 0)).stepCpu (World.calm []) 1
        (VirtualCPU.new 1)).2.pendingMemory (World.calm [])).mmu
      (execute (World.calm []) 0 1 1 (boot (World.calm []) (bootMemory 8192 fun _ => 0))).1.mmu 1 0 := by
  have hreach : (boot (World.calm []) (bootMemory 8192 fun _ => 0)).Reached
      (bootMemory 8192 fun _ => 0) := ⟨World.calm [], [], Or.inl rfl⟩
  have hpending : FaultPending (World.calm []) (boot (World.calm []) (bootMemory 8192 fun _ => 0)) 1
      (VirtualCPU.new 1) 0 := by
    refine ⟨rfl, rfl, rfl, rfl, by decide +kernel, rfl, ?_, ?_, by decide +kernel⟩
    · rintro ⟨entry, hentry, -⟩
      have hnone : (((boot (World.calm []) (bootMemory 8192 fun _ => 0)).stepCpu (World.calm []) 1
          (VirtualCPU.new 1)).2.pendingMemory (World.calm [])).mmu.mapped 1 (pageBase 0) = none := by
        decide +kernel
      rw [hnone] at hentry
      cases hentry
    · decide +kernel
  exact (fault_serviced_iff hreach hpending 0).2 (by decide)

/-- A program of one instruction: store a byte at `0x1000`. -/
def storeProgram : List UInt8 := [0x07, 0, 1, 0, 0, 0x10, 0, 0]

/-- The first process has been given the program; it is on the first page. -/
def storeMachine : Machine :=
  (run (World.calm storeProgram) (bootMemory 8192 fun _ => 0)
    [.envelope (.process (.execProcess 1 "store" [] none)) false]).1

/-- Its CPU. -/
def storeCpu : VirtualCPU := (storeMachine.cpus.get 1).getD (VirtualCPU.new 1)

/-- The store faults on the second page, and the request is for the first page. -/
theorem data_fault_not_serviced :
    storeMachine.Reached (bootMemory 8192 fun _ => 0) ∧
      FaultPending (World.calm storeProgram) storeMachine 1 storeCpu 0x1000 ∧
      ¬FaultServiced ((storeMachine.stepCpu (World.calm storeProgram) 1 storeCpu).2.pendingMemory
          (World.calm storeProgram)).mmu
        (execute (World.calm storeProgram) 0 1 1 storeMachine).1.mmu 1 0x1000 := by
  have hget : storeMachine.cpus.get 1 = some storeCpu := by
    have hsome : (storeMachine.cpus.get 1).isSome = true := by decide +kernel
    obtain ⟨cpu, hcpu⟩ := Option.isSome_iff_exists.1 hsome
    rw [storeCpu, hcpu]
    rfl
  refine ⟨⟨_, _, Or.inl rfl⟩, ?_, ?_⟩
  · refine ⟨hget, by decide +kernel, by decide +kernel, by decide +kernel, by decide +kernel, rfl, ?_,
      by decide +kernel, by decide +kernel⟩
    rintro ⟨entry, hentry, -⟩
    have hnone : ((storeMachine.stepCpu (World.calm storeProgram) 1 storeCpu).2.pendingMemory
        (World.calm storeProgram)).mmu.mapped 1 (pageBase 0x1000) = none := by
      decide +kernel
    rw [hnone] at hentry
    cases hentry
  · rintro ⟨⟨entry, hentry, -⟩, -⟩
    have hnone : (execute (World.calm storeProgram) 0 1 1 storeMachine).1.mmu.mapped 1
        (pageBase 0x1000) = none := by
      decide +kernel
    rw [hnone] at hentry
    cases hentry

end GenshinOs.Process
