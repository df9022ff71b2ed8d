import GenshinOs.Memory.Owners
import GenshinOs.Process.Cloning

/-!
# Frames and the processes that own them

A frame that is allocated to a process is lost when the process leaves the table, or when no page of
the process leads to the frame any more: nobody frees it then. `Lodged` says that no frame is lost. Exit
gives all frames back; a program that halts or is killed keeps its frames until it is reaped, exec gives
up pages without their frames, and a fault that is served for a mapped page puts a new frame in the place
of the old one. `run_keeps_frames` says that nothing else loses a frame.
-/

set_option autoImplicit false

namespace GenshinOs.Process

open GenshinOs.Lib GenshinOs.Hardware GenshinOs.Memory

open Machine

/-! ## Frames and pages -/

/-- A page of the process leads to the frame. -/
def Houses (mmu : MMU) (pid : Pid) (n : Nat) : Prop :=
  ∃ page entry, mmu.mapped pid page = some entry ∧ entry.frame = frameAddress n

/-- Every frame that belongs to a process other than the kernel is mapped for that process, and the
process is known. -/
def Lodged (known : Pid → Prop) (manager : PhysicalMemoryManager) (mmu : MMU) : Prop :=
  ∀ pid n, manager.Owns pid n → pid ≠ 0 → known pid ∧ Houses mmu pid n

/-- No frame of the process is behind this page. -/
def Spare (manager : PhysicalMemoryManager) (mmu : MMU) (pid : Pid) (page : VirtAddr) : Prop :=
  ∀ entry n, mmu.mapped pid page = some entry → manager.Owns pid n → entry.frame ≠ frameAddress n

theorem Houses.of_mapped {mmu mmu' : MMU} {pid : Pid} {n : Nat} (h : Houses mmu pid n)
    (hkept : ∀ page entry, mmu.mapped pid page = some entry → entry.frame = frameAddress n →
      mmu'.mapped pid page = some entry) : Houses mmu' pid n := by
  obtain ⟨page, entry, hentry, hframe⟩ := h
  exact ⟨page, entry, hkept page entry hentry hframe, hframe⟩

section lodged

variable {size : UInt64} {manager : PhysicalMemoryManager} {mmu : MMU} {known : Pid → Prop}

theorem Regular.owns_lt (h : Regular size manager mmu) {pid : Pid} {n : Nat}
    (hn : manager.Owns pid n) : (n + 1) * 4096 ≤ size.toNat := by
  obtain ⟨f, hf, -⟩ := hn
  have hlt := (List.getElem?_eq_some_iff.1 hf).1
  rw [h.history.fit.exact.length_eq] at hlt
  exact Nat.le_trans (Nat.mul_le_mul_right 4096 hlt) h.history.fit.total_le

/-- The number of a frame from its address. -/
theorem Regular.number_eq (h : Regular size manager mmu) {pid : Pid} {n : Nat}
    (hn : manager.Owns pid n) : (frameAddress n).toNat / 4096 = n := by
  rw [frameAddress_toNat (h.owns_lt hn)]
  exact Nat.mul_div_cancel n (by decide)

namespace Lodged

theorem mono {known' : Pid → Prop} (h : Lodged known manager mmu)
    (hknown : ∀ pid n, manager.Owns pid n → pid ≠ 0 → known pid → known' pid) :
    Lodged known' manager mmu := by
  intro pid n hn hpid
  obtain ⟨hold, hhouse⟩ := h pid n hn hpid
  exact ⟨hknown pid n hn hpid hold, hhouse⟩

theorem store {mmu' : MMU} (h : Lodged known manager mmu) (hsame : SameTables mmu mmu') :
    Lodged known manager mmu' := by
  intro pid n hn hpid
  obtain ⟨hknown, hhouse⟩ := h pid n hn hpid
  refine ⟨hknown, hhouse.of_mapped ?_⟩
  intro page entry hentry _
  rwa [hsame.mapped_eq]

/-- A frame that nobody was given leaves things as they are. -/
theorem refused (h : Lodged known manager mmu) (hregular : Regular size manager mmu) (pid : Pid)
    {count : Nat} (hcount : manager.allocator.freeQueue.length < count) :
    Lodged known (manager.allocateFrames pid count).2 mmu := by
  intro q n hn hq
  rw [PhysicalMemoryManager.owns_allocateFrames hregular.history.fit.exact,
    if_neg (fun hand => Nat.not_le.2 hcount hand.1)] at hn
  exact h q n hn hq

/-- The kernel may take frames. -/
theorem kernel (h : Lodged known manager mmu) (hregular : Regular size manager mmu) (count : Nat) :
    Lodged known (manager.allocateFrames 0 count).2 mmu := by
  intro q n hn hq
  rw [PhysicalMemoryManager.owns_allocateFrames hregular.history.fit.exact] at hn
  split at hn
  · exact absurd hn hq
  · exact h q n hn hq

end Lodged

/-- Fewer pages and fewer frames leave a page spare. -/
theorem Spare.mono {manager' : PhysicalMemoryManager} {mmu' : MMU} {pid : Pid} {page : VirtAddr}
    (h : Spare manager mmu pid page)
    (hmapped : ∀ entry, mmu'.mapped pid page = some entry → mmu.mapped pid page = some entry)
    (howns : ∀ n, manager'.Owns pid n → manager.Owns pid n) : Spare manager' mmu' pid page :=
  fun entry n hentry hn => h entry n (hmapped entry hentry) (howns n hn)

/-! ## Page faults -/

/-- A new frame for a page. -/
theorem Lodged.install (h : Lodged known manager mmu) (hregular : Regular size manager mmu) {pid : Pid}
    (hpid : pid ≠ 0 → known pid) {page : VirtAddr} (hspare : Spare manager mmu pid (pageBase page))
    {frame : Frame} {rest : List Frame} {manager' : PhysicalMemoryManager}
    (halloc : manager.allocateFrames pid 1 = (frame :: rest, manager')) (flags : PageFlags) :
    Lodged known manager' (MemoryService.mapLossy mmu pid page frame.address flags) := by
  have hfit := hregular.history.fit
  obtain ⟨-, -, hmapped⟩ := MemoryService.mapLossy_spec mmu pid page frame.address flags
  cases hqueue : manager.allocator.freeQueue with
  | nil =>
    rcases PhysicalMemoryManager.allocateFrames_one hfit.exact pid with ⟨-, hnone⟩ | ⟨f, m', -, hmem, -⟩
    · rw [hnone] at halloc
      cases halloc
    · rw [hqueue] at hmem
      cases hmem
  | cons number queue =>
    obtain ⟨frame', hanswer, haddress⟩ := (takeFrame_spec hfit pid hqueue).answer
    have hmanager : (manager.allocateFrames pid 1).2 = manager' := congrArg Prod.snd halloc
    rw [halloc] at hanswer
    have hframe : frame' = frame := (List.cons.inj (congrArg Prod.fst hanswer)).1.symm
    rw [hframe] at haddress
    intro q n hn hq
    rw [← hmanager, PhysicalMemoryManager.owns_allocateFrames hfit.exact, hqueue] at hn
    -- the new frame has the page; an old one of the process is behind another page
    by_cases hnew : n = number
    · rw [if_pos ⟨by simp, by simp [hnew]⟩] at hn
      rw [hn] at hq ⊢
      refine ⟨hpid hq, pageBase page, ⟨frameAddress n, flags⟩, ?_, rfl⟩
      rw [hmapped, hregular.alignDown_eq, hregular.alignDown_eq, if_pos ⟨rfl, rfl⟩, haddress,
        pageBase_frameAddress, hnew]
    · rw [if_neg (by simp [hnew])] at hn
      obtain ⟨hknown, hhouse⟩ := h q n hn hq
      refine ⟨hknown, hhouse.of_mapped ?_⟩
      intro p entry hentry hat
      rw [hmapped, hregular.alignDown_eq, if_neg, hentry]
      rintro ⟨rfl, rfl⟩
      exact hspare entry n hentry hn hat

/-- A page is written to swap space: its frame goes with it. -/
theorem Lodged.release (h : Lodged known manager mmu) (hregular : Regular size manager mmu)
    {vpid : Pid} {vaddr : VirtAddr} {entry : PageTableEntry} (hentry : mmu.mapped vpid vaddr = some entry) :
    Lodged known (manager.freeFrame vpid (entry.frame.toNat / 4096)).2
      (MemoryService.unmapLossy mmu vpid vaddr) := by
  obtain ⟨-, -, hmapped⟩ := MemoryService.unmapLossy_spec hentry vaddr
  have hpage := (hregular.entry_ok vpid vaddr entry hentry).1
  intro q n hn hq
  rw [PhysicalMemoryManager.owns_freeFrame hregular.history.fit.exact] at hn
  obtain ⟨hknown, hhouse⟩ := h q n hn.1 hq
  refine ⟨hknown, hhouse.of_mapped ?_⟩
  intro p entry' hentry' hframe
  rw [hmapped, hregular.alignDown_eq, hpage, if_neg, hentry']
  rintro ⟨rfl, rfl⟩
  rw [hentry] at hentry'
  cases hentry'
  apply hn.2
  rw [hframe, hregular.number_eq hn.1]

theorem Spare.release {pid : Pid} {page : VirtAddr} (h : Spare manager mmu pid page)
    (hregular : Regular size manager mmu) {vpid : Pid} {vaddr : VirtAddr} {entry : PageTableEntry}
    (hentry : mmu.mapped vpid vaddr = some entry) (k : Nat) :
    Spare (manager.freeFrame vpid k).2 (MemoryService.unmapLossy mmu vpid vaddr) pid page := by
  obtain ⟨-, -, hmapped⟩ := MemoryService.unmapLossy_spec hentry vaddr
  apply h.mono
  · intro entry' hentry'
    rw [hmapped] at hentry'
    split at hentry'
    · cases hentry'
    · exact hentry'
  · intro n hn
    exact ((PhysicalMemoryManager.owns_freeFrame hregular.history.fit.exact vpid k).1 hn).1

end lodged

section faults

variable {size : UInt64} {m : MemoryService} {known : Pid → Prop}

/-- No frame of the service is lost. -/
def LodgedService (known : Pid → Prop) (m : MemoryService) : Prop := Lodged known m.memoryManager m.mmu

/-- No frame of the process is behind this page of the service. -/
def SparePage (m : MemoryService) (pid : Pid) (page : VirtAddr) : Prop :=
  Spare m.memoryManager m.mmu pid page

theorem allocateFrames_none (hregular : RegularService size m) {pid : Pid}
    {manager : PhysicalMemoryManager} (h : m.memoryManager.allocateFrames pid 1 = ([], manager)) :
    manager = m.memoryManager := by
  rcases PhysicalMemoryManager.allocateFrames_one hregular.history.fit.exact pid with
    ⟨-, hnone⟩ | ⟨f, m', hsome, -⟩
  · rw [hnone] at h
    exact (congrArg Prod.snd h).symm
  · rw [hsome] at h
    cases h

theorem lodged_evictAndInstall (h : LodgedService known m) (hregular : RegularService size m)
    (ord : HashOrder) {pid : Pid} (hpid : pid ≠ 0 → known pid) {page : VirtAddr}
    (hspare : SparePage m pid (pageBase page)) :
    LodgedService known (m.evictAndInstall ord pid page).service := by
  simp only [MemoryService.evictAndInstall]
  split
  · exact h
  next vpid vaddr vframe hvictim =>
  obtain ⟨entry, hentry, rfl⟩ := findVictimPage_mapped hvictim
  split
  · exact h
  next slot swap _ =>
  split
  · exact h
  next swap' _ =>
  have hreleased : Lodged known _ _ := Lodged.release h hregular hentry
  have hregular' : RegularService size (MemoryService.releaseVictim
      { m with swapManager := swap' } vpid vaddr entry.frame slot.number) :=
    (hregular.unmapLossy vpid vaddr).free vpid (entry.frame.toNat / 4096)
  have hspare' := Spare.release hspare hregular hentry (entry.frame.toNat / 4096)
  split
  · next manager halloc =>
    rw [allocateFrames_none hregular' halloc]
    exact hreleased
  · next halloc => exact hreleased.install hregular' hpid hspare' halloc _

theorem lodged_allocateOrEvict (h : LodgedService known m) (hregular : RegularService size m)
    (ord : HashOrder) {pid : Pid} (hpid : pid ≠ 0 → known pid) {page : VirtAddr}
    (hspare : SparePage m pid (pageBase page)) :
    LodgedService known (m.allocateOrEvict ord pid page).service := by
  simp only [MemoryService.allocateOrEvict]
  split
  · next halloc => exact Lodged.install h hregular hpid hspare halloc _
  · next manager halloc =>
    rw [allocateFrames_none hregular halloc]
    exact lodged_evictAndInstall h hregular ord hpid hspare

/-- A fault of a known process loses no frame when no frame of the process is behind the page. -/
theorem lodged_pageFault (h : LodgedService known m) (hregular : RegularService size m)
    (ord : HashOrder) {pid : Pid} (hpid : pid ≠ 0 → known pid) {addr : VirtAddr} (access : AccessType)
    (hspare : SparePage m pid (pageBase addr)) :
    LodgedService known (m.handlePageFaultWithResponse ord pid addr access).service := by
  have hbase : pageBase (pageBase addr) = pageBase addr := PageSize.fourK.alignDown_alignDown addr
  rw [← hbase] at hspare
  simp only [MemoryService.handlePageFaultWithResponse]
  split
  · exact lodged_allocateOrEvict h hregular ord hpid hspare
  split
  · exact h
  split
  · next halloc =>
    have hinstalled := Lodged.install h hregular hpid hspare halloc PageFlags.presentWritable
    exact hinstalled.store (sameTables_writeBytes _ pid (pageBase addr) _)
  · next manager halloc =>
    rw [allocateFrames_none hregular halloc]
    exact lodged_allocateOrEvict h hregular ord hpid hspare

end faults

/-! ## Messages on their way -/

/-- The messages that nobody answers: a page is given up, a frame is freed, a fault came as an interrupt.
When every answer is in time, no other message is left in the channel. -/
inductive Pending : MemoryRequest × Bool → Prop
  | unmap (pid : Pid) (virt : VirtAddr) : Pending (.unmapPage pid virt, false)
  | free (paddr : PhysAddr) : Pending (.freeFrame paddr, false)
  | fault (addr : VirtAddr) (access : AccessType) : Pending (.pageFaultHandler 0 addr access, false)

/-- Two services that differ in bytes and swap space only. -/
structure SameService (m m' : MemoryService) : Prop where
  memoryManager_eq : m'.memoryManager = m.memoryManager
  pageTables_eq : m'.pageTables = m.pageTables
  mmu : SameTables m.mmu m'.mmu

theorem SameService.refl (m : MemoryService) : SameService m m := ⟨rfl, rfl, SameTables.refl m.mmu⟩

theorem SameService.trans {m m' m'' : MemoryService} (h : SameService m m') (h' : SameService m' m'') :
    SameService m m'' :=
  ⟨h'.memoryManager_eq.trans h.memoryManager_eq, h'.pageTables_eq.trans h.pageTables_eq,
    h.mmu.trans h'.mmu⟩

theorem SameService.lodged {m m' : MemoryService} (h : SameService m m') {known : Pid → Prop}
    (hm : LodgedService known m) : LodgedService known m' := by
  rw [LodgedService, h.memoryManager_eq]
  exact Lodged.store hm h.mmu

section pending

variable {m m' : MemoryService} {msg : MemoryRequest × Bool} {queue : List (MemoryRequest × Bool)}

/-- The order of hash maps does not matter to these messages. -/
theorem Pending.serve_ord (h : Pending msg) (ord ord' : HashOrder) (m : MemoryService) :
    serve ord m msg = serve ord' m msg := by
  cases h <;> rfl

theorem foldl_pending_ord (h : ∀ msg ∈ queue, Pending msg) (ord ord' : HashOrder) (m : MemoryService) :
    queue.foldl (serve ord) m = queue.foldl (serve ord') m := by
  induction queue generalizing m with
  | nil => rfl
  | cons msg queue ih =>
    rw [List.foldl_cons, List.foldl_cons, (h msg List.mem_cons_self).serve_ord ord ord']
    exact ih (fun msg' hmsg => h msg' (List.mem_cons_of_mem msg hmsg)) _

theorem handlePageFault_mmu (m : MemoryService) (pid : Pid) (addr : VirtAddr) (access : AccessType) :
    (m.handlePageFault pid addr access).service.mmu = m.mmu := by
  simp only [MemoryService.handlePageFault]
  split
  · rfl
  split
  · rfl
  split
  · split <;> rfl
  · simp only [MemoryService.handleMapPage]
    split <;> rfl

/-- No message maps a page. -/
theorem Pending.mapped (h : Pending msg) (ord : HashOrder) {q : Pid} {page : VirtAddr}
    {entry : PageTableEntry} (hentry : (serve ord m msg).mmu.mapped q page = some entry) :
    m.mmu.mapped q page = some entry := by
  cases h with
  | unmap pid virt =>
    obtain ⟨-, -, hmapped⟩ := serve_unmap ord m pid virt
    rw [hmapped] at hentry
    split at hentry
    · cases hentry
    · exact hentry
  | free paddr => exact hentry
  | fault addr access =>
    have hmmu : (serve ord m (.pageFaultHandler 0 addr access, false)).mmu = m.mmu :=
      handlePageFault_mmu m 0 addr access
    rwa [hmmu] at hentry

theorem foldl_pending_mapped (h : ∀ msg ∈ queue, Pending msg) (ord : HashOrder) {q : Pid}
    {page : VirtAddr} {entry : PageTableEntry}
    (hentry : (queue.foldl (serve ord) m).mmu.mapped q page = some entry) :
    m.mmu.mapped q page = some entry := by
  induction queue generalizing m with
  | nil => exact hentry
  | cons msg queue ih =>
    apply (h msg List.mem_cons_self).mapped ord
    exact ih (fun msg' hmsg => h msg' (List.mem_cons_of_mem msg hmsg)) hentry

theorem sameTables_unmapPage {mmu mmu' : MMU} (h : SameTables mmu mmu') (pid : Pid) (virt : VirtAddr) :
    (∃ e e', mmu.unmapPage pid virt = .error e ∧ mmu'.unmapPage pid virt = .error e') ∨
      ∃ t t', mmu.unmapPage pid virt = .ok t ∧ mmu'.unmapPage pid virt = .ok t' ∧ SameTables t t' := by
  have halign : mmu'.alignDown virt = mmu.alignDown virt := by
    rw [MMU.alignDown, h.pageSize_eq]
    rfl
  simp only [MMU.unmapPage, h.pageTables_eq, halign]
  cases mmu.pageTables.lookup pid with
  | none => exact Or.inl ⟨_, _, rfl, rfl⟩
  | some table => exact Or.inr ⟨_, _, rfl, rfl, rfl, h.pageSize_eq, h.size_eq⟩

theorem SameService.mapPage (h : SameService m m') (pid : Pid) (virt : VirtAddr) (phys : PhysAddr)
    (prot : MemProt) :
    SameService (m.handleMapPage pid virt phys prot).service
      (m'.handleMapPage pid virt phys prot).service := by
  simp only [MemoryService.handleMapPage, h.pageTables_eq]
  split <;> exact ⟨h.memoryManager_eq, rfl, h.mmu⟩

/-- These messages do not look at bytes. -/
theorem SameService.serve (h : SameService m m') (hmsg : Pending msg) (ord : HashOrder) :
    SameService (serve ord m msg) (serve ord m' msg) := by
  cases hmsg with
  | unmap pid virt =>
    simp only [Machine.serve, Bool.false_eq_true, if_false, MemoryService.handleMessage,
      MemoryService.handleMemoryRequest, MemoryService.handleUnmapPage]
    rcases sameTables_unmapPage h.mmu pid virt with ⟨e, e', he, he'⟩ | ⟨t, t', ht, ht', hsame⟩
    · rw [he, he']
      exact h
    · rw [ht, ht']
      exact ⟨h.memoryManager_eq, h.pageTables_eq, hsame⟩
  | free paddr =>
    simp only [Machine.serve, Bool.false_eq_true, if_false, MemoryService.handleMessage,
      MemoryService.handleMemoryRequest, MemoryService.handleFreeFrame, h.memoryManager_eq]
    exact ⟨rfl, h.pageTables_eq, h.mmu⟩
  | fault addr access =>
    simp only [Machine.serve, Bool.false_eq_true, if_false, MemoryService.handleMessage,
      MemoryService.handleMemoryRequest, MemoryService.handlePageFault, h.memoryManager_eq,
      h.pageTables_eq]
    split
    · exact h
    split
    · exact h
    split
    · split <;> split <;> exact ⟨rfl, rfl, h.mmu⟩
    · have hsame : ∀ manager, SameService { m with memoryManager := manager }
          { m' with memoryManager := manager, pageTables := m.pageTables } :=
        fun _ => ⟨rfl, rfl, h.mmu⟩
      exact (hsame _).mapPage 0 addr _ _

theorem SameService.foldl (h : SameService m m') (hqueue : ∀ msg ∈ queue, Pending msg)
    (ord : HashOrder) : SameService (queue.foldl (Machine.serve ord) m)
      (queue.foldl (Machine.serve ord) m') := by
  induction queue generalizing m m' with
  | nil => exact h
  | cons msg queue ih =>
    apply ih (h.serve (hqueue msg List.mem_cons_self) ord)
    exact fun msg' hmsg => hqueue msg' (List.mem_cons_of_mem msg hmsg)

end pending

/-! ## Processes stay -/

namespace Kernel

/-- No process leaves the table. -/
def Retains (k k' : Kernel) : Prop :=
  ∀ q, (k.stateOf q).isSome = true → (k'.stateOf q).isSome = true

theorem Retains.refl (k : Kernel) : Retains k k := fun _ hq => hq

theorem Retains.of_eq {k k' : Kernel} (h : k'.stateOf = k.stateOf) : Retains k k' := by
  intro q hq
  rwa [h]

theorem Retains.of_written {k k' : Kernel} {pid : Pid} {st : ProcessState}
    (h : ∀ q, k'.stateOf q = if q = pid then (k.stateOf pid).map fun _ => st else k.stateOf q) :
    Retains k k' := by
  intro q hq
  rw [h]
  split
  · next heq => rwa [Option.isSome_map, ← heq]
  · exact hq

theorem Retains.of_shuffled {k k' : Kernel} (h : Shuffled k k') : Retains k k' := by
  intro q hq
  rw [Option.isSome_iff_ne_none] at hq ⊢
  exact fun hnone => hq ((h.none_iff q).1 hnone)

theorem Retains.of_inserted {k k' : Kernel} {pid : Pid} {st : ProcessState}
    (h : ∀ q, k'.stateOf q = if q = pid then some st else k.stateOf q) : Retains k k' := by
  intro q hq
  rw [h]
  split
  · rfl
  · exact hq

end Kernel

open Kernel

theorem ForkStep.retains {k k' : Kernel} {parent : Pid} (h : ForkStep k parent k') : Retains k k' := by
  cases h with
  | refused => exact Retains.refl k
  | aborted => exact Retains.refl k
  | fresh => exact Retains.of_inserted k.forkFresh_stateOf
  | child => exact Retains.of_inserted fun q => k.forkChild_stateOf q parent

theorem ExecStep.retains {k k' : Kernel} {pid : Pid} (h : ExecStep k pid k') : Retains k k' := by
  cases h with
  | failed => exact Retains.refl k
  | started executable args =>
    exact Retains.of_written fun q => k.exec_stateOf pid q executable args

theorem RequestEffect.retains {k k' : Kernel} {req : ProcessRequest} (h : RequestEffect k req k') :
    Retains k k' := by
  cases h with
  | inert hreq h => exact Retains.of_eq h.stateOf
  | schedule => exact Retains.of_eq rfl
  | block pid tid reason => exact Retains.of_written fun q => k.handleBlock_stateOf pid q tid reason
  | unblock pid tid => exact Retains.of_written fun q => k.handleUnblock_stateOf pid q tid
  | contextSwitch => exact Retains.of_eq rfl
  | received pid blocking h => exact Retains.of_eq h.stateOf
  | receiveBlocked pid => exact Retains.of_written fun q => k.handleBlock_stateOf pid q 1 _
  | createSemaphore => exact Retains.of_eq rfl
  | waitBlocked pid => exact Retains.of_written fun q => handleBlock_stateOf _ pid q 1 _
  | waitPassed => exact Retains.of_eq rfl
  | signalSemaphore => exact Retains.of_eq rfl
  | createLock => exact Retains.of_eq rfl
  | acquireBlocked pid => exact Retains.of_written fun q => handleBlock_stateOf _ pid q 1 _
  | acquirePassed => exact Retains.of_eq rfl
  | releaseLock => exact Retains.of_eq rfl
  | waitRefused => exact Retains.refl k
  | waitChild pid childPid reason =>
    exact Retains.of_written fun q => k.handleBlock_stateOf pid q 1 reason
  | kill pid => exact Retains.of_written fun q => setState_stateOf _ pid q _
  | stop pid => exact Retains.of_written fun q => k.setState_stateOf pid q _
  | continued pid => exact Retains.of_written fun q => k.setState_stateOf pid q _
  | signalQueued pid signal h => exact Retains.of_eq h.stateOf

/-- A process leaves the table when it is reaped, or when its parent waits for it. -/
theorem Kernel.retains_waitChild {k : Kernel} {pid : Pid} {childPid : Option Pid} (channel : RequestId)
    {q : Pid} (hq : (k.stateOf q).isSome = true)
    (hleft : ((k.handleWaitChildWithResponse pid childPid channel).1.stateOf q).isSome = false) :
    childPid = some q ∧ k.isChild pid q = true ∧
      (k.stateOf q).any ProcessState.isTerminated = true := by
  -- in the other branches the table stays
  have hstays : ∀ k' : Kernel, k'.processTable = k.processTable → (k'.stateOf q).isSome ≠ false := by
    intro k' heq
    rw [stateOf, heq]
    exact ne_of_eq_of_ne hq Bool.noConfusion
  simp only [handleWaitChildWithResponse] at hleft
  split at hleft
  · exact absurd hleft (hstays _ rfl)
  next child =>
  split at hleft
  · exact absurd hleft (hstays _ rfl)
  next hchild =>
  split at hleft
  · exact absurd hleft (hstays _ rfl)
  next state hstate =>
  split at hleft
  · next hterminated =>
    -- a terminated child is removed
    have hremoved : (((k.blockThread child 1).removeProcess child).respond channel
        (.success channel (.integer (exitCodeWord state.exitCode)))).stateOf q =
          if q = child then none else k.stateOf q := removeProcess_stateOf _ child q
    rw [hremoved] at hleft
    split at hleft
    · next heq =>
      rw [heq, hstate]
      exact ⟨rfl, by simpa using hchild, hterminated⟩
    · rw [hq] at hleft
      cases hleft
  · exact absurd hleft (hstays _ rfl)

/-- The acts that may remove a process. -/
def Act.removes : Act → Bool
  | .reap _ => true
  | .request (.waitChild _ _) (some _) => true
  | _ => false

theorem TableStep.retains {k k' : Kernel} {act : Act} (h : TableStep k act k')
    (hact : act.removes = false) : Retains k k' := by
  -- only reaping and waiting for a child remove entries
  cases h with
  | idle => exact Retains.refl k
  | dispatch cpuId scheduled => exact Retains.of_shuffled (k.shuffled_dispatch cpuId scheduled)
  | initExit => exact Retains.refl k
  | exit cpuId pid code => exact Retains.of_written fun q => k.exit_stateOf pid q _
  | forkCall cpuId pid h => exact h.retains
  | execCall cpuId pid h => exact h.retains
  | semCreate => exact Retains.of_eq rfl
  | semWaitPassed => exact Retains.of_eq rfl
  | semWaitSlept cpuId pid => exact Retains.of_written fun q => sleepOn_stateOf _ pid q _
  | semSignalWoke cpuId pid semId waiter => exact Retains.of_written fun q => k.wake_stateOf waiter q
  | semSignalCounted => exact Retains.of_eq rfl
  | lockCreate => exact Retains.of_eq rfl
  | lockAcquirePassed => exact Retains.of_eq rfl
  | lockAcquireSlept cpuId pid => exact Retains.of_written fun q => sleepOn_stateOf _ pid q _
  | lockReleaseWoke cpuId pid lockId waiter =>
    exact Retains.of_written fun q => k.wake_stateOf waiter q
  | lockReleaseNone => exact Retains.of_eq rfl
  | settled => exact Retains.refl k
  | zombified cpuId pid =>
    intro q hq
    rw [zombify_stateOf]
    split
    · rfl
    · exact hq
  | reapedNone => exact Retains.refl k
  | reaped => cases hact
  | fork h => exact h.retains
  | exec h => exact h.retains
  | sharedSemaphores => exact Retains.of_eq rfl
  | request channel h => exact h.retains
  | waitChild pid childPid channel => cases hact
  | responded => exact Retains.of_eq rfl
  | silent => exact Retains.refl k

end GenshinOs.Process
