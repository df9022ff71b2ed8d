import GenshinOs.Lib.Trace
import GenshinOs.Memory.Service

/-!
# Transparency of demand paging

Processes read and write bytes while the memory service allocates frames, maps pages and serves
page faults. `Written` is the history of a run: the byte a process last wrote at each address, until
the page is mapped anew by a request. `Coherent` relates it to the memory, the tables and the swap
space: a written byte is in the frame of its page, or, while the page is out, in the slot of its
page. The page-fault handler keeps this unless it is asked for a page that is still mapped, or for a
page that is out while no frame is free: then it maps a fresh frame over the page.
-/

set_option autoImplicit false

namespace GenshinOs.Memory

open GenshinOs.Lib GenshinOs.Hardware

/-! ## Runs -/

/-- Requests to the memory service and accesses of the processes. -/
inductive PagingEvent where
  | allocFrame (count : Nat) (pid : Pid)
  | freeFrame (paddr : PhysAddr)
  | mapPage (pid : Pid) (virt : VirtAddr) (phys : PhysAddr) (prot : MemProt)
  | unmapPage (pid : Pid) (virt : VirtAddr)
  | pageFault (ord : HashOrder) (pid : Pid) (addr : VirtAddr) (access : AccessType)
  | write (pid : Pid) (vaddr : VirtAddr) (value : UInt8)
  | read (pid : Pid) (vaddr : VirtAddr)

/-- One event: the new state and the answers sent. Only a page fault looks at the hash order. -/
def pagingStep (s : MemoryService) : PagingEvent → MemoryService × List Answer
  | .allocFrame count pid => s.handleEnvelope HashOrder.stored (.allocFrame count pid)
  | .freeFrame paddr => s.handleEnvelope HashOrder.stored (.freeFrame paddr)
  | .unmapPage pid virt => s.handleEnvelope HashOrder.stored (.unmapPage pid virt)
  | .mapPage pid virt phys prot => s.handleEnvelope HashOrder.stored (.mapPage pid virt phys prot)
  | .pageFault ord pid addr access => s.handleEnvelope ord (.pageFaultHandler pid addr access)
  | .write pid vaddr value =>
    match s.mmu.writeU8 pid vaddr value with
    | .ok mmu => ({ s with mmu := mmu }, [])
    | .error _ => (s, [])
  | .read _ _ => (s, [])

/-- The step with its transition recorded. -/
def pagingTransition (s : MemoryService) (e : PagingEvent) :
    MemoryService × List (Transition MemoryService PagingEvent) :=
  ((pagingStep s e).1, [⟨s, e, (pagingStep s e).1⟩])

/-- The byte each process last wrote at an address. -/
abbrev Written := Pid → VirtAddr → Option UInt8

/-- Nothing is recorded for the page any more. -/
def forgetPage (g : Written) (pid : Pid) (virt : VirtAddr) : Written :=
  fun q v => if q = pid ∧ pageBase v = pageBase virt then none else g q v

/-- A successful write is recorded; a request that maps or unmaps the page makes it a new one. -/
def recordWrite (g : Written) (t : Transition MemoryService PagingEvent) : Written :=
  match t.act with
  | .write pid vaddr value =>
    match t.pre.mmu.writeU8 pid vaddr value with
    | .ok _ => fun q v => if q = pid ∧ v = vaddr then some value else g q v
    | .error _ => g
  | .mapPage pid virt _ _ => forgetPage g pid virt
  | .unmapPage pid virt => forgetPage g pid virt
  | _ => g

/-- A fault that is answered with success leaves every written byte of its page readable. -/
def FaultTransparent (g : Written) (t : Transition MemoryService PagingEvent) : Prop :=
  match t.act with
  | .pageFault _ pid addr _ =>
    ∀ frame, (pagingStep t.pre t.act).2.head? = some (.ok frame) →
      ∀ v b, pageBase v = pageBase addr → recordWrite g t pid v = some b →
        t.post.mmu.readU8 pid v = .ok b
  | _ => True

/-- What the handler relies on. A fault on a page the process has written comes when the page is
not mapped and a frame is free; a mapping request names a frame that is neither free nor mapped for
another page, and a frame that is freed is not mapped. -/
def FaultOrderly (g : Written) (t : Transition MemoryService PagingEvent) : Prop :=
  match t.act with
  | .pageFault _ pid addr _ =>
    ∀ v b, pageBase v = pageBase addr → g pid v = some b →
      t.pre.mmu.mapped pid (pageBase addr) = none ∧
        t.pre.memoryManager.allocator.freeQueue ≠ []
  | .mapPage pid virt phys _ =>
    (pageBase phys).toNat / 4096 ∉ t.pre.memoryManager.allocator.freeQueue ∧
      ∀ q page entry, t.pre.mmu.mapped q page = some entry → entry.frame = pageBase phys →
        q = pid ∧ page = pageBase virt
  | .freeFrame paddr =>
    ∀ q page entry, t.pre.mmu.mapped q page = some entry →
      entry.frame.toNat / 4096 ≠ paddr.toNat / 4096
  | _ => True

/-! ## The invariant -/

/-- The tables, the allocator and the swap space fit together: different pages have different
frames, mapped frames are not free, and different pages have different slots. -/
structure Sound (s : MemoryService) : Prop where
  allocator : s.memoryManager.Exact
  frameSize_eq : s.memoryManager.allocator.frameSize = 4096
  frames_fit : s.memoryManager.allocator.totalFrames * 4096 ≤ s.mmu.memory.size
  memory_lt : s.mmu.memory.size < 2 ^ 64
  pageSize_eq : s.mmu.pageSize = PageSize.fourK
  entry_ok : ∀ q page entry, s.mmu.mapped q page = some entry →
    pageBase page = page ∧ pageBase entry.frame = entry.frame ∧ entry.flags.present = true
  frame_inj : ∀ q page entry q' page' entry', s.mmu.mapped q page = some entry →
    s.mmu.mapped q' page' = some entry' → entry.frame = entry'.frame → q = q' ∧ page = page'
  frame_used : ∀ q page entry, s.mmu.mapped q page = some entry →
    entry.frame.toNat / 4096 ∉ s.memoryManager.allocator.freeQueue
  swap : s.swapManager.Exact
  slot_ok : ∀ q page n, s.swappedSlot q page = some n →
    s.swapManager.Occupied n ∧ s.swapManager.Backed n
  slot_inj : ∀ q page q' page' n, s.swappedSlot q page = some n →
    s.swappedSlot q' page' = some n → q = q' ∧ page = page'

/-- The byte is where a process can get it back: in the frame of its page, or in its slot. -/
def Holds (s : MemoryService) (p : Pid) (v : VirtAddr) (b : UInt8) : Prop :=
  (∃ entry, s.mmu.mapped p (pageBase v) = some entry ∧
    s.mmu.memory.InBounds (entry.frame.toNat + v.toNat % 4096) 1 ∧
    s.mmu.memory.data (entry.frame.toNat + v.toNat % 4096) = b) ∨
  (s.mmu.mapped p (pageBase v) = none ∧
    ∃ n, s.swappedSlot p (pageBase v) = some n ∧ s.swapManager.slotByte n (v.toNat % 4096) = b)

/-- Every written byte can be had back. -/
structure Coherent (g : Written) (s : MemoryService) : Prop extends Sound s where
  data : ∀ p v b, g p v = some b → Holds s p v b

/-! ## Addresses -/

theorem frame_mod {frame : PhysAddr} (h : pageBase frame = frame) : frame.toNat % 4096 = 0 := by
  rw [← h, pageBase_eq]
  exact PageSize.fourK.alignDown_mod frame

/-- Page and offset determine the address. -/
theorem eq_of_page_offset {v w : VirtAddr} (hpage : pageBase v = pageBase w)
    (hoff : v.toNat % 4096 = w.toNat % 4096) : v = w := by
  apply UInt64.toNat_inj.1
  have hv : (pageBase v).toNat + v.toNat % 4096 = v.toNat := PageSize.fourK.alignDown_add_offset v
  have hw : (pageBase w).toNat + w.toNat % 4096 = w.toNat := PageSize.fourK.alignDown_add_offset w
  rw [hpage] at hv
  omega

/-- Bytes of different frames do not overlap. -/
theorem frame_disjoint {frame frame' : PhysAddr} (h : pageBase frame = frame)
    (h' : pageBase frame' = frame') {i i' : Nat} (hi : i < 4096) (hi' : i' < 4096)
    (heq : frame.toNat + i = frame'.toNat + i') : frame = frame' ∧ i = i' := by
  have hm := frame_mod h
  have hm' := frame_mod h'
  refine ⟨UInt64.toNat_inj.1 ?_, ?_⟩
  · omega
  · omega

/-- An aligned frame is determined by its number. -/
theorem frame_eq_of_div {frame frame' : PhysAddr} (h : pageBase frame = frame)
    (h' : pageBase frame' = frame') (heq : frame.toNat / 4096 = frame'.toNat / 4096) :
    frame = frame' := by
  have hm := frame_mod h
  have hm' := frame_mod h'
  apply UInt64.toNat_inj.1
  omega

namespace Sound

variable {s : MemoryService}

theorem alignDown_eq (hs : Sound s) (v : VirtAddr) : s.mmu.alignDown v = pageBase v := by
  show s.mmu.pageSize.alignDown v = pageBase v
  rw [hs.pageSize_eq]
  rfl

/-- Reading through the tables reads the frame. -/
theorem readU8_iff (hs : Sound s) {p : Pid} {v : VirtAddr} {entry : PageTableEntry}
    (hmap : s.mmu.mapped p (pageBase v) = some entry) (b : UInt8) :
    s.mmu.readU8 p v = .ok b ↔
      s.mmu.memory.InBounds (entry.frame.toNat + v.toNat % 4096) 1 ∧
        s.mmu.memory.data (entry.frame.toNat + v.toNat % 4096) = b := by
  obtain ⟨-, hframe, hpres⟩ := hs.entry_ok _ _ _ hmap
  have h := MMU.readU8_of_mapped (m := s.mmu) (by rw [hs.alignDown_eq]; exact hmap) hpres
    (by rw [hs.alignDown_eq]; exact hframe) b
  rw [hs.pageSize_eq] at h
  exact h

/-- The address of a frame that the allocator handed out. -/
theorem toNat_address (hs : Sound s) {frame : Frame}
    (hlt : frame.number < s.memoryManager.allocator.totalFrames)
    (haddr : frame.address = UInt64.ofNat (frame.number * 4096)) :
    frame.address.toNat = frame.number * 4096 ∧ pageBase frame.address = frame.address ∧
      frame.address.toNat + 4096 ≤ s.mmu.memory.size := by
  have hfit := hs.frames_fit
  have hmem := hs.memory_lt
  have htoNat : frame.address.toNat = frame.number * 4096 := by
    rw [haddr, UInt64.toNat_ofNat']
    exact Nat.mod_eq_of_lt (by omega)
  refine ⟨htoNat, UInt64.toNat_inj.1 ?_, by omega⟩
  have hsplit : (pageBase frame.address).toNat + frame.address.toNat % 4096 =
      frame.address.toNat := PageSize.fourK.alignDown_add_offset frame.address
  omega

/-! ## Changing one part of the state -/

/-- A change of the manager that frees nothing. -/
theorem setManager (hs : Sound s) {manager : PhysicalMemoryManager}
    (hk : PhysicalMemoryManager.Keeps (fun _ => False) s.memoryManager manager) :
    Sound { s with memoryManager := manager } where
  allocator := hk.exact
  frameSize_eq := hk.frameSize_eq.trans hs.frameSize_eq
  frames_fit := by
    show manager.allocator.totalFrames * 4096 ≤ s.mmu.memory.size
    rw [hk.totalFrames_eq]
    exact hs.frames_fit
  memory_lt := hs.memory_lt
  pageSize_eq := hs.pageSize_eq
  entry_ok := hs.entry_ok
  frame_inj := hs.frame_inj
  frame_used q page entry h hmem := by
    rcases hk.queue_sub _ hmem with hmem | hfalse
    · exact hs.frame_used q page entry h hmem
    · exact hfalse
  swap := hs.swap
  slot_ok := hs.slot_ok
  slot_inj := hs.slot_inj

/-- Mapping a frame that is neither free nor in use elsewhere. -/
theorem mapPage (hs : Sound s) (pid : Pid) (virt : VirtAddr) {phys : PhysAddr} {flags : PageFlags}
    (hpres : flags.present = true)
    (hused : (pageBase phys).toNat / 4096 ∉ s.memoryManager.allocator.freeQueue)
    (halone : ∀ q page entry, s.mmu.mapped q page = some entry → entry.frame = pageBase phys →
      q = pid ∧ page = pageBase virt) :
    Sound { s with mmu := MemoryService.mapLossy s.mmu pid virt phys flags } := by
  obtain ⟨hmem, hps, hmapped⟩ := MemoryService.mapLossy_spec s.mmu pid virt phys flags
  simp only [hs.alignDown_eq] at hmapped
  refine ⟨hs.allocator, hs.frameSize_eq, ?_, ?_, hps.trans hs.pageSize_eq, ?_, ?_, ?_, hs.swap,
    hs.slot_ok, hs.slot_inj⟩
  · rw [hmem]
    exact hs.frames_fit
  · rw [hmem]
    exact hs.memory_lt
  · intro q page entry h
    rw [hmapped] at h
    split at h
    · next hq =>
      cases h
      rw [hq.2]
      exact ⟨PageSize.fourK.alignDown_alignDown virt, PageSize.fourK.alignDown_alignDown phys, hpres⟩
    · exact hs.entry_ok q page entry h
  · intro q page entry q' page' entry' h h' hframe
    rw [hmapped] at h h'
    -- an old entry with the new frame can only sit at the page itself
    split at h <;> split at h'
    · next hq hq' => exact ⟨hq.1.trans hq'.1.symm, hq.2.trans hq'.2.symm⟩
    · next hq hq' =>
      cases h
      exact absurd (halone q' page' entry' h' hframe.symm) hq'
    · next hq hq' =>
      cases h'
      exact absurd (halone q page entry h hframe) hq
    · exact hs.frame_inj q page entry q' page' entry' h h' hframe
  · intro q page entry h
    rw [hmapped] at h
    split at h
    · cases h
      exact hused
    · exact hs.frame_used q page entry h

/-- Storing bytes leaves the structure alone. -/
theorem setMemory (hs : Sound s) {mmu : MMU} (ht : mmu.pageTables = s.mmu.pageTables)
    (hps : mmu.pageSize = s.mmu.pageSize) (hsize : mmu.memory.size = s.mmu.memory.size) :
    Sound { s with mmu := mmu } := by
  have hmapped : ∀ q page, mmu.mapped q page = s.mmu.mapped q page := by
    intro q page
    simp only [MMU.mapped, ht]
  refine ⟨hs.allocator, hs.frameSize_eq, ?_, ?_, hps.trans hs.pageSize_eq, ?_, ?_, ?_, hs.swap,
    hs.slot_ok, hs.slot_inj⟩
  · rw [hsize]
    exact hs.frames_fit
  · rw [hsize]
    exact hs.memory_lt
  · intro q page entry h
    exact hs.entry_ok q page entry (by rw [← hmapped]; exact h)
  · intro q page entry q' page' entry' h h' hframe
    rw [hmapped] at h h'
    exact hs.frame_inj q page entry q' page' entry' h h' hframe
  · intro q page entry h
    exact hs.frame_used q page entry (by rw [← hmapped]; exact h)

/-- Losing mappings. -/
theorem shrink (hs : Sound s) {mmu : MMU} (hmem : mmu.memory = s.mmu.memory)
    (hps : mmu.pageSize = s.mmu.pageSize)
    (hsub : ∀ q page entry, mmu.mapped q page = some entry → s.mmu.mapped q page = some entry) :
    Sound { s with mmu := mmu } where
  allocator := hs.allocator
  frameSize_eq := hs.frameSize_eq
  frames_fit := by
    rw [hmem]
    exact hs.frames_fit
  memory_lt := by
    rw [hmem]
    exact hs.memory_lt
  pageSize_eq := hps.trans hs.pageSize_eq
  entry_ok q page entry h := hs.entry_ok q page entry (hsub q page entry h)
  frame_inj q page entry q' page' entry' h h' :=
    hs.frame_inj q page entry q' page' entry' (hsub q page entry h) (hsub q' page' entry' h')
  frame_used q page entry h := hs.frame_used q page entry (hsub q page entry h)
  swap := hs.swap
  slot_ok := hs.slot_ok
  slot_inj := hs.slot_inj

/-- Freeing a frame that is not mapped. -/
theorem freeFrame (hs : Sound s) (pid : Pid) {n : Nat}
    (hidle : ∀ q page entry, s.mmu.mapped q page = some entry → entry.frame.toNat / 4096 ≠ n) :
    Sound { s with memoryManager := (s.memoryManager.freeFrame pid n).2 } := by
  obtain ⟨htotal, hfsize⟩ := s.memoryManager.freeFrame_static pid n
  refine ⟨PhysicalMemoryManager.freeFrame_exact hs.allocator pid n, hfsize.trans hs.frameSize_eq,
    ?_, hs.memory_lt, hs.pageSize_eq, hs.entry_ok, hs.frame_inj, ?_, hs.swap, hs.slot_ok,
    hs.slot_inj⟩
  · show (s.memoryManager.freeFrame pid n).2.allocator.totalFrames * 4096 ≤ s.mmu.memory.size
    rw [htotal]
    exact hs.frames_fit
  · intro q page entry h hfree
    rcases s.memoryManager.freeFrame_queue pid n hfree with hfree | hfree
    · exact hs.frame_used q page entry h hfree
    · exact hidle q page entry h hfree

/-- Recording a new slot for a page. -/
theorem insertSwapped (hs : Sound s) {pid : Pid} {page : VirtAddr} {slot : Nat}
    (hocc : s.swapManager.Occupied slot) (hback : s.swapManager.Backed slot)
    (hnew : ∀ q page', s.swappedSlot q page' ≠ some slot) :
    Sound (s.insertSwapped pid page slot) := by
  have hslot := s.insertSwapped_swappedSlot pid page slot
  refine ⟨hs.allocator, hs.frameSize_eq, hs.frames_fit, hs.memory_lt, hs.pageSize_eq, hs.entry_ok,
    hs.frame_inj, hs.frame_used, hs.swap, ?_, ?_⟩
  · intro q page' n h
    rw [hslot] at h
    split at h
    · cases h
      exact ⟨hocc, hback⟩
    · exact hs.slot_ok q page' n h
  · intro q page' q' page'' n h h'
    rw [hslot] at h h'
    split at h <;> split at h'
    · next hq hq' => exact ⟨hq.1.trans hq'.1.symm, hq.2.trans hq'.2.symm⟩
    · cases h
      exact absurd h' (hnew q' page'')
    · cases h'
      exact absurd h (hnew q page')
    · exact hs.slot_inj q page' q' page'' n h h'

/-- A frame that was just allocated is used and mapped nowhere. -/
theorem fresh_frame (hs : Sound s) {frame : Frame} {manager : PhysicalMemoryManager}
    (hmem : frame.number ∈ s.memoryManager.allocator.freeQueue)
    (hnmem : frame.number ∉ manager.allocator.freeQueue)
    (haddr : frame.address = UInt64.ofNat (frame.number * s.memoryManager.allocator.frameSize)) :
    (pageBase frame.address).toNat / 4096 ∉ manager.allocator.freeQueue ∧
      pageBase frame.address = frame.address ∧
      frame.address.toNat + 4096 ≤ s.mmu.memory.size ∧
      ∀ q page entry, s.mmu.mapped q page = some entry → entry.frame ≠ pageBase frame.address := by
  rw [hs.frameSize_eq] at haddr
  obtain ⟨htoNat, hbase, hfit⟩ := hs.toNat_address (hs.allocator.lt_of_mem_queue hmem) haddr
  have hnum : frame.address.toNat / 4096 = frame.number := by omega
  refine ⟨by rw [hbase, hnum]; exact hnmem, hbase, hfit, fun q page entry h heq => ?_⟩
  have hfree := hs.frame_used q page entry h
  rw [heq, hbase, hnum] at hfree
  exact hfree hmem

end Sound

/-! ## The stages of the handler -/

variable {g : Written} {s : MemoryService}

/-- Nothing is recorded as written on the page. -/
def Unwritten (g : Written) (pid : Pid) (page : VirtAddr) : Prop :=
  ∀ v, pageBase v = page → g pid v = none

theorem unwritten_forget (g : Written) (pid : Pid) (virt : VirtAddr) :
    Unwritten (forgetPage g pid virt) pid (pageBase virt) :=
  fun _ hv => if_pos ⟨rfl, hv⟩

theorem Coherent.forgotten (hc : Coherent g s) (pid : Pid) (virt : VirtAddr) :
    Coherent (forgetPage g pid virt) s := by
  refine ⟨hc.toSound, fun p v b hb => hc.data p v b ?_⟩
  simp only [forgetPage] at hb
  split at hb
  · cases hb
  · exact hb

/-- Mapping over a page on which nothing is recorded keeps all bytes. -/
theorem Coherent.mapPage (hc : Coherent g s) {pid : Pid} {virt : VirtAddr} {phys : PhysAddr}
    {flags : PageFlags} (hpres : flags.present = true)
    (hused : (pageBase phys).toNat / 4096 ∉ s.memoryManager.allocator.freeQueue)
    (halone : ∀ q page entry, s.mmu.mapped q page = some entry → entry.frame = pageBase phys →
      q = pid ∧ page = pageBase virt)
    (hun : Unwritten g pid (pageBase virt)) :
    Coherent g { s with mmu := MemoryService.mapLossy s.mmu pid virt phys flags } := by
  refine ⟨hc.toSound.mapPage pid virt hpres hused halone, fun p v b hb => ?_⟩
  obtain ⟨hmem, -, hmapped⟩ := MemoryService.mapLossy_spec s.mmu pid virt phys flags
  simp only [hc.toSound.alignDown_eq] at hmapped
  have hne : ¬ (p = pid ∧ pageBase v = pageBase virt) := by
    rintro ⟨rfl, hv⟩
    rw [hun v hv] at hb
    cases hb
  have hsame : (MemoryService.mapLossy s.mmu pid virt phys flags).mapped p (pageBase v) =
      s.mmu.mapped p (pageBase v) := by rw [hmapped, if_neg hne]
  rcases hc.data p v b hb with ⟨entry, hmap, hbound, hbyte⟩ | ⟨hmap, hslot⟩
  · exact Or.inl ⟨entry, hsame.trans hmap, by rw [hmem]; exact hbound, by rw [hmem]; exact hbyte⟩
  · exact Or.inr ⟨hsame.trans hmap, hslot⟩

theorem Coherent.setManager (hc : Coherent g s) {manager : PhysicalMemoryManager}
    (hk : PhysicalMemoryManager.Keeps (fun _ => False) s.memoryManager manager) :
    Coherent g { s with memoryManager := manager } :=
  ⟨hc.toSound.setManager hk, hc.data⟩

/-- Second stage. -/
theorem Coherent.installFrame (hc : Coherent g s) {pid : Pid} {page : VirtAddr} {frame : Frame}
    {manager : PhysicalMemoryManager} (hpage : pageBase page = page)
    (hmem : frame.number ∈ s.memoryManager.allocator.freeQueue)
    (hnmem : frame.number ∉ manager.allocator.freeQueue)
    (haddr : frame.address = UInt64.ofNat (frame.number * s.memoryManager.allocator.frameSize))
    (hk : PhysicalMemoryManager.Keeps (fun _ => False) s.memoryManager manager)
    (hun : Unwritten g pid page) :
    Coherent g (MemoryService.installFrame { s with memoryManager := manager } pid page
      frame).service := by
  obtain ⟨hused, -, -, halone⟩ := hc.toSound.fresh_frame hmem hnmem haddr
  rw [MemoryService.installFrame_eq]
  refine (hc.setManager hk).mapPage rfl hused (fun q pg entry h heq => ?_) (by rw [hpage]; exact hun)
  exact absurd heq (halone q pg entry h)

theorem findVictimPage_mapped {ord : HashOrder} {pid vpid : Pid} {vaddr : VirtAddr}
    {vframe : PhysAddr} (h : s.findVictimPage ord pid = some (vpid, vaddr, vframe)) :
    ∃ entry, s.mmu.mapped vpid vaddr = some entry ∧ entry.frame = vframe := by
  have hmem : (vpid, vaddr, vframe) ∈ s.mmu.allPresentPages ord := by
    simp only [MemoryService.findVictimPage] at h
    split at h
    · next hfind =>
      cases h
      exact List.mem_of_find?_eq_some hfind
    · exact List.mem_of_mem_head? h
  obtain ⟨entry, hmap, -, hframe⟩ := (MMU.mem_allPresentPages s.mmu ord vpid vaddr vframe).1 hmem
  exact ⟨entry, hmap, hframe⟩

/-- The saved page has the bytes that the process would read. -/
theorem pageData_getD (hs : Sound s) {vpid : Pid} {v : VirtAddr} {entry : PageTableEntry}
    (hmap : s.mmu.mapped vpid (pageBase v) = some entry) {b : UInt8}
    (hbound : s.mmu.memory.InBounds (entry.frame.toNat + v.toNat % 4096) 1)
    (hbyte : s.mmu.memory.data (entry.frame.toNat + v.toNat % 4096) = b) :
    (MemoryService.pageData s.mmu vpid (pageBase v)).getD (v.toNat % 4096) 0 = b := by
  have hlt : v.toNat % 4096 < 4096 := Nat.mod_lt _ (by decide)
  have hread : s.mmu.readU8 vpid v = .ok b := (hs.readU8_iff hmap b).2 ⟨hbound, hbyte⟩
  have haddr : pageBase v + UInt64.ofNat (v.toNat % 4096) = v := by
    have hsub : UInt64.ofNat (v.toNat % 4096) = v - pageBase v := by
      apply UInt64.toNat_inj.1
      have hoff : (v - pageBase v).toNat = v.toNat % 4096 := PageSize.fourK.toNat_sub_alignDown v
      rw [hoff, UInt64.toNat_ofNat']
      exact Nat.mod_eq_of_lt (by omega)
    rw [hsub, UInt64.add_comm]
    exact UInt64.sub_add_cancel v (pageBase v)
  simp [MemoryService.pageData, List.getD_eq_getElem?_getD, hlt, haddr, hread]

/-- The occupied slots are still occupied and hold the same bytes. -/
structure SlotsKept (old new : SwapManager) : Prop where
  exact : new.Exact
  occupied_of : ∀ n, old.Occupied n → new.Occupied n
  backed_of : ∀ n, old.Backed n → new.Backed n
  slotByte_of : ∀ n, old.Occupied n → ∀ k, k < 4096 → new.slotByte n k = old.slotByte n k

/-- A new slot holds the page. -/
structure SavedTo (old new : SwapManager) (slot : Nat) (data : List UInt8) : Prop
    extends SlotsKept old new where
  not_occupied : ¬ old.Occupied slot
  occupied : new.Occupied slot
  backed : new.Backed slot
  slotByte_eq : ∀ k, k < 4096 → new.slotByte slot k = data.getD k 0

/-- Writing to a newly allocated slot, successfully or not, leaves the occupied slots alone. -/
theorem slotsKept_swapOut {old swap : SwapManager} (hx : old.Exact) {pid : Pid} {vpn : Nat}
    {slot : SwapSlot} (halloc : old.allocateSlot pid vpn = (some slot, swap)) (data : List UInt8) :
    SlotsKept old (swap.swapOut slot.number data).2 := by
  obtain ⟨hx', hdisk, hnocc, -, hlt, htotal, hkeep⟩ := SwapManager.allocateSlot_spec hx halloc
  refine ⟨⟨hx'.length_eq, hx'.total_le, hx'.number_eq, hx'.queue_nodup, hx'.queue_free⟩, hkeep,
    fun n hn => ?_, fun n hn k hk => ?_⟩
  · rw [SwapManager.swapOut_backed_iff]
    show SwapManager.startSector n + 8 ≤ swap.disk.totalSectors
    rw [hdisk]
    exact hn
  · have hne : n ≠ slot.number := by
      rintro rfl
      exact hnocc hn
    have hn' : n < swap.totalSlots := by
      rw [htotal]
      exact hx.lt_of_occupied hn
    rw [SwapManager.swapOut_slotByte_of_ne data (hx'.startSector_ne hn' hlt hne) hk]
    simp only [SwapManager.slotByte, hdisk]

theorem savedTo_swapOut {old swap : SwapManager} (hx : old.Exact) {pid : Pid} {vpn : Nat}
    {slot : SwapSlot} (halloc : old.allocateSlot pid vpn = (some slot, swap)) (data : List UInt8)
    (hout : (swap.swapOut slot.number data).1 = .ok ()) :
    SavedTo old (swap.swapOut slot.number data).2 slot.number data := by
  obtain ⟨-, -, hnocc, hocc, -, -, -⟩ := SwapManager.allocateSlot_spec hx halloc
  obtain ⟨hbacked, hbytes⟩ := SwapManager.swapOut_ok hout
  exact ⟨slotsKept_swapOut hx halloc data, hnocc, hocc, hbacked, hbytes⟩

theorem Sound.setSwap (hs : Sound s) {swap : SwapManager} (hk : SlotsKept s.swapManager swap) :
    Sound { s with swapManager := swap } where
  allocator := hs.allocator
  frameSize_eq := hs.frameSize_eq
  frames_fit := hs.frames_fit
  memory_lt := hs.memory_lt
  pageSize_eq := hs.pageSize_eq
  entry_ok := hs.entry_ok
  frame_inj := hs.frame_inj
  frame_used := hs.frame_used
  swap := hk.exact
  slot_ok q page n h :=
    ⟨hk.occupied_of n (hs.slot_ok q page n h).1, hk.backed_of n (hs.slot_ok q page n h).2⟩
  slot_inj := hs.slot_inj

/-- A failed eviction can at most lose a slot. -/
theorem Coherent.setSwap (hc : Coherent g s) {swap : SwapManager}
    (hk : SlotsKept s.swapManager swap) : Coherent g { s with swapManager := swap } := by
  refine ⟨hc.toSound.setSwap hk, fun p v b hb => ?_⟩
  rcases hc.data p v b hb with hin | ⟨hmap, n, hn, hbyte⟩
  · exact Or.inl hin
  · have hocc := (hc.slot_ok _ _ _ hn).1
    exact Or.inr ⟨hmap, n, hn, (hk.slotByte_of n hocc _ (Nat.mod_lt _ (by decide))).trans hbyte⟩

/-- The victim's frame becomes free only after its page is unmapped. -/
theorem Sound.releaseVictim (hs : Sound s) {vpid : Pid} {vaddr : VirtAddr}
    {entry : PageTableEntry} {swap : SwapManager} {slot : Nat} {data : List UInt8}
    (hmap : s.mmu.mapped vpid vaddr = some entry) (hsaved : SavedTo s.swapManager swap slot data) :
    Sound (MemoryService.releaseVictim { s with swapManager := swap } vpid vaddr entry.frame
      slot) := by
  obtain ⟨hpage, hframe, -⟩ := hs.entry_ok _ _ _ hmap
  obtain ⟨hmem, hps, hunmapped⟩ := MemoryService.unmapLossy_spec hmap vaddr
  simp only [hs.alignDown_eq, hpage] at hunmapped
  have hshrunk := (hs.setSwap hsaved.toSlotsKept).shrink hmem hps (by
    intro q page e h
    rw [hunmapped] at h
    split at h
    · cases h
    · exact h)
  have hfreed := hshrunk.freeFrame vpid (n := entry.frame.toNat / 4096) (by
    intro q page e h heq
    replace h : (MemoryService.unmapLossy s.mmu vpid vaddr).mapped q page = some e := h
    rw [hunmapped] at h
    split at h
    · cases h
    · next hne =>
      have hsame := frame_eq_of_div (hs.entry_ok _ _ _ h).2.1 hframe heq
      exact hne (hs.frame_inj _ _ _ _ _ _ h hmap hsame))
  refine hfreed.insertSwapped hsaved.occupied hsaved.backed fun q page h => ?_
  exact hsaved.not_occupied (hs.slot_ok q page slot h).1

/-- Third stage, first half: the victim's bytes move to its slot. -/
theorem Coherent.releaseVictim (hc : Coherent g s) {vpid : Pid} {vaddr : VirtAddr}
    {entry : PageTableEntry} {swap : SwapManager} {slot : Nat}
    (hmap : s.mmu.mapped vpid vaddr = some entry)
    (hsaved : SavedTo s.swapManager swap slot (MemoryService.pageData s.mmu vpid vaddr)) :
    Coherent g (MemoryService.releaseVictim { s with swapManager := swap } vpid vaddr entry.frame
      slot) := by
  refine ⟨hc.toSound.releaseVictim hmap hsaved, fun p v b hb => ?_⟩
  obtain ⟨hpage, -, -⟩ := hc.entry_ok _ _ _ hmap
  obtain ⟨hmem, -, hunmapped⟩ := MemoryService.unmapLossy_spec hmap vaddr
  simp only [hc.toSound.alignDown_eq, hpage] at hunmapped
  have hslot := MemoryService.insertSwapped_swappedSlot
    { s with
      swapManager := swap
      mmu := MemoryService.unmapLossy s.mmu vpid vaddr
      memoryManager := (s.memoryManager.freeFrame vpid (entry.frame.toNat / 4096)).2 }
    vpid vaddr slot p (pageBase v)
  have hmapped := hunmapped p (pageBase v)
  rcases hc.data p v b hb with ⟨e, he, hbound, hbyte⟩ | ⟨he, n, hn, hbyte⟩
  · rcases em (p = vpid ∧ pageBase v = vaddr) with hv | hv
    · -- the byte was on the victim page
      obtain ⟨rfl, rfl⟩ := hv
      rw [if_pos ⟨rfl, rfl⟩] at hslot hmapped
      refine Or.inr ⟨hmapped, slot, hslot, ?_⟩
      have hdata := pageData_getD hc.toSound he hbound hbyte
      exact (hsaved.slotByte_eq _ (Nat.mod_lt _ (by decide))).trans hdata
    · rw [if_neg hv] at hmapped
      refine Or.inl ⟨e, hmapped.trans he, ?_, ?_⟩
      · show (MemoryService.unmapLossy s.mmu vpid vaddr).memory.InBounds _ 1
        rw [hmem]
        exact hbound
      · show (MemoryService.unmapLossy s.mmu vpid vaddr).memory.data _ = b
        rw [hmem]
        exact hbyte
  · have hv : ¬ (p = vpid ∧ pageBase v = vaddr) := by
      rintro ⟨rfl, rfl⟩
      rw [hmap] at he
      cases he
    rw [if_neg hv] at hslot hmapped
    refine Or.inr ⟨hmapped.trans he, n, hslot.trans hn, ?_⟩
    have hocc := (hc.slot_ok _ _ _ hn).1
    exact (hsaved.slotByte_of n hocc _ (Nat.mod_lt _ (by decide))).trans hbyte

/-- Third stage: on a page without recorded bytes it keeps everything. -/
theorem Coherent.evictAndInstall (hc : Coherent g s) (ord : HashOrder) {pid : Pid}
    {page : VirtAddr} (hpage : pageBase page = page) (hun : Unwritten g pid page) :
    Coherent g (s.evictAndInstall ord pid page).service := by
  -- no victim, no slot, a slot that is not written: the pages stay where they are
  cases hvictim : s.findVictimPage ord pid with
  | none =>
    simp only [MemoryService.evictAndInstall, hvictim]
    exact hc
  | some victim =>
    obtain ⟨vpid, vaddr, vframe⟩ := victim
    obtain ⟨entry, hmap, rfl⟩ := findVictimPage_mapped hvictim
    cases halloc : s.swapManager.allocateSlot vpid (vaddr.toNat / 4096) with
    | mk result swap =>
      cases result with
      | none =>
        have hsame := SwapManager.allocateSlot_none halloc
        subst hsame
        simp only [MemoryService.evictAndInstall, hvictim, halloc]
        exact hc
      | some slot =>
        cases hout : swap.swapOut slot.number (MemoryService.pageData s.mmu vpid vaddr) with
        | mk outcome swap' =>
          have hswap' : swap' =
              (swap.swapOut slot.number (MemoryService.pageData s.mmu vpid vaddr)).2 := by rw [hout]
          cases outcome with
          | error e =>
            simp only [MemoryService.evictAndInstall, hvictim, halloc, hout]
            rw [hswap']
            exact hc.setSwap (slotsKept_swapOut hc.swap halloc _)
          | ok u =>
            -- the page of the victim is saved, and its frame can be given back
            have hsaved := savedTo_swapOut hc.swap halloc
              (MemoryService.pageData s.mmu vpid vaddr) (by rw [hout])
            rw [← hswap'] at hsaved
            have hrel := hc.releaseVictim hmap hsaved
            simp only [MemoryService.evictAndInstall, hvictim, halloc, hout]
            -- the frame that was given back can be the one that is installed
            rcases PhysicalMemoryManager.allocateFrames_one hrel.allocator pid with
              ⟨-, hnone⟩ | ⟨frame, manager, hsome, hmem, hnmem, haddr, hk⟩
            · simp only [hnone]
              exact hrel
            · simp only [hsome]
              exact hrel.installFrame hpage hmem hnmem haddr hk hun

/-- Second and third stage together. -/
theorem Coherent.allocateOrEvict (hc : Coherent g s) (ord : HashOrder) {pid : Pid}
    {page : VirtAddr} (hpage : pageBase page = page) (hun : Unwritten g pid page) :
    Coherent g (s.allocateOrEvict ord pid page).service := by
  rcases PhysicalMemoryManager.allocateFrames_one hc.allocator pid with
    ⟨-, hnone⟩ | ⟨frame, manager, hsome, hmem, hnmem, haddr, hk⟩
  · simp only [MemoryService.allocateOrEvict, hnone]
    exact hc.evictAndInstall ord hpage hun
  · simp only [MemoryService.allocateOrEvict, hsome]
    exact hc.installFrame hpage hmem hnmem haddr hk hun

/-- Copying a page into a frame that was mapped for it. -/
theorem restored_mmu (hs : Sound s) (pid : Pid) {page : VirtAddr} (hpage : pageBase page = page)
    {frame : Frame} (hbase : pageBase frame.address = frame.address)
    (hfit : frame.address.toNat + 4096 ≤ s.mmu.memory.size) {data : List UInt8}
    (hlen : data.length = 4096) :
    let mapped := MemoryService.mapLossy s.mmu pid page frame.address PageFlags.presentWritable
    (mapped.writeBytes pid page data).pageTables = mapped.pageTables ∧
      (mapped.writeBytes pid page data).pageSize = mapped.pageSize ∧
      (mapped.writeBytes pid page data).memory.size = mapped.memory.size ∧
      ∀ a, (mapped.writeBytes pid page data).memory.data a =
        if frame.address.toNat ≤ a ∧ a < frame.address.toNat + 4096
        then data.getD (a - frame.address.toNat) 0 else s.mmu.memory.data a := by
  obtain ⟨hmem, hps, hmapped⟩ :=
    MemoryService.mapLossy_spec s.mmu pid page frame.address PageFlags.presentWritable
  have hself := hmapped pid page
  simp only [hs.alignDown_eq, hpage, hbase, and_self, if_true] at hself
  -- the page is mapped to the frame, and the copy goes through this mapping
  have hshift : (MemoryService.mapLossy s.mmu pid page frame.address
      PageFlags.presentWritable).pageSize = PageSize.fourK := hps.trans hs.pageSize_eq
  have halign : ∀ a, (MemoryService.mapLossy s.mmu pid page frame.address
      PageFlags.presentWritable).alignDown a = pageBase a := by
    intro a
    show (MemoryService.mapLossy s.mmu pid page frame.address
      PageFlags.presentWritable).pageSize.alignDown a = pageBase a
    rw [hshift]
    rfl
  have hcopy := MMU.foldl_writeU8Lossy (k := 0) data ((halign page).trans hpage) hself rfl rfl
    ((halign _).trans hbase) (by rw [hshift, hlen]; decide)
    (by
      rw [hmem, hlen]
      have hlt := hs.memory_lt
      exact ⟨by show frame.address.toNat + 0 + 4096 < 2 ^ 64; omega, by simpa using hfit⟩)
  simp only [Nat.add_zero, hlen, hmem] at hcopy
  exact hcopy

/-- The tables after mapping the frame and copying into it: the page has the frame, and no other
entry changed. -/
theorem restored_mapped (hs : Sound s) (pid : Pid) {page : VirtAddr} (hpage : pageBase page = page)
    {frame : Frame} (hbase : pageBase frame.address = frame.address)
    (hfit : frame.address.toNat + 4096 ≤ s.mmu.memory.size) {data : List UInt8}
    (hlen : data.length = 4096) (q : Pid) (pg : VirtAddr) :
    ((MemoryService.mapLossy s.mmu pid page frame.address
      PageFlags.presentWritable).writeBytes pid page data).mapped q pg =
      if q = pid ∧ pg = page then some ⟨frame.address, PageFlags.presentWritable⟩
      else s.mmu.mapped q pg := by
  obtain ⟨htables, -, -, -⟩ := restored_mmu hs pid hpage hbase hfit hlen
  obtain ⟨-, -, hmapped⟩ :=
    MemoryService.mapLossy_spec s.mmu pid page frame.address PageFlags.presentWritable
  simp only [hs.alignDown_eq, hpage, hbase] at hmapped
  rw [← hmapped]
  simp only [MMU.mapped, htables]

/-- A restored page keeps the tables in order: its slot is freed and no other page had it. -/
theorem Sound.restorePage (hs : Sound s) {pid : Pid} {page : VirtAddr} {slot : Nat}
    {data : List UInt8} {frame : Frame} {manager : PhysicalMemoryManager}
    (hpage : pageBase page = page) (hslot : s.swappedSlot pid page = some slot)
    (hlen : data.length = 4096)
    (hmem : frame.number ∈ s.memoryManager.allocator.freeQueue)
    (hnmem : frame.number ∉ manager.allocator.freeQueue)
    (haddr : frame.address = UInt64.ofNat (frame.number * s.memoryManager.allocator.frameSize))
    (hk : PhysicalMemoryManager.Keeps (fun _ => False) s.memoryManager manager) :
    Sound (MemoryService.restorePage { s with memoryManager := manager } pid page slot data
      frame) := by
  obtain ⟨hused, hbase, hfit, halone⟩ := hs.fresh_frame hmem hnmem haddr
  obtain ⟨htables, hps, hsize, -⟩ := restored_mmu hs pid hpage hbase hfit hlen
  have hremoved : ∀ q pg, (MemoryService.restorePage { s with memoryManager := manager } pid page
      slot data frame).swappedSlot q pg =
      if q = pid ∧ pg = page then none else s.swappedSlot q pg :=
    MemoryService.removeSwapped_swappedSlot _ pid page
  obtain ⟨hxs, hdisk, htotal, hoccs⟩ := SwapManager.freeSlot_spec hs.swap slot
  have hbacked : ∀ n, s.swapManager.Backed n → (s.swapManager.freeSlot slot).2.Backed n := by
    intro n hn
    show SwapManager.startSector n + 8 ≤ (s.swapManager.freeSlot slot).2.disk.totalSectors
    rw [hdisk]
    exact hn
  -- tables and allocator as after mapping a fresh frame
  have hsound : Sound { s with
      memoryManager := manager
      mmu := (MemoryService.mapLossy s.mmu pid page frame.address
        PageFlags.presentWritable).writeBytes pid page data } := by
    have hpres : PageFlags.presentWritable.present = true := rfl
    have hmappedSound := (hs.setManager hk).mapPage pid page hpres hused
      (fun q pg entry h heq => absurd heq (halone q pg entry h))
    exact hmappedSound.setMemory htables hps hsize
  refine ⟨hsound.allocator, hsound.frameSize_eq, hsound.frames_fit, hsound.memory_lt,
    hsound.pageSize_eq, hsound.entry_ok, hsound.frame_inj, hsound.frame_used, hxs, ?_, ?_⟩
  · intro q pg n h
    rw [hremoved] at h
    split at h
    · cases h
    · next hne =>
      obtain ⟨hocc, hback⟩ := hs.slot_ok q pg n h
      refine ⟨hoccs n ?_ hocc, hbacked n hback⟩
      rintro rfl
      exact hne (hs.slot_inj q pg pid page n h hslot)
  · intro q pg q' pg' n h h'
    rw [hremoved] at h h'
    split at h
    · cases h
    · split at h'
      · cases h'
      · exact hs.slot_inj q pg q' pg' n h h'

/-- First stage, the page returns from its slot. Bytes that were recorded for the page are in the
slot, because the page was not mapped. -/
theorem Coherent.restorePage (hc : Coherent g s) {pid : Pid} {page : VirtAddr} {slot : Nat}
    {data : List UInt8} {frame : Frame} {manager : PhysicalMemoryManager}
    (hpage : pageBase page = page) (hslot : s.swappedSlot pid page = some slot)
    (hlen : data.length = 4096)
    (hdata : ∀ k, k < 4096 → data.getD k 0 = s.swapManager.slotByte slot k)
    (hmem : frame.number ∈ s.memoryManager.allocator.freeQueue)
    (hnmem : frame.number ∉ manager.allocator.freeQueue)
    (haddr : frame.address = UInt64.ofNat (frame.number * s.memoryManager.allocator.frameSize))
    (hk : PhysicalMemoryManager.Keeps (fun _ => False) s.memoryManager manager)
    (hout : ∀ v b, pageBase v = page → g pid v = some b → s.mmu.mapped pid page = none) :
    Coherent g (MemoryService.restorePage { s with memoryManager := manager } pid page slot data
      frame) := by
  refine ⟨hc.toSound.restorePage hpage hslot hlen hmem hnmem haddr hk, fun p v b hb => ?_⟩
  obtain ⟨-, hbase, hfit, halone⟩ := hc.toSound.fresh_frame hmem hnmem haddr
  obtain ⟨-, -, hsize, hbytes⟩ := restored_mmu hc.toSound pid hpage hbase hfit hlen
  obtain ⟨hmem0, -, -⟩ :=
    MemoryService.mapLossy_spec s.mmu pid page frame.address PageFlags.presentWritable
  rw [hmem0] at hsize
  have hv := restored_mapped hc.toSound pid hpage hbase hfit hlen p (pageBase v)
  have hsv := MemoryService.removeSwapped_swappedSlot
    { s with
      memoryManager := manager
      mmu := (MemoryService.mapLossy s.mmu pid page frame.address
        PageFlags.presentWritable).writeBytes pid page data
      swapManager := (s.swapManager.freeSlot slot).2 } pid page p (pageBase v)
  have hoff : v.toNat % 4096 < 4096 := Nat.mod_lt _ (by decide)
  rcases em (p = pid ∧ pageBase v = page) with hpv | hpv
  · -- a byte of the page itself: it was in the slot and is now in the new frame
    rw [if_pos hpv] at hv
    obtain ⟨rfl, rfl⟩ := hpv
    have hlt := hc.memory_lt
    refine Or.inl ⟨_, hv, ⟨by show frame.address.toNat + _ + 1 < _; omega,
      le_of_le_of_eq (by show frame.address.toNat + _ + 1 ≤ _; omega) hsize.symm⟩, ?_⟩
    have hbyte := hbytes (frame.address.toNat + v.toNat % 4096)
    rw [if_pos ⟨by omega, by omega⟩, Nat.add_sub_cancel_left, hdata _ hoff] at hbyte
    refine hbyte.trans ?_
    rcases hc.data p v b hb with ⟨e, he, -, -⟩ | ⟨-, n, hn, hbyte'⟩
    · rw [hout v b rfl hb] at he
      cases he
    · rw [hslot] at hn
      cases hn
      exact hbyte'
  · rw [if_neg hpv] at hv hsv
    rcases hc.data p v b hb with ⟨e, he, hbound, hbyte⟩ | ⟨he, n, hn, hbyte⟩
    · -- another page: its frame is not the new one
      refine Or.inl ⟨e, hv.trans he, ⟨hbound.1, le_of_le_of_eq hbound.2 hsize.symm⟩, ?_⟩
      have hother := hbytes (e.frame.toNat + v.toNat % 4096)
      rw [if_neg] at hother
      · exact hother.trans hbyte
      · rintro ⟨hge, hlt⟩
        have hframe := (hc.entry_ok _ _ _ he).2.1
        have hi : e.frame.toNat + v.toNat % 4096 - frame.address.toNat < 4096 := by omega
        have heq := (frame_disjoint hframe hbase hoff hi (by omega)).1
        exact halone _ _ _ he (heq.trans hbase.symm)
    · refine Or.inr ⟨hv.trans he, n, hsv.trans hn, ?_⟩
      obtain ⟨-, hdisk, -, -⟩ := SwapManager.freeSlot_spec hc.swap slot
      show (s.swapManager.freeSlot slot).2.slotByte n _ = b
      simp only [SwapManager.slotByte, hdisk]
      exact hbyte

/-- A served fault keeps every recorded byte when it comes in order. -/
theorem Coherent.pageFault (hc : Coherent g s) (ord : HashOrder) (pid : Pid) (addr : VirtAddr)
    (access : AccessType)
    (hin : ∀ v b, pageBase v = pageBase addr → g pid v = some b →
      s.mmu.mapped pid (pageBase addr) = none ∧ s.memoryManager.allocator.freeQueue ≠ []) :
    Coherent g (s.handlePageFaultWithResponse ord pid addr access).service := by
  have hpage : pageBase (pageBase addr) = pageBase addr := PageSize.fourK.alignDown_alignDown addr
  cases hslot : s.swappedSlot pid (pageBase addr) with
  | none =>
    simp only [MemoryService.handlePageFaultWithResponse, hslot]
    refine hc.allocateOrEvict ord hpage fun v hv => ?_
    -- a recorded byte of an unmapped page would be in a slot
    cases hg : g pid v with
    | none => rfl
    | some b =>
      rcases hc.data pid v b hg with ⟨e, he, -, -⟩ | ⟨-, n, hn, -⟩
      · rw [hv, (hin v b hv hg).1] at he
        cases he
      · rw [hv, hslot] at hn
        cases hn
  | some slot =>
    obtain ⟨data, hread, hlen, hdata⟩ := SwapManager.swapIn_ok (hc.slot_ok _ _ _ hslot).2
    rcases PhysicalMemoryManager.allocateFrames_one hc.allocator pid with
      ⟨hempty, hnone⟩ | ⟨frame, manager, hsome, hmem, hnmem, haddr, hk⟩
    · simp only [MemoryService.handlePageFaultWithResponse, hslot, hread, hnone]
      refine hc.allocateOrEvict ord hpage fun v hv => ?_
      cases hg : g pid v with
      | none => rfl
      | some b => exact absurd hempty (hin v b hv hg).2
    · simp only [MemoryService.handlePageFaultWithResponse, hslot, hread, hsome]
      exact hc.restorePage hpage hslot hlen hdata hmem hnmem haddr hk
        fun v b hv hg => (hin v b hv hg).1

/-- A write stores its byte and no other recorded one. -/
theorem Coherent.write (hc : Coherent g s) {pid : Pid} {vaddr : VirtAddr} {value : UInt8}
    {mmu : MMU} (h : s.mmu.writeU8 pid vaddr value = .ok mmu) :
    Coherent (fun q v => if q = pid ∧ v = vaddr then some value else g q v)
      { s with mmu := mmu } := by
  obtain ⟨paddr, htrans, hbound, rfl⟩ := MMU.writeU8_eq_ok h
  obtain ⟨entry, hmap, -, -, rfl⟩ := (MMU.translate_write_eq_ok_iff _ _ _ _).1 htrans
  rw [hc.toSound.alignDown_eq] at hmap
  have hframe := (hc.entry_ok _ _ _ hmap).2.1
  have hpos := MMU.toNat_frame_add s.mmu (by rw [hc.toSound.alignDown_eq]; exact hframe) vaddr
  rw [hc.pageSize_eq] at hpos
  replace hpos : (entry.frame + (vaddr - s.mmu.alignDown vaddr)).toNat =
      entry.frame.toNat + vaddr.toNat % 4096 := hpos
  rw [hpos] at hbound ⊢
  refine ⟨hc.toSound.setMemory rfl rfl rfl, fun p v b hb => ?_⟩
  have hoff : ∀ w : VirtAddr, w.toNat % 4096 < 4096 := fun w => Nat.mod_lt _ (by decide)
  split at hb
  · next hpv =>
    obtain ⟨rfl, rfl⟩ := hpv
    cases hb
    exact Or.inl ⟨entry, hmap, hbound, by simp [PhysicalMemory.store_data]⟩
  · next hpv =>
    rcases hc.data p v b hb with ⟨e, he, hbound', hbyte⟩ | hslot
    · refine Or.inl ⟨e, he, hbound', ?_⟩
      show (s.mmu.memory.store (entry.frame.toNat + vaddr.toNat % 4096) value).data _ = b
      rw [PhysicalMemory.store_data, if_neg]
      · exact hbyte
      · -- the same position would be the same page of the same process and the same offset
        intro heq
        obtain ⟨hsame, hoffeq⟩ :=
          frame_disjoint (hc.entry_ok _ _ _ he).2.1 hframe (hoff v) (hoff vaddr) heq
        obtain ⟨rfl, hpageeq⟩ := hc.frame_inj _ _ _ _ _ _ he hmap hsame
        exact hpv ⟨rfl, eq_of_page_offset hpageeq hoffeq⟩
    · exact Or.inr hslot

theorem Coherent.mapRequest (hc : Coherent g s) {pid : Pid} {virt : VirtAddr} {phys : PhysAddr}
    (prot : MemProt)
    (hused : (pageBase phys).toNat / 4096 ∉ s.memoryManager.allocator.freeQueue)
    (halone : ∀ q page entry, s.mmu.mapped q page = some entry → entry.frame = pageBase phys →
      q = pid ∧ page = pageBase virt) :
    Coherent (forgetPage g pid virt) (s.handleMapPageWithResponse pid virt phys prot).service := by
  have hpres : (PageFlags.ofProt prot).present = true := rfl
  exact (hc.forgotten pid virt).mapPage hpres hused halone (unwritten_forget g pid virt)

theorem Coherent.unmapRequest (hc : Coherent g s) (pid : Pid) (virt : VirtAddr) :
    Coherent (forgetPage g pid virt) (s.handleUnmapPageWithResponse pid virt).service := by
  have hforget := hc.forgotten pid virt
  cases hun : s.mmu.unmapPage pid virt with
  | error e =>
    simp only [MemoryService.handleUnmapPageWithResponse, hun]
    exact hforget
  | ok mmu =>
    simp only [MemoryService.handleUnmapPageWithResponse, hun]
    obtain ⟨hmem, hps, hmapped⟩ := MMU.unmapPage_mapped hun
    simp only [hc.toSound.alignDown_eq] at hmapped
    refine ⟨hc.toSound.shrink hmem hps ?_, fun p v b hb => ?_⟩
    · intro q page entry h
      rw [hmapped] at h
      split at h
      · cases h
      · exact h
    · have hne : ¬ (p = pid ∧ pageBase v = pageBase virt) := by
        rintro ⟨rfl, hv⟩
        rw [unwritten_forget g p virt v hv] at hb
        cases hb
      have hsame := hmapped p (pageBase v)
      rw [if_neg hne] at hsame
      rcases hforget.data p v b hb with ⟨e, he, hbound, hbyte⟩ | ⟨he, hslot⟩
      · exact Or.inl ⟨e, hsame.trans he, by rw [hmem]; exact hbound, by rw [hmem]; exact hbyte⟩
      · exact Or.inr ⟨hsame.trans he, hslot⟩

theorem Coherent.freeRequest (hc : Coherent g s) (paddr : PhysAddr)
    (hidle : ∀ q page entry, s.mmu.mapped q page = some entry →
      entry.frame.toNat / 4096 ≠ paddr.toNat / 4096) :
    Coherent g (s.handleFreeFrameWithResponse paddr).service := by
  have hservice : (s.handleFreeFrameWithResponse paddr).service =
      { s with memoryManager := (s.memoryManager.freeFrame 0 (paddr.toNat / 4096)).2 } := by
    simp only [MemoryService.handleFreeFrameWithResponse]
    split <;> rfl
  rw [hservice]
  exact ⟨hc.toSound.freeFrame 0 hidle, hc.data⟩

/-! ## Runs -/

theorem coherent_boot (size : UInt64) (swapImage : Nat → UInt8) :
    Coherent (fun _ _ => none) (bootMemory size swapImage) where
  allocator := FrameAllocator.new_exact size.toNat 4096
  frameSize_eq := rfl
  frames_fit := Nat.div_mul_le_self size.toNat 4096
  memory_lt := size.toNat_lt
  pageSize_eq := rfl
  entry_ok q page entry h := by cases h
  frame_inj q page entry q' page' entry' h := by cases h
  frame_used q page entry h := by cases h
  swap := SwapManager.default_exact _
  slot_ok q page n h := by cases h
  slot_inj q page q' page' n h := by cases h
  data p v b hb := by cases hb

/-- One event. -/
theorem coherent_step {t : Transition MemoryService PagingEvent}
    (hpost : t.post = (pagingStep t.pre t.act).1) (hok : FaultOrderly g t)
    (hc : Coherent g t.pre) : Coherent (recordWrite g t) t.post := by
  obtain ⟨pre, act, post⟩ := t
  replace hpost : post = (pagingStep pre act).1 := hpost
  replace hc : Coherent g pre := hc
  show Coherent (recordWrite g ⟨pre, act, post⟩) post
  -- one case for each event; a request goes through its handler
  subst hpost
  cases act with
  | allocFrame count pid =>
    have hk := PhysicalMemoryManager.allocateFrames_keeps hc.allocator pid count
    -- the answer differs, the service has what the allocator left
    have hservice : (pagingStep pre (.allocFrame count pid)).1 =
        { pre with memoryManager := (pre.memoryManager.allocateFrames pid count).2 } := by
      show (pre.handleEnvelope HashOrder.stored (.allocFrame count pid)).1 = _
      rw [handleEnvelope_service]
      simp only [MemoryService.handleMemoryRequestWithResponse,
        MemoryService.handleAllocFrameWithResponse]
      split <;> rfl
    rw [hservice]
    exact hc.setManager hk
  | freeFrame paddr =>
    show Coherent _ (pre.handleEnvelope HashOrder.stored (.freeFrame paddr)).1
    rw [handleEnvelope_service]
    exact hc.freeRequest paddr hok
  | unmapPage pid virt =>
    show Coherent _ (pre.handleEnvelope HashOrder.stored (.unmapPage pid virt)).1
    rw [handleEnvelope_service]
    exact hc.unmapRequest pid virt
  | mapPage pid virt phys prot =>
    show Coherent _ (pre.handleEnvelope HashOrder.stored (.mapPage pid virt phys prot)).1
    rw [handleEnvelope_service]
    exact hc.mapRequest prot hok.1 hok.2
  | pageFault ord pid addr access =>
    show Coherent _ (pre.handleEnvelope ord (.pageFaultHandler pid addr access)).1
    rw [handleEnvelope_service]
    exact hc.pageFault ord pid addr access hok
  | write pid vaddr value =>
    cases hw : pre.mmu.writeU8 pid vaddr value with
    -- a write that faults changes nothing and is not recorded
    | error e =>
      simp only [pagingStep, recordWrite, hw]
      exact hc
    | ok mmu =>
      simp only [pagingStep, recordWrite, hw]
      exact hc.write hw
  | read pid vaddr => exact hc

/-- An outcome whose first answer is a success has the page mapped. -/
def Serves (pid : Pid) (page : VirtAddr) (h : Handled) : Prop :=
  ∀ frame, h.sent.head? = some (.ok frame) → ∃ entry, h.service.mmu.mapped pid page = some entry

theorem serves_installFrame (hps : s.mmu.pageSize = PageSize.fourK) {pid : Pid} {page : VirtAddr}
    (hpage : pageBase page = page) (frame : Frame) : Serves pid page (s.installFrame pid page frame) := by
  intro answer _
  have hmapped := (MemoryService.mapLossy_spec s.mmu pid page frame.address
    PageFlags.presentWritable).2.2 pid page
  have halign : s.mmu.alignDown page = page := by
    show s.mmu.pageSize.alignDown page = page
    rw [hps]
    exact hpage
  rw [halign, if_pos ⟨rfl, rfl⟩] at hmapped
  exact ⟨_, hmapped⟩

theorem serves_faultExhausted (pid : Pid) (page : VirtAddr) :
    Serves pid page (MemoryService.faultExhausted s) := by
  intro answer h
  cases h

theorem unmapLossy_pageSize (m : MMU) (pid : Pid) (vaddr : VirtAddr) :
    (MemoryService.unmapLossy m pid vaddr).pageSize = m.pageSize := by
  simp only [MemoryService.unmapLossy]
  split
  · next h => exact (MMU.unmapPage_mapped h).2.1
  · rfl

theorem serves_evictAndInstall (hps : s.mmu.pageSize = PageSize.fourK) (ord : HashOrder) {pid : Pid}
    {page : VirtAddr} (hpage : pageBase page = page) :
    Serves pid page (s.evictAndInstall ord pid page) := by
  simp only [MemoryService.evictAndInstall]
  split
  · exact serves_faultExhausted pid page
  · next vpid vaddr vframe _ =>
    split
    · exact serves_faultExhausted pid page
    · split
      · exact serves_faultExhausted pid page
      · split
        · exact serves_faultExhausted pid page
        · refine serves_installFrame ?_ hpage _
          exact (unmapLossy_pageSize s.mmu vpid vaddr).trans hps

theorem serves_allocateOrEvict (hps : s.mmu.pageSize = PageSize.fourK) (ord : HashOrder) {pid : Pid}
    {page : VirtAddr} (hpage : pageBase page = page) :
    Serves pid page (s.allocateOrEvict ord pid page) := by
  simp only [MemoryService.allocateOrEvict]
  split
  · exact serves_installFrame hps hpage _
  · refine serves_evictAndInstall ?_ ord hpage
    exact hps

/-- A fault answered with success has mapped its page. -/
theorem serves_pageFault (hs : Sound s) (ord : HashOrder) (pid : Pid) (addr : VirtAddr)
    (access : AccessType) :
    Serves pid (pageBase addr) (s.handlePageFaultWithResponse ord pid addr access) := by
  have hpage : pageBase (pageBase addr) = pageBase addr := PageSize.fourK.alignDown_alignDown addr
  cases hslot : s.swappedSlot pid (pageBase addr) with
  | none =>
    simp only [MemoryService.handlePageFaultWithResponse, hslot]
    exact serves_allocateOrEvict hs.pageSize_eq ord hpage
  | some slot =>
    obtain ⟨data, hread, hlen, -⟩ := SwapManager.swapIn_ok (hs.slot_ok _ _ _ hslot).2
    rcases PhysicalMemoryManager.allocateFrames_one hs.allocator pid with
      ⟨-, hnone⟩ | ⟨frame, manager, hsome, hmem, hnmem, haddr, -⟩
    · simp only [MemoryService.handlePageFaultWithResponse, hslot, hread, hnone]
      exact serves_allocateOrEvict hs.pageSize_eq ord hpage
    · simp only [MemoryService.handlePageFaultWithResponse, hslot, hread, hsome]
      intro answer _
      obtain ⟨-, hbase, hfit, -⟩ := hs.fresh_frame hmem hnmem haddr
      obtain ⟨htables, -, -, -⟩ := restored_mmu hs pid hpage hbase hfit hlen
      have hmapped := (MemoryService.mapLossy_spec s.mmu pid (pageBase addr) frame.address
        PageFlags.presentWritable).2.2 pid (pageBase addr)
      rw [hs.alignDown_eq, hpage, if_pos ⟨rfl, rfl⟩] at hmapped
      refine ⟨_, Eq.trans ?_ hmapped⟩
      show ((MemoryService.mapLossy s.mmu pid (pageBase addr) frame.address
        PageFlags.presentWritable).writeBytes pid (pageBase addr) data).mapped pid (pageBase addr) = _
      simp only [MMU.mapped, htables]

/-- The first answer of an envelope is a success only if the handler sent it. -/
theorem sent_of_answered {ord : HashOrder} {req : MemoryRequest} {frame : ResponseData}
    (h : (s.handleEnvelope ord req).2.head? = some (.ok frame)) :
    (s.handleMemoryRequestWithResponse ord req).sent.head? = some (.ok frame) := by
  simp only [MemoryService.handleEnvelope] at h
  split at h
  · exact h
  · cases hsent : (s.handleMemoryRequestWithResponse ord req).sent with
    | nil =>
      rw [hsent] at h
      cases h
    | cons first rest =>
      rw [hsent] at h
      exact h

/-- Written bytes of the page are readable after a served fault. -/
theorem faultTransparent_of_coherent {t : Transition MemoryService PagingEvent}
    (hpost : t.post = (pagingStep t.pre t.act).1) (hc : Coherent g t.pre)
    (hc' : Coherent (recordWrite g t) t.post) : FaultTransparent g t := by
  obtain ⟨pre, act, post⟩ := t
  replace hpost : post = (pagingStep pre act).1 := hpost
  replace hc : Coherent g pre := hc
  cases act with
  | allocFrame count pid => exact trivial
  | freeFrame paddr => exact trivial
  | mapPage pid virt phys prot => exact trivial
  | unmapPage pid virt => exact trivial
  | write pid vaddr value => exact trivial
  | read pid vaddr => exact trivial
  | pageFault ord pid addr access =>
    intro frame hanswer v b hv hb
    have hservice : post = (pre.handlePageFaultWithResponse ord pid addr access).service :=
      hpost.trans (handleEnvelope_service pre ord (.pageFaultHandler pid addr access))
    obtain ⟨entry, hentry⟩ :=
      serves_pageFault hc.toSound ord pid addr access frame (sent_of_answered hanswer)
    rw [← hservice, ← hv] at hentry
    -- the page is mapped, so the byte is in its frame
    rcases hc'.data pid v b hb with ⟨e, he, hbound, hbyte⟩ | ⟨hnone, -⟩
    · exact (hc'.toSound.readU8_iff he b).2 ⟨hbound, hbyte⟩
    · replace hnone : post.mmu.mapped pid (pageBase v) = none := hnone
      rw [hentry] at hnone
      cases hnone

/-! ## A computable form of the condition -/

/-- What holds of the entries of all tables holds of the mapped ones. -/
theorem forall_mapped {m : MMU} {P : Pid → VirtAddr → PageTableEntry → Prop}
    (h : ∀ table ∈ m.pageTables.entries, ∀ e ∈ table.2.entries, P table.1 e.1 e.2) {q : Pid}
    {page : VirtAddr} {entry : PageTableEntry} (hentry : m.mapped q page = some entry) :
    P q page entry := by
  obtain ⟨table, htable, hpage⟩ := Option.bind_eq_some_iff.1 hentry
  exact h _ (AList.mem_lookup_iff.1 htable) _ (AList.mem_lookup_iff.1 hpage)

/-- The address that an event writes. -/
def PagingEvent.target : PagingEvent → Option (Pid × VirtAddr)
  | .write pid vaddr _ => some (pid, vaddr)
  | _ => none

/-- The condition when no other addresses are written than the given ones. -/
def OrderlyOn (written : List (Pid × VirtAddr)) (t : Transition MemoryService PagingEvent) : Prop :=
  match t.act with
  | .pageFault _ pid addr _ =>
    (∃ w ∈ written, w.1 = pid ∧ pageBase w.2 = pageBase addr) →
      t.pre.mmu.mapped pid (pageBase addr) = none ∧ t.pre.memoryManager.allocator.freeQueue ≠ []
  | .mapPage pid virt phys _ =>
    (pageBase phys).toNat / 4096 ∉ t.pre.memoryManager.allocator.freeQueue ∧
      ∀ table ∈ t.pre.mmu.pageTables.entries, ∀ e ∈ table.2.entries, e.2.frame = pageBase phys →
        table.1 = pid ∧ e.1 = pageBase virt
  | .freeFrame paddr =>
    ∀ table ∈ t.pre.mmu.pageTables.entries, ∀ e ∈ table.2.entries,
      e.2.frame.toNat / 4096 ≠ paddr.toNat / 4096
  | _ => True

instance (written : List (Pid × VirtAddr)) (t : Transition MemoryService PagingEvent) :
    Decidable (OrderlyOn written t) :=
  match t with
  | ⟨_, .pageFault _ _ _ _, _⟩ => inferInstanceAs (Decidable ((∃ w ∈ written, _ ∧ _) → _ ∧ _))
  | ⟨pre, .mapPage _ _ _ _, _⟩ =>
    inferInstanceAs (Decidable (_ ∧ ∀ table ∈ pre.mmu.pageTables.entries, ∀ e ∈ table.2.entries, _ → _))
  | ⟨pre, .freeFrame _, _⟩ =>
    inferInstanceAs (Decidable (∀ table ∈ pre.mmu.pageTables.entries, ∀ e ∈ table.2.entries, _))
  | ⟨_, .allocFrame _ _, _⟩ => .isTrue trivial
  | ⟨_, .unmapPage _ _, _⟩ => .isTrue trivial
  | ⟨_, .write _ _ _, _⟩ => .isTrue trivial
  | ⟨_, .read _ _, _⟩ => .isTrue trivial

/-- Only a write makes a record. -/
theorem recordWrite_some {g : Written} {t : Transition MemoryService PagingEvent} {p : Pid}
    {v : VirtAddr} {b : UInt8} (h : recordWrite g t p v = some b) :
    (p, v) ∈ t.act.target ∨ g p v = some b := by
  obtain ⟨pre, act, post⟩ := t
  have hforget : ∀ pid virt, forgetPage g pid virt p v = some b → g p v = some b := by
    intro pid virt hg
    rw [forgetPage] at hg
    split at hg
    · cases hg
    · exact hg
  cases act with
  | write pid vaddr value =>
    cases hw : pre.mmu.writeU8 pid vaddr value with
    | error e =>
      simp only [recordWrite, hw] at h
      exact Or.inr h
    | ok mmu =>
      simp only [recordWrite, hw] at h
      split at h
      · next hboth =>
        rw [hboth.1, hboth.2]
        exact Or.inl rfl
      · exact Or.inr h
  | mapPage pid virt phys prot => exact Or.inr (hforget pid virt h)
  | unmapPage pid virt => exact Or.inr (hforget pid virt h)
  | allocFrame count pid => exact Or.inr h
  | freeFrame paddr => exact Or.inr h
  | pageFault ord pid addr access => exact Or.inr h
  | read pid vaddr => exact Or.inr h

theorem OrderlyOn.faultOrderly {written : List (Pid × VirtAddr)} {g : Written}
    {t : Transition MemoryService PagingEvent} (h : OrderlyOn written t)
    (hg : ∀ p v b, g p v = some b → (p, v) ∈ written) : FaultOrderly g t := by
  obtain ⟨pre, act, post⟩ := t
  cases act with
  | pageFault ord pid addr access =>
    intro v b hpage hb
    exact h ⟨(pid, v), hg pid v b hb, rfl, hpage⟩
  | mapPage pid virt phys prot =>
    obtain ⟨hfree, hentries⟩ := h
    exact ⟨hfree, fun q page entry hentry =>
      forall_mapped (P := fun q page entry => entry.frame = pageBase phys →
        q = pid ∧ page = pageBase virt) hentries hentry⟩
  | freeFrame paddr =>
    intro q page entry hentry
    exact forall_mapped (P := fun _ _ entry => entry.frame.toNat / 4096 ≠ paddr.toNat / 4096) h hentry
  | allocFrame count pid => exact trivial
  | unmapPage pid virt => exact trivial
  | write pid vaddr value => exact trivial
  | read pid vaddr => exact trivial

theorem along_of_orderlyOn {written : List (Pid × VirtAddr)}
    {tr : List (Transition MemoryService PagingEvent)}
    (h : ∀ t ∈ tr, (∀ w ∈ t.act.target, w ∈ written) ∧ OrderlyOn written t) {g : Written}
    (hg : ∀ p v b, g p v = some b → (p, v) ∈ written) : Along recordWrite FaultOrderly g tr := by
  induction tr generalizing g with
  | nil => exact trivial
  | cons t tr ih =>
    obtain ⟨htarget, horderly⟩ := h t List.mem_cons_self
    refine ⟨horderly.faultOrderly hg, ih (fun u hu => h u (List.mem_cons_of_mem t hu)) ?_⟩
    intro p v b hb
    rcases recordWrite_some hb with hnew | hold
    · exact htarget _ hnew
    · exact hg p v b hold

/-- What a run leaves readable when it ends with a served fault. -/
theorem read_of_transparent {s : MemoryService} {g : Written} {events : List PagingEvent}
    {ord : HashOrder} {pid : Pid} {addr : VirtAddr} {access : AccessType}
    (h : Along recordWrite FaultTransparent g
      (runTrace pagingTransition s (events ++ [.pageFault ord pid addr access])).2)
    {frame : ResponseData}
    (hanswer : (pagingStep (runTrace pagingTransition s events).1
      (.pageFault ord pid addr access)).2.head? = some (.ok frame))
    {v : VirtAddr} {b : UInt8} (hpage : pageBase v = pageBase addr)
    (hwritten : history recordWrite g (runTrace pagingTransition s events).2 pid v = some b) :
    (runTrace pagingTransition s (events ++ [.pageFault ord pid addr access])).1.mmu.readU8 pid v =
      .ok b := by
  rw [runTrace_append] at h ⊢
  obtain ⟨hlast, -⟩ := ((along_append _ _ _ _ _).1 h).2
  exact hlast frame hanswer v b hpage hwritten

/-! ## Transparency -/

/-- In every run whose faults and mapping requests come in order, a served page fault leaves every
byte of its page as the process last wrote it. -/
theorem paging_transparent (size : UInt64) (swapImage : Nat → UInt8) (events : List PagingEvent)
    (horder : Along recordWrite FaultOrderly (fun _ _ => none)
      (runTrace pagingTransition (bootMemory size swapImage) events).2) :
    Along recordWrite FaultTransparent (fun _ _ => none)
      (runTrace pagingTransition (bootMemory size swapImage) events).2 := by
  obtain ⟨hchain, hsteps⟩ := runTrace_single (f := fun s e => (pagingStep s e).1)
    (fun s e => (rfl : pagingTransition s e = _)) (bootMemory size swapImage) events
  have hrun := hchain.coupled (coherent_boot size swapImage) horder
    (fun t ht g hok hc => coherent_step (hsteps t ht) hok hc)
  exact along_mono (fun t ht g hinv =>
    faultTransparent_of_coherent (hsteps t ht) hinv.1 hinv.2) hrun.2

/-- Process 1 writes 42 on its page and loses the page to a fault when no frame is left. Then a frame is
given back. -/
def evictionEvents : List PagingEvent :=
  [.allocFrame 1 1, .mapPage 1 0 0 MemProt.readWrite, .write 1 5 42,
    .pageFault HashOrder.stored 1 4096 .read, .pageFault HashOrder.reversed 1 8192 .read,
    .unmapPage 1 4096, .freeFrame 4096]

/-- The byte of an evicted page is read again when the page has been swapped in to another frame. -/
theorem paging_transparent_evicted :
    (runTrace pagingTransition (bootMemory 8192 fun _ => 0) evictionEvents).1.mmu.mapped 1 0 = none ∧
      (runTrace pagingTransition (bootMemory 8192 fun _ => 0)
        (evictionEvents ++ [.pageFault HashOrder.stored 1 0 .read])).1.mmu.readU8 1 5 = .ok 42 := by
  -- one evaluation of the run for all that is to be looked up in it
  have hfacts : (∀ t ∈ (runTrace pagingTransition (bootMemory 8192 fun _ => 0)
        (evictionEvents ++ [.pageFault HashOrder.stored 1 0 .read])).2,
          (∀ w ∈ t.act.target, w ∈ [(1, (5 : VirtAddr))]) ∧ OrderlyOn [(1, 5)] t) ∧
      (runTrace pagingTransition (bootMemory 8192 fun _ => 0) evictionEvents).1.mmu.mapped 1 0 = none ∧
      (pagingStep (runTrace pagingTransition (bootMemory 8192 fun _ => 0) evictionEvents).1
        (.pageFault HashOrder.stored 1 0 .read)).2.head? = some (.ok (.physicalAddr 4096)) ∧
      history recordWrite (fun _ _ => none) (runTrace pagingTransition (bootMemory 8192 fun _ => 0)
        evictionEvents).2 1 5 = some 42 := by decide +kernel
  obtain ⟨hall, hmapped, hanswer, hwritten⟩ := hfacts
  have hrun := paging_transparent 8192 (fun _ => 0) _
    (along_of_orderlyOn hall (fun p v b hb => by cases hb))
  exact ⟨hmapped, read_of_transparent hrun hanswer (by decide) hwritten⟩

/-- A fault on a page that is still mapped replaces the page by a blank one: the byte is lost. -/
theorem mapped_page_lost :
    ¬ Along recordWrite FaultTransparent (fun _ _ => none)
      (runTrace pagingTransition (bootMemory 8192 fun _ => 0)
        [.allocFrame 1 1, .mapPage 1 4096 0 MemProt.readWrite, .write 1 4096 7,
          .pageFault HashOrder.stored 1 4096 .read]).2 := by
  intro h
  have hread := h.2.2.2.1 (.physicalAddr 4096) rfl 4096 7 rfl rfl
  cases hread

end GenshinOs.Memory
