import GenshinOs.Memory.Service

/-!
# The two forms of a memory request

Every request can be sent with or without a response channel, and every request has a handler for
each form. `SameState` compares what the two handlers leave: the mappings of the MMU, the page tables
of the service, the frames, the slots and the record of swapped pages. For most requests the forms
agree. The two that are written against different page tables, mapping and the page fault, agree only
when neither changes anything: `forms_agree_iff`.
-/

set_option autoImplicit false

namespace GenshinOs.Memory

open GenshinOs.Lib GenshinOs.Hardware

variable {s a b : MemoryService}

/-- The same mappings, page tables, frames, slots and record. Bytes of memory and disk may differ. -/
structure SameState (a b : MemoryService) : Prop where
  tables : ∀ pid, (a.mmu.pageTables.lookup pid).isSome = (b.mmu.pageTables.lookup pid).isSome
  mapped : ∀ pid page, a.mmu.mapped pid page = b.mmu.mapped pid page
  pageTables : a.pageTables = b.pageTables
  memoryManager : a.memoryManager = b.memoryManager
  slots : a.swapManager.slots = b.swapManager.slots
  freeQueue : a.swapManager.freeQueue = b.swapManager.freeQueue
  processSlots : a.swapManager.processSlots = b.swapManager.processSlots
  usedSlots : a.swapManager.usedSlots = b.swapManager.usedSlots
  swapped : ∀ pid page, a.swappedSlot pid page = b.swappedSlot pid page

theorem SameState.refl (s : MemoryService) : SameState s s :=
  ⟨fun _ => rfl, fun _ _ => rfl, rfl, rfl, rfl, rfl, rfl, rfl, fun _ _ => rfl⟩

/-! ## When the two forms agree -/

/-- No frame can be handed out. -/
def FrameAllocator.Exhausted (a : FrameAllocator) : Prop :=
  a.freeQueue.head?.bind (fun n => a.frames[n]?) = none

/-- No slot can be handed out. -/
def SwapManager.Full (m : SwapManager) : Prop :=
  m.enabled = false ∨ m.freeQueue.head?.bind (fun n => m.slots[n]?) = none

/-- No process has a page that could be evicted. -/
def NoPresentPage (s : MemoryService) : Prop :=
  ∀ q page entry, s.mmu.mapped q page = some entry → entry.flags.present = false

/-- The service's own table has the page. -/
def InTable (s : MemoryService) (pid : Pid) (virt : VirtAddr) : Prop :=
  ∃ table, s.pageTables.getTable pid = some table ∧ (table.lookup virt).isSome

/-- A fault without a response channel is turned away: the process has no table, the page is there
already, or there is no frame. -/
def PlainFaultIdle (s : MemoryService) (pid : Pid) (addr : VirtAddr) : Prop :=
  s.pageTables.getTable pid = none ∨
    (∃ table entry, s.pageTables.getTable pid = some table ∧ table.lookup addr = some entry ∧
      entry.isPresent = true) ∨
    s.memoryManager.allocator.Exhausted

/-- A fault with a response channel is turned away: the page is in a slot beyond the disk, or there
is no frame and nothing can be evicted. -/
def AnsweredFaultIdle (s : MemoryService) (pid : Pid) (page : VirtAddr) : Prop :=
  (∃ slot, s.swappedSlot pid page = some slot ∧ ¬s.swapManager.Backed slot) ∨
    (s.memoryManager.allocator.Exhausted ∧ (NoPresentPage s ∨ s.swapManager.Full))

/-- Both forms take the same frame and throw it away: the service's table has an entry that is not
present, and the MMU maps the page to this very frame. -/
def BothFaultsRedundant (s : MemoryService) (pid : Pid) (addr : VirtAddr) : Prop :=
  (∃ table entry, s.pageTables.getTable pid = some table ∧ table.lookup addr = some entry ∧
      entry.isPresent = false) ∧
    s.swappedSlot pid (pageBase addr) = none ∧
    ∃ n frame, s.memoryManager.allocator.freeQueue.head? = some n ∧
      s.memoryManager.allocator.frames[n]? = some frame ∧
      s.mmu.mapped pid (s.mmu.alignDown (pageBase addr)) =
        some ⟨s.mmu.alignDown frame.address, PageFlags.presentWritable⟩

/-- The request has the same effect in both forms. -/
def FormsAgree (s : MemoryService) : MemoryRequest → Prop
  | .mapPage pid virt phys prot =>
    InTable s pid virt ∧
      s.mmu.mapped pid (s.mmu.alignDown virt) = some ⟨s.mmu.alignDown phys, PageFlags.ofProt prot⟩
  | .pageFaultHandler pid addr _ =>
    (PlainFaultIdle s pid addr ∧ AnsweredFaultIdle s pid (pageBase addr)) ∨
      BothFaultsRedundant s pid addr
  | _ => True

/-! ## Taking a frame or a slot -/

theorem allocateFrames_exhausted {m : PhysicalMemoryManager} (h : m.allocator.Exhausted)
    (pid : Pid) : m.allocateFrames pid 1 = ([], m) := by
  have hnone : m.allocator.allocate pid = (none, m.allocator) := by
    cases hq : m.allocator.freeQueue with
    | nil => simp only [FrameAllocator.allocate, hq]
    | cons n rest =>
      have hn : m.allocator.frames[n]? = none := by
        rw [FrameAllocator.Exhausted, hq] at h
        exact h
      simp only [FrameAllocator.allocate, hq, hn]
  simp only [PhysicalMemoryManager.allocateFrames, PhysicalMemoryManager.allocateLoop, hnone,
    List.foldl_nil]

/-- Unless there is none, the frame at the front of the queue is taken, and the queue gets
shorter. -/
theorem allocateFrames_taken {m : PhysicalMemoryManager} (h : ¬m.allocator.Exhausted) (pid : Pid) :
    ∃ n frame manager, m.allocator.freeQueue.head? = some n ∧ m.allocator.frames[n]? = some frame ∧
      m.allocateFrames pid 1 = ([frame.allocate pid], manager) ∧ manager ≠ m := by
  obtain ⟨frame, hframe⟩ := Option.ne_none_iff_exists'.1 h
  obtain ⟨n, hn, hframe⟩ := Option.bind_eq_some_iff.1 hframe
  cases hq : m.allocator.freeQueue with
  | nil => simp [hq] at hn
  | cons k rest =>
    have hk : k = n := by simpa [hq] using hn
    subst hk
    refine ⟨k, frame, (m.allocateFrames pid 1).2, rfl, hframe, Prod.ext ?_ rfl, ?_⟩
    · simp [PhysicalMemoryManager.allocateFrames, PhysicalMemoryManager.allocateLoop,
        FrameAllocator.allocate, hq, hframe]
    · intro heq
      have hqueue : (m.allocateFrames pid 1).2.allocator.freeQueue = rest := by
        simp [PhysicalMemoryManager.allocateFrames, PhysicalMemoryManager.allocateLoop,
          FrameAllocator.allocate, hq, hframe]
      rw [heq, hq] at hqueue
      exact List.cons_ne_self k rest hqueue

theorem allocateSlot_full {m : SwapManager} (h : m.Full) (pid : Pid) (vpn : Nat) :
    m.allocateSlot pid vpn = (none, m) := by
  rcases h with hoff | hnone
  · simp only [SwapManager.allocateSlot, hoff, if_true]
  · cases hen : m.enabled with
    | false => simp only [SwapManager.allocateSlot, hen, if_true]
    | true =>
      cases hq : m.freeQueue with
      | nil => simp only [SwapManager.allocateSlot, hen, hq, Bool.true_eq_false, if_false]
      | cons n rest =>
        have hn : m.slots[n]? = none := by
          rw [hq] at hnone
          exact hnone
        simp only [SwapManager.allocateSlot, hen, hq, hn, Bool.true_eq_false, if_false]

/-- Unless the swap space is full a slot is taken, and the queue gets shorter. -/
theorem allocateSlot_taken {m : SwapManager} (h : ¬m.Full) (pid : Pid) (vpn : Nat) :
    ∃ slot swap, m.allocateSlot pid vpn = (some slot, swap) ∧ swap.freeQueue ≠ m.freeQueue := by
  rw [SwapManager.Full, not_or] at h
  obtain ⟨slot, hslot⟩ := Option.ne_none_iff_exists'.1 h.2
  obtain ⟨n, hn, hslot⟩ := Option.bind_eq_some_iff.1 hslot
  cases hq : m.freeQueue with
  | nil => simp [hq] at hn
  | cons k rest =>
    have hk : k = n := by simpa [hq] using hn
    subst hk
    have hen : m.enabled = true := by simpa using h.1
    refine ⟨slot.occupy pid vpn, (m.allocateSlot pid vpn).2, Prod.ext ?_ rfl, ?_⟩
    · simp [SwapManager.allocateSlot, hen, hq, hslot]
    · intro heq
      have hqueue : (m.allocateSlot pid vpn).2.freeQueue = rest := by
        simp [SwapManager.allocateSlot, hen, hq, hslot]
      rw [heq] at hqueue
      exact List.cons_ne_self k rest hqueue

theorem findVictimPage_none (h : NoPresentPage s) (ord : HashOrder) (pid : Pid) :
    s.findVictimPage ord pid = none := by
  have hempty : s.mmu.allPresentPages ord = [] := by
    rw [List.eq_nil_iff_forall_not_mem]
    rintro ⟨q, page, frame⟩ hmem
    obtain ⟨entry, hentry, hpresent, -⟩ := (s.mmu.mem_allPresentPages ord q page frame).1 hmem
    rw [h q page entry hentry] at hpresent
    cases hpresent
  simp only [MemoryService.findVictimPage, hempty, List.find?_nil, List.head?_nil]

theorem findVictimPage_some (h : ¬NoPresentPage s) (ord : HashOrder) (pid : Pid) :
    ∃ victim, s.findVictimPage ord pid = some victim := by
  simp only [NoPresentPage, not_forall] at h
  obtain ⟨q, page, entry, hentry, hpresent⟩ := h
  have hmem := (s.mmu.mem_allPresentPages ord q page entry.frame).2
    ⟨entry, hentry, by simpa using hpresent, rfl⟩
  simp only [MemoryService.findVictimPage]
  split
  · next victim _ => exact ⟨victim, rfl⟩
  · cases hpages : s.mmu.allPresentPages ord with
    | nil => simp [hpages] at hmem
    | cons victim rest => exact ⟨victim, rfl⟩

/-! ## Mapping -/

theorem handleMapPage_rest (s : MemoryService) (pid : Pid) (virt : VirtAddr) (phys : PhysAddr)
    (prot : MemProt) :
    (s.handleMapPage pid virt phys prot).service =
      { s with pageTables := (s.handleMapPage pid virt phys prot).service.pageTables } := by
  simp only [MemoryService.handleMapPage]
  split <;> rfl

/-- Mapping in the service's own table changes it, unless the page is there already. -/
theorem handleMapPage_pageTables (s : MemoryService) (pid : Pid) (virt : VirtAddr)
    (phys : PhysAddr) (prot : MemProt) :
    (s.handleMapPage pid virt phys prot).service.pageTables = s.pageTables ↔ InTable s pid virt := by
  cases ht : s.pageTables.getTable pid with
  | none =>
    -- a table is made for the process
    have hempty : (s.pageTables.createTable pid).1.lookup virt = none := rfl
    obtain ⟨table, hmap, -⟩ := PageTable.map_of_none hempty phys prot
    refine iff_of_false ?_ ?_
    · intro heq
      have hnew : (s.handleMapPage pid virt phys prot).service.pageTables.getTable pid =
          some table := by
        simp only [MemoryService.handleMapPage, ht, hmap]
        exact PageTableManager.getTable_putTable _ pid table
      rw [heq, ht] at hnew
      cases hnew
    · rintro ⟨table', htable, -⟩
      rw [ht] at htable
      cases htable
  | some table =>
    cases he : table.lookup virt with
    | some entry =>
      -- the page is there, and the refusal leaves the table
      refine iff_of_true ?_ ⟨table, ht, by rw [he]; rfl⟩
      simp only [MemoryService.handleMapPage, ht, PageTable.map_of_some he phys prot]
    | none =>
      obtain ⟨table', hmap, hsome⟩ := PageTable.map_of_none he phys prot
      refine iff_of_false ?_ ?_
      · intro heq
        -- the page is new in the table of the process
        have hnew : (s.handleMapPage pid virt phys prot).service.pageTables.getTable pid =
            some table' := by
          simp only [MemoryService.handleMapPage, ht, hmap]
          exact PageTableManager.getTable_putTable _ pid table'
        rw [heq, ht, Option.some.injEq] at hnew
        rw [← hnew, he] at hsome
        cases hsome
      · rintro ⟨table'', htable, hsome'⟩
        rw [ht] at htable
        cases htable
        rw [he] at hsome'
        cases hsome'

/-- Mapping in the MMU changes it, unless the page is mapped so already. -/
theorem mapLossy_same {m : MMU} {pid : Pid} {virt : VirtAddr} {phys : PhysAddr}
    {flags : PageFlags} :
    ((∀ q, (m.pageTables.lookup q).isSome =
          ((MemoryService.mapLossy m pid virt phys flags).pageTables.lookup q).isSome) ∧
        ∀ q page, m.mapped q page = (MemoryService.mapLossy m pid virt phys flags).mapped q page) ↔
      m.mapped pid (m.alignDown virt) = some ⟨m.alignDown phys, flags⟩ := by
  obtain ⟨-, -, hmapped⟩ := MemoryService.mapLossy_spec m pid virt phys flags
  constructor
  · rintro ⟨-, hsame⟩
    rw [hsame, hmapped, if_pos ⟨rfl, rfl⟩]
  · intro hentry
    refine ⟨?_, ?_⟩
    · intro q
      show _ = (AList.lookup q (AList.insert pid _ m.pageTables)).isSome
      rw [HashMap.lookup_insert_eq]
      split
      · next heq =>
        obtain ⟨table, htable, -⟩ := Option.bind_eq_some_iff.1 hentry
        rw [heq, htable]
        rfl
      · rfl
    · intro q page
      rw [hmapped]
      split
      · next heq => rw [heq.1, heq.2, hentry]
      · rfl

theorem mapPage_agree_iff (s : MemoryService) (ord : HashOrder) (pid : Pid) (virt : VirtAddr)
    (phys : PhysAddr) (prot : MemProt) :
    SameState (s.handleMemoryRequest (.mapPage pid virt phys prot)).service
        (s.handleMemoryRequestWithResponse ord (.mapPage pid virt phys prot)).service ↔
      FormsAgree s (.mapPage pid virt phys prot) := by
  have hplain := handleMapPage_rest s pid virt phys prot
  have hanswered : (s.handleMemoryRequestWithResponse ord (.mapPage pid virt phys prot)).service =
      { s with mmu := MemoryService.mapLossy s.mmu pid virt phys (PageFlags.ofProt prot) } := rfl
  have hplain' : (s.handleMemoryRequest (.mapPage pid virt phys prot)).service = _ := hplain
  rw [hanswered, hplain', FormsAgree, ← handleMapPage_pageTables s pid virt phys prot,
    ← mapLossy_same]
  constructor
  · intro h
    exact ⟨h.pageTables, h.tables, h.mapped⟩
  · rintro ⟨htables, hsome, hmapped⟩
    exact ⟨hsome, hmapped, htables, rfl, rfl, rfl, rfl, rfl, fun _ _ => rfl⟩

/-! ## Page faults -/

/-- What a fault without a response channel does. -/
inductive PlainFault (s : MemoryService) (pid : Pid) (addr : VirtAddr) (s' : MemoryService) : Prop
  | idle (hidle : PlainFaultIdle s pid addr) (h : s' = s)
  | wasted {table : PageTable} {entry : TableEntry} {manager : PhysicalMemoryManager}
      (hbusy : ¬PlainFaultIdle s pid addr) (htable : s.pageTables.getTable pid = some table)
      (hentry : table.lookup addr = some entry) (habsent : entry.isPresent = false)
      (htaken : (s.memoryManager.allocateFrames pid 1).2 = manager)
      (hmanager : manager ≠ s.memoryManager) (h : s' = { s with memoryManager := manager })
  | mapped (hbusy : ¬PlainFaultIdle s pid addr) (habsent : ¬InTable s pid addr)
      (h : s'.pageTables ≠ s.pageTables)

theorem handlePageFault_plain (s : MemoryService) (pid : Pid) (addr : VirtAddr)
    (access : AccessType) : PlainFault s pid addr (s.handlePageFault pid addr access).service := by
  cases ht : s.pageTables.getTable pid with
  | none =>
    refine .idle (Or.inl ht) ?_
    simp only [MemoryService.handlePageFault, ht]
  | some table =>
    by_cases hex : s.memoryManager.allocator.Exhausted
    · refine .idle (Or.inr (Or.inr hex)) ?_
      simp only [MemoryService.handlePageFault, ht, allocateFrames_exhausted hex]
      split
      · rfl
      split <;> rfl
    -- there is a table and a frame; what happens is decided by the entry of the page
    obtain ⟨n, frame, manager, -, -, htaken, hmanager⟩ := allocateFrames_taken hex pid
    cases he : table.lookup addr with
    | none =>
      have habsent : ¬InTable s pid addr := by
        rintro ⟨table', htable, hsome⟩
        rw [ht] at htable
        cases htable
        rw [he] at hsome
        cases hsome
      have hbusy : ¬PlainFaultIdle s pid addr := by
        rintro (hnone | ⟨table', entry, htable, hentry, -⟩ | hout)
        · rw [ht] at hnone
          cases hnone
        · exact habsent ⟨table', htable, by rw [hentry]; rfl⟩
        · exact hex hout
      refine .mapped hbusy habsent ?_
      simp only [MemoryService.handlePageFault, ht, he, htaken, Option.map_none, Option.getD_none,
        Bool.false_eq_true, if_false]
      exact fun heq => habsent ((handleMapPage_pageTables { s with memoryManager := manager } pid addr
        (frame.allocate pid).address (MemoryService.faultProt access)).1 heq)
    | some entry =>
      cases hpresent : entry.isPresent with
      | true =>
        refine .idle (Or.inr (Or.inl ⟨table, entry, ht, he, hpresent⟩)) ?_
        simp only [MemoryService.handlePageFault, ht, he, hpresent, Option.map_some, Option.getD_some,
          if_true]
      | false =>
        have hbusy : ¬PlainFaultIdle s pid addr := by
          rintro (hnone | ⟨table', entry', htable, hentry, hpresent'⟩ | hout)
          · rw [ht] at hnone
            cases hnone
          · rw [ht] at htable
            cases htable
            rw [he] at hentry
            cases hentry
            rw [hpresent] at hpresent'
            cases hpresent'
          · exact hex hout
        -- the frame is taken before the mapping is refused, and is not given back
        refine .wasted hbusy ht he hpresent (by rw [htaken]) hmanager ?_
        simp only [MemoryService.handlePageFault, ht, he, hpresent, htaken, Option.map_some,
          Option.getD_some, Bool.false_eq_true, if_false]
        rw [handleMapPage_rest]
        congr 1
        exact (handleMapPage_pageTables { s with memoryManager := manager } pid addr
          (frame.allocate pid).address (MemoryService.faultProt access)).2
            ⟨table, ht, by rw [he]; rfl⟩

/-- What a fault with a response channel does. -/
inductive AnsweredFault (s : MemoryService) (pid : Pid) (page : VirtAddr) (s' : MemoryService) : Prop
  | idle (hidle : AnsweredFaultIdle s pid page) (h : s' = s)
  | restored {slot : Nat} (hbusy : ¬AnsweredFaultIdle s pid page)
      (hslot : s.swappedSlot pid page = some slot) (h : s'.swappedSlot pid page = none)
  | installed {manager : PhysicalMemoryManager} {n : Nat} {frame : Frame}
      (hbusy : ¬AnsweredFaultIdle s pid page) (hswapped : s.swappedSlot pid page = none)
      (hn : s.memoryManager.allocator.freeQueue.head? = some n)
      (hframe : s.memoryManager.allocator.frames[n]? = some frame)
      (htaken : (s.memoryManager.allocateFrames pid 1).2 = manager)
      (hmanager : manager ≠ s.memoryManager)
      (h : s' = { s with
        memoryManager := manager
        mmu := MemoryService.mapLossy s.mmu pid page frame.address PageFlags.presentWritable })
  | evicted (hbusy : ¬AnsweredFaultIdle s pid page) (hex : s.memoryManager.allocator.Exhausted)
      (h : s'.swapManager.freeQueue ≠ s.swapManager.freeQueue)

/-- With a slot on the disk, a fault is turned away only for want of a frame. -/
theorem AnsweredFaultIdle.exhausted {pid : Pid} {page : VirtAddr}
    (h : AnsweredFaultIdle s pid page)
    (hslot : ∀ slot, s.swappedSlot pid page = some slot → s.swapManager.Backed slot) :
    s.memoryManager.allocator.Exhausted ∧ (NoPresentPage s ∨ s.swapManager.Full) := by
  rcases h with ⟨slot, hs, hbeyond⟩ | hex
  · exact absurd (hslot slot hs) hbeyond
  · exact hex

theorem evictAndInstall_answered {pid : Pid} {page : VirtAddr} (ord : HashOrder)
    (hslot : ∀ slot, s.swappedSlot pid page = some slot → s.swapManager.Backed slot)
    (hex : s.memoryManager.allocator.Exhausted) :
    AnsweredFault s pid page (s.evictAndInstall ord pid page).service := by
  by_cases hpresent : NoPresentPage s
  · refine .idle (Or.inr ⟨hex, Or.inl hpresent⟩) ?_
    simp only [MemoryService.evictAndInstall, findVictimPage_none hpresent ord pid]
    rfl
  obtain ⟨⟨vpid, vaddr, vframe⟩, hvictim⟩ := findVictimPage_some hpresent ord pid
  by_cases hfull : s.swapManager.Full
  · refine .idle (Or.inr ⟨hex, Or.inr hfull⟩) ?_
    simp only [MemoryService.evictAndInstall, hvictim, allocateSlot_full hfull]
    rfl
  obtain ⟨slot, swap, htaken, hqueue⟩ := allocateSlot_taken hfull vpid (vaddr.toNat / 4096)
  refine .evicted (fun hidle => (hidle.exhausted hslot).2.elim hpresent hfull) hex ?_
  simp only [MemoryService.evictAndInstall, hvictim, htaken]
  split
  · next swap' hout =>
    rw [SwapManager.swapOut_disk hout]
    exact hqueue
  next swap' hout =>
  rw [SwapManager.swapOut_disk hout]
  split
  · exact hqueue
  · rw [MemoryService.installFrame_eq]
    exact hqueue

theorem handlePageFaultWithResponse_answered (s : MemoryService) (ord : HashOrder) (pid : Pid)
    (addr : VirtAddr) (access : AccessType) :
    AnsweredFault s pid (pageBase addr)
      (s.handlePageFaultWithResponse ord pid addr access).service := by
  by_cases hex : s.memoryManager.allocator.Exhausted
  · -- no free frame: a page is evicted, if the swapped page can be read at all
    have hevict : (∀ slot, s.swappedSlot pid (pageBase addr) = some slot →
        s.swapManager.Backed slot) → AnsweredFault s pid (pageBase addr)
          (s.allocateOrEvict ord pid (pageBase addr)).service := by
      intro hslot
      simp only [MemoryService.allocateOrEvict, allocateFrames_exhausted hex]
      exact evictAndInstall_answered ord hslot hex
    cases hslot : s.swappedSlot pid (pageBase addr) with
    | none =>
      simp only [MemoryService.handlePageFaultWithResponse, hslot]
      exact hevict (by rw [hslot]; simp)
    | some slot =>
      by_cases hbacked : s.swapManager.Backed slot
      · obtain ⟨data, hdata, -⟩ := SwapManager.swapIn_ok hbacked
        simp only [MemoryService.handlePageFaultWithResponse, hslot, hdata,
          allocateFrames_exhausted hex]
        exact hevict (by rw [hslot]; rintro _ ⟨⟩; exact hbacked)
      · obtain ⟨e, he⟩ := SwapManager.swapIn_error hbacked
        refine .idle (Or.inl ⟨slot, hslot, hbacked⟩) ?_
        simp only [MemoryService.handlePageFaultWithResponse, hslot, he]
  · -- a free frame: the page is new, comes from its slot, or its slot is not on the disk
    obtain ⟨n, frame, manager, hn, hframe, htaken, hmanager⟩ := allocateFrames_taken hex pid
    cases hslot : s.swappedSlot pid (pageBase addr) with
    | none =>
      refine .installed (fun hidle => hex (hidle.exhausted (by rw [hslot]; simp)).1) hslot hn hframe
        (by rw [htaken]) hmanager ?_
      simp only [MemoryService.handlePageFaultWithResponse, hslot, MemoryService.allocateOrEvict,
        htaken, MemoryService.installFrame_eq]
      rfl
    | some slot =>
      by_cases hbacked : s.swapManager.Backed slot
      · obtain ⟨data, hdata, -⟩ := SwapManager.swapIn_ok hbacked
        refine .restored (fun hidle => hex (hidle.exhausted
          (by rw [hslot]; rintro _ ⟨⟩; exact hbacked)).1) hslot ?_
        simp only [MemoryService.handlePageFaultWithResponse, hslot, hdata, htaken,
          MemoryService.restorePage]
        exact (MemoryService.removeSwapped_swappedSlot _ pid (pageBase addr) pid _).trans
          (if_pos ⟨rfl, rfl⟩)
      · obtain ⟨e, he⟩ := SwapManager.swapIn_error hbacked
        refine .idle (Or.inl ⟨slot, hslot, hbacked⟩) ?_
        simp only [MemoryService.handlePageFaultWithResponse, hslot, he]

/-- A fault without a response channel only touches the frames and the service's own tables. -/
theorem handlePageFault_rest (s : MemoryService) (pid : Pid) (addr : VirtAddr)
    (access : AccessType) :
    (s.handlePageFault pid addr access).service.mmu = s.mmu ∧
      (s.handlePageFault pid addr access).service.swapManager = s.swapManager ∧
      (s.handlePageFault pid addr access).service.swappedPages = s.swappedPages := by
  simp only [MemoryService.handlePageFault]
  split
  · exact ⟨rfl, rfl, rfl⟩
  split
  · exact ⟨rfl, rfl, rfl⟩
  split
  · split
    · exact ⟨rfl, rfl, rfl⟩
    · exact ⟨rfl, rfl, rfl⟩
  · rw [handleMapPage_rest]
    exact ⟨rfl, rfl, rfl⟩

theorem evictAndInstall_pageTables (s : MemoryService) (ord : HashOrder) (pid : Pid)
    (page : VirtAddr) : (s.evictAndInstall ord pid page).service.pageTables = s.pageTables := by
  simp only [MemoryService.evictAndInstall]
  split
  · rfl
  split
  · rfl
  split
  · rfl
  split
  · rfl
  · rfl

/-- A fault with a response channel never touches the service's own tables. -/
theorem handlePageFaultWithResponse_pageTables (s : MemoryService) (ord : HashOrder) (pid : Pid)
    (addr : VirtAddr) (access : AccessType) :
    (s.handlePageFaultWithResponse ord pid addr access).service.pageTables = s.pageTables := by
  have hstages : ∀ s : MemoryService,
      (s.allocateOrEvict ord pid (pageBase addr)).service.pageTables = s.pageTables := by
    intro s
    simp only [MemoryService.allocateOrEvict]
    split
    · rfl
    · exact evictAndInstall_pageTables _ ord pid (pageBase addr)
  simp only [MemoryService.handlePageFaultWithResponse]
  split
  · exact hstages s
  split
  · rfl
  split
  · rfl
  · exact hstages _

theorem PlainFault.of_idle {s' : MemoryService} {pid : Pid} {addr : VirtAddr} (h : PlainFault s pid addr s')
    (hidle : PlainFaultIdle s pid addr) : s' = s := by
  cases h with
  | idle _ h => exact h
  | wasted hbusy _ _ _ _ _ _ => exact absurd hidle hbusy
  | mapped hbusy _ _ => exact absurd hidle hbusy

theorem AnsweredFault.of_idle {s' : MemoryService} {pid : Pid} {page : VirtAddr}
    (h : AnsweredFault s pid page s') (hidle : AnsweredFaultIdle s pid page) : s' = s := by
  cases h with
  | idle _ h => exact h
  | restored hbusy _ _ => exact absurd hidle hbusy
  | installed hbusy _ _ _ _ _ _ => exact absurd hidle hbusy
  | evicted hbusy _ _ => exact absurd hidle hbusy

/-- With a frame left, a fault on an entry that is not present takes a frame and does no more. -/
theorem PlainFault.of_entry {s' : MemoryService} {pid : Pid} {addr : VirtAddr} {table : PageTable}
    {entry : TableEntry} (h : PlainFault s pid addr s') (htable : s.pageTables.getTable pid = some table)
    (hentry : table.lookup addr = some entry) (habsent : entry.isPresent = false)
    (hfree : ¬s.memoryManager.allocator.Exhausted) :
    s' = { s with memoryManager := (s.memoryManager.allocateFrames pid 1).2 } := by
  cases h with
  | idle hidle _ =>
    -- the fault is not turned away: there is a frame and the entry is not present
    rcases hidle with hnotable | ⟨table', entry', htable', hentry', hpresent⟩ | hex
    · rw [htable] at hnotable
      cases hnotable
    · rw [htable] at htable'
      cases htable'
      rw [hentry] at hentry'
      cases hentry'
      rw [habsent] at hpresent
      cases hpresent
    · exact absurd hex hfree
  | wasted _ _ _ _ htaken _ h =>
    rw [h, htaken]
  | mapped _ hnotin _ =>
    exact absurd ⟨table, htable, by rw [hentry]; rfl⟩ hnotin

theorem not_exhausted_of_front {a : FrameAllocator} {n : Nat} {frame : Frame}
    (hn : a.freeQueue.head? = some n) (hframe : a.frames[n]? = some frame) : ¬a.Exhausted := by
  rw [FrameAllocator.Exhausted, hn, Option.bind_some, hframe]
  exact Option.some_ne_none frame

/-- With a frame left, a page that is not swapped out gets the frame at the front of the queue. -/
theorem AnsweredFault.of_frame {s' : MemoryService} {pid : Pid} {page : VirtAddr} {n : Nat} {frame : Frame}
    (h : AnsweredFault s pid page s') (hnone : s.swappedSlot pid page = none)
    (hn : s.memoryManager.allocator.freeQueue.head? = some n)
    (hframe : s.memoryManager.allocator.frames[n]? = some frame) :
    s' = { s with
      memoryManager := (s.memoryManager.allocateFrames pid 1).2
      mmu := MemoryService.mapLossy s.mmu pid page frame.address PageFlags.presentWritable } := by
  have hfree := not_exhausted_of_front hn hframe
  cases h with
  | idle hidle _ => exact absurd (hidle.exhausted (by rw [hnone]; simp)).1 hfree
  | restored _ hslot _ =>
    rw [hnone] at hslot
    cases hslot
  | evicted _ hex _ => exact absurd hex hfree
  | installed _ _ hn' hframe' htaken _ h =>
    rw [hn] at hn'
    cases hn'
    rw [hframe] at hframe'
    cases hframe'
    rw [h, htaken]

/-- With the service's own table untouched by one form and the rest untouched by the other, the two
forms of a fault agree only if neither does anything that lasts. -/
theorem pageFault_agree_iff (s : MemoryService) (ord : HashOrder) (pid : Pid) (addr : VirtAddr)
    (access : AccessType) :
    SameState (s.handleMemoryRequest (.pageFaultHandler pid addr access)).service
        (s.handleMemoryRequestWithResponse ord (.pageFaultHandler pid addr access)).service ↔
      FormsAgree s (.pageFaultHandler pid addr access) := by
  show SameState (s.handlePageFault pid addr access).service
    (s.handlePageFaultWithResponse ord pid addr access).service ↔ _
  obtain ⟨hmmu, hswap, hswapped⟩ := handlePageFault_rest s pid addr access
  have htables := handlePageFaultWithResponse_pageTables s ord pid addr access
  have hplain := handlePageFault_plain s pid addr access
  have hanswered := handlePageFaultWithResponse_answered s ord pid addr access
  generalize (s.handlePageFault pid addr access).service = a at *
  generalize (s.handlePageFaultWithResponse ord pid addr access).service = b at *
  constructor
  · intro h
    have hkept : a.pageTables = s.pageTables := h.pageTables.trans htables
    cases hanswered with
    | idle hidle hb =>
      rw [hb] at h
      cases hplain with
      | idle hidle' ha => exact Or.inl ⟨hidle', hidle⟩
      | wasted hbusy htable hentry habsent htaken hmanager ha =>
        rw [ha] at h
        exact absurd h.memoryManager hmanager
      | mapped hbusy habsent ha => exact absurd hkept ha
    | restored hbusy hslot hb =>
      have hsame := h.swapped pid (pageBase addr)
      rw [hb, MemoryService.swappedSlot, hswapped] at hsame
      exact absurd (hslot.symm.trans hsame) (Option.some_ne_none _)
    | installed hbusy hnone hn hframe htaken hmanager hb =>
      cases hplain with
      | idle hidle ha =>
        rw [ha, hb] at h
        exact absurd h.memoryManager.symm hmanager
      | wasted hbusy' htable hentry habsent htaken' hmanager' ha =>
        rw [ha, hb] at h
        exact Or.inr ⟨⟨_, _, htable, hentry, habsent⟩, hnone, _, _, hn, hframe,
          mapLossy_same.1 ⟨h.tables, h.mapped⟩⟩
      | mapped hbusy' habsent ha => exact absurd hkept ha
    | evicted hbusy hex hb =>
      rw [← h.freeQueue, hswap] at hb
      exact absurd rfl hb
  · rintro (⟨hidle, hidle'⟩ | ⟨⟨table, entry, htable, hentry, habsent⟩, hnone, n, frame, hn, hframe,
      hentry'⟩)
    · rw [hplain.of_idle hidle, hanswered.of_idle hidle']
      exact SameState.refl s
    · -- both forms take the same frame, and the new entry says what the old one said
      have ha := hplain.of_entry htable hentry habsent (not_exhausted_of_front hn hframe)
      have hb := hanswered.of_frame hnone hn hframe
      obtain ⟨hsome, hmapped⟩ := mapLossy_same.2 hentry'
      rw [ha, hb]
      exact ⟨hsome, hmapped, rfl, rfl, rfl, rfl, rfl, rfl, fun _ _ => rfl⟩

/-! ## All requests -/

theorem swapOut_agree (s : MemoryService) (ord : HashOrder) (pid : Pid) (virt : VirtAddr) :
    SameState (s.handleMemoryRequest (.swapOut pid virt)).service
      (s.handleMemoryRequestWithResponse ord (.swapOut pid virt)).service := by
  simp only [MemoryService.handleMemoryRequest, MemoryService.handleMemoryRequestWithResponse,
    MemoryService.handleSwapOut, MemoryService.handleSwapOutWithResponse]
  split
  · exact SameState.refl s
  split
  · exact SameState.refl _
  split
  · next hout =>
    rw [SwapManager.swapOut_disk hout]
    exact ⟨fun _ => rfl, fun _ _ => rfl, rfl, rfl, rfl, rfl, rfl, rfl, fun _ _ => rfl⟩
  · next hout =>
    rw [SwapManager.swapOut_disk hout]
    exact ⟨fun _ => rfl, fun _ _ => rfl, rfl, rfl, rfl, rfl, rfl, rfl, fun _ _ => rfl⟩

theorem swapIn_agree (s : MemoryService) (ord : HashOrder) (pid : Pid) (virt : VirtAddr) :
    SameState (s.handleMemoryRequest (.swapIn pid virt)).service
      (s.handleMemoryRequestWithResponse ord (.swapIn pid virt)).service := by
  simp only [MemoryService.handleMemoryRequest, MemoryService.handleMemoryRequestWithResponse,
    MemoryService.handleSwapIn, MemoryService.handleSwapInWithResponse]
  split
  · exact SameState.refl s
  split
  · exact SameState.refl _
  split
  · exact SameState.refl _
  split
  · exact SameState.refl _
  · exact ⟨fun _ => rfl, fun _ _ => rfl, rfl, rfl, rfl, rfl, rfl, rfl, fun _ _ => rfl⟩

/-- The two forms of a request have the same effect exactly when `FormsAgree` says so: always, except
for mappings and page faults. -/
theorem forms_agree_iff (s : MemoryService) (ord : HashOrder) (req : MemoryRequest) :
    SameState (s.handleMemoryRequest req).service
        (s.handleMemoryRequestWithResponse ord req).service ↔ FormsAgree s req := by
  cases req with
  | mapPage pid virt phys prot => exact mapPage_agree_iff s ord pid virt phys prot
  | pageFaultHandler pid addr access => exact pageFault_agree_iff s ord pid addr access
  -- the forms differ in the answer only
  | allocFrame count pid =>
    refine iff_of_true ?_ trivial
    simp only [MemoryService.handleMemoryRequest, MemoryService.handleMemoryRequestWithResponse,
      MemoryService.handleAllocFrame, MemoryService.handleAllocFrameWithResponse]
    split
    · exact SameState.refl _
    · exact SameState.refl _
  | freeFrame paddr =>
    refine iff_of_true ?_ trivial
    simp only [MemoryService.handleMemoryRequest, MemoryService.handleMemoryRequestWithResponse,
      MemoryService.handleFreeFrame, MemoryService.handleFreeFrameWithResponse]
    split
    · exact SameState.refl _
    · exact SameState.refl _
  | unmapPage pid virt =>
    refine iff_of_true ?_ trivial
    simp only [MemoryService.handleMemoryRequest, MemoryService.handleMemoryRequestWithResponse,
      MemoryService.handleUnmapPage, MemoryService.handleUnmapPageWithResponse]
    split
    · exact SameState.refl _
    · exact SameState.refl _
  | swapOut pid virt => exact iff_of_true (swapOut_agree s ord pid virt) trivial
  | swapIn pid virt => exact iff_of_true (swapIn_agree s ord pid virt) trivial
  | getStats => exact iff_of_true (SameState.refl s) trivial
  | getFrameMap => exact iff_of_true (SameState.refl s) trivial

/-- A mapping request on an empty service: one form enters the page in the service's own table, the
other in the MMU. -/
theorem map_forms_differ :
    ¬SameState
      ((bootMemory 4096 fun _ => 0).handleMemoryRequest (.mapPage 1 0 0 MemProt.readWrite)).service
      ((bootMemory 4096 fun _ => 0).handleMemoryRequestWithResponse HashOrder.stored
        (.mapPage 1 0 0 MemProt.readWrite)).service := by
  intro h
  cases h.mapped 1 0

end GenshinOs.Memory
