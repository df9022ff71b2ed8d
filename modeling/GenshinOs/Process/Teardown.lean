import GenshinOs.Process.Service

/-!
# A failed exec

Exec gives up the old pages of a process, by messages that nobody answers, before it asks for new
frames. When the frames are refused the process is left without its pages: `exec_failed_unchanged_iff`
says when a failed exec leaves everything as it was.
-/

set_option autoImplicit false

namespace GenshinOs.Process

open GenshinOs.Lib GenshinOs.Hardware GenshinOs.Memory

namespace Machine

/-- The memory service when all messages on their way have been handled. -/
def settledMemory (ord : HashOrder) (s : Machine) : MemoryService :=
  s.memoryQueue.foldl (serve ord) s.memory

/-- When all messages have been handled, tables, CPUs, mappings and bytes are the same. -/
structure Unchanged (ord : HashOrder) (s s' : Machine) : Prop where
  tables : s'.toKernel = s.toKernel
  cpus : s'.cpus = s.cpus
  bytes : (s'.settledMemory ord).mmu.memory = (s.settledMemory ord).mmu.memory
  mapped : ∀ q page,
    (s'.settledMemory ord).mmu.mapped q page = (s.settledMemory ord).mmu.mapped q page

theorem foldl_sendMemory {α : Type} (req : α → MemoryRequest) (l : List α) (s : Machine) :
    l.foldl (fun s a => s.sendMemory (req a)) s =
      { s with memoryQueue := s.memoryQueue ++ l.map fun a => (req a, false) } := by
  induction l generalizing s with
  | nil => simp
  | cons a l ih =>
    rw [List.foldl_cons, ih]
    simp [sendMemory]

/-! ## Unmapping page after page -/

theorem serve_unmap (ord : HashOrder) (m : MemoryService) (pid : Pid) (virt : VirtAddr) :
    (serve ord m (.unmapPage pid virt, false)).mmu.memory = m.mmu.memory ∧
      (serve ord m (.unmapPage pid virt, false)).mmu.pageSize = m.mmu.pageSize ∧
      ∀ q page, (serve ord m (.unmapPage pid virt, false)).mmu.mapped q page =
        if q = pid ∧ page = m.mmu.alignDown virt then none else m.mmu.mapped q page := by
  simp only [serve, Bool.false_eq_true, if_false, MemoryService.handleMessage,
    MemoryService.handleMemoryRequest, MemoryService.handleUnmapPage]
  split
  · next mmu hok => exact MMU.unmapPage_mapped hok
  · next e herr =>
    -- there is no table at all
    refine ⟨rfl, rfl, ?_⟩
    intro q page
    split
    · next heq =>
      cases htable : m.mmu.pageTables.lookup pid with
      | none => rw [heq.1, MMU.mapped, htable, Option.bind_none]
      | some table => simp [MMU.unmapPage, htable] at herr
    · rfl

theorem foldl_unmap (ord : HashOrder) (pid : Pid) (virts : List VirtAddr) (m : MemoryService) :
    (virts.foldl (fun m virt => serve ord m (.unmapPage pid virt, false)) m).mmu.memory =
        m.mmu.memory ∧
      ∀ q page, (virts.foldl (fun m virt => serve ord m (.unmapPage pid virt, false)) m).mmu.mapped
          q page =
        if q = pid ∧ page ∈ virts.map m.mmu.alignDown then none else m.mmu.mapped q page := by
  induction virts generalizing m with
  | nil => exact ⟨rfl, fun q page => by simp⟩
  | cons virt virts ih =>
    obtain ⟨hmem, hsize, hmapped⟩ := serve_unmap ord m pid virt
    obtain ⟨ihmem, ihmapped⟩ := ih (serve ord m (.unmapPage pid virt, false))
    have halign : (serve ord m (.unmapPage pid virt, false)).mmu.alignDown = m.mmu.alignDown := by
      funext addr
      rw [MMU.alignDown, hsize]
      rfl
    refine ⟨ihmem.trans hmem, ?_⟩
    intro q page
    rw [List.foldl_cons, ihmapped, halign, hmapped, List.map_cons]
    by_cases hq : q = pid
    · by_cases hpage : page = m.mmu.alignDown virt
      · simp [hq, hpage]
      · simp [hq, hpage]
    · simp [hq]

/-- Asking for frames leaves the MMU alone. -/
theorem serve_allocFrame_mmu (ord : HashOrder) (m : MemoryService) (count : Nat) (pid : Pid) :
    (m.handleEnvelope ord (.allocFrame count pid)).1.mmu = m.mmu := by
  rw [handleEnvelope_service]
  simp only [MemoryService.handleMemoryRequestWithResponse,
    MemoryService.handleAllocFrameWithResponse]
  split
  · rfl
  · rfl

/-! ## The failure -/

/-- A refused request for frames: once it is handled, with everything before it, the MMU is as the
messages before it leave it. -/
theorem allocFrames_failed {w : World} {s s' : Machine} {count : Nat} {pid : Pid}
    {e : ServiceError} (h : allocFrames w s count pid = (.error e, s')) :
    (s'.settledMemory (w.order s.clock)).mmu = (s.settledMemory (w.order s.clock)).mmu := by
  have hrequest : ((s.requestMemory w (.allocFrame count pid)).2.settledMemory
      (w.order s.clock)).mmu = (s.settledMemory (w.order s.clock)).mmu := by
    simp only [requestMemory]
    split
    · exact serve_allocFrame_mmu _ _ count pid
    · rw [settledMemory, List.foldl_append]
      exact serve_allocFrame_mmu _ _ count pid
  have hs' : (s.requestMemory w (.allocFrame count pid)).2 = s' := by
    simp only [allocFrames] at h
    split at h
    · next heq =>
      cases h
      rw [heq]
    · cases h
    · next heq =>
      cases h
      rw [heq]
  rw [← hs']
  exact hrequest

/-- The pages that an exec gives up, as its messages find them. -/
def unmappedPages (w : World) (s : Machine) (pid : Pid) : List VirtAddr :=
  (s.mmu.getPageEntries (w.order s.clock) pid).map Prod.fst

theorem mem_unmappedPages (w : World) (s : Machine) (pid : Pid) (page : VirtAddr) :
    page ∈ unmappedPages w s pid ↔ (s.mmu.mapped pid page).isSome := by
  rw [unmappedPages, List.mem_map]
  constructor
  · rintro ⟨⟨v, frame, flags⟩, hmem, rfl⟩
    rw [(s.mmu.mem_getPageEntries _ pid v frame flags).1 hmem]
    rfl
  · intro hsome
    obtain ⟨entry, hentry⟩ := Option.isSome_iff_exists.1 hsome
    exact ⟨(page, entry.frame, entry.flags), (s.mmu.mem_getPageEntries _ pid page _ _).2 hentry, rfl⟩

/-- What a failed exec comes to, when it got as far as asking for frames. -/
theorem exec_refused {w : World} {s s' : Machine} {pid : Pid} {count : Nat} {e : ServiceError}
    (h : allocFrames w ((s.mmu.getPageEntries (w.order s.clock) pid).foldl
      (fun s entry => s.sendMemory (.unmapPage pid entry.1)) s.advance) count pid = (.error e, s'))
    (ord : HashOrder) (hord : ord = w.order (s.clock + 1)) :
    (s'.settledMemory ord).mmu.memory = (s.settledMemory ord).mmu.memory ∧
      ∀ q page, (s'.settledMemory ord).mmu.mapped q page =
        if q = pid ∧ page ∈ (unmappedPages w s pid).map (s.settledMemory ord).mmu.alignDown then none
        else (s.settledMemory ord).mmu.mapped q page := by
  rw [foldl_sendMemory (fun entry : VirtAddr × PhysAddr × PageFlags => .unmapPage pid entry.1)] at h
  have hmmu := allocFrames_failed h
  have hclock : w.order (s.clock + 1) = ord := hord.symm
  simp only [advance, hclock] at hmmu
  rw [hmmu]
  simp only [settledMemory, List.foldl_append]
  have hmap : (s.mmu.getPageEntries (w.order s.clock) pid).map
      (fun entry => (MemoryRequest.unmapPage pid entry.1, false)) =
      (unmappedPages w s pid).map fun virt => (MemoryRequest.unmapPage pid virt, false) := by
    rw [unmappedPages, List.map_map]
    rfl
  rw [hmap, List.foldl_map]
  exact foldl_unmap ord pid (unmappedPages w s pid) (s.settledMemory ord)

/-- A failed exec leaves everything as it was exactly when it failed before it gave up the pages, or
there was no page to give up. -/
theorem exec_failed_unchanged_iff {w : World} {s s' : Machine} {pid : Pid} {executable : String}
    {args : List String} {e : ServiceError}
    (h : execImpl w s pid executable args = (.error e, s')) :
    Unchanged (w.order (s.clock + 1)) s s' ↔
      s.processTable.lookup pid = none ∨ programImage w s executable args = none ∨
        ∀ page, (s.mmu.mapped pid page).isSome →
          (s.settledMemory (w.order (s.clock + 1))).mmu.mapped pid
            ((s.settledMemory (w.order (s.clock + 1))).mmu.alignDown page) = none := by
  have hexeced := execImpl_execed w s pid executable args
  rw [h] at hexeced
  have htables : s'.toKernel = s.toKernel ∧ s'.cpus = s.cpus := by
    cases hexeced with
    | failed hk hcpus => exact ⟨hk, hcpus⟩
  simp only [execImpl] at h
  split at h
  · next hunknown =>
    cases h
    refine iff_of_true ⟨rfl, rfl, rfl, fun q page => rfl⟩ (Or.inl ?_)
    exact Option.isNone_iff_eq_none.1 hunknown
  next hknown =>
  split at h
  · next himage =>
    cases h
    exact iff_of_true ⟨rfl, rfl, rfl, fun q page => rfl⟩ (Or.inr (Or.inl himage))
  next code himage =>
  split at h
  · next e' s'' halloc =>
    cases h
    -- the messages that unmap the pages are handled before the refusal
    obtain ⟨hbytes, hmapped⟩ := exec_refused halloc _ rfl
    constructor
    · intro hsame
      refine Or.inr (Or.inr ?_)
      intro page hpage
      rw [← hsame.mapped, hmapped, if_pos]
      exact ⟨rfl, List.mem_map.2 ⟨page, (mem_unmappedPages w s pid page).2 hpage, rfl⟩⟩
    · rintro (hnone | hnone | hgone)
      · rw [hnone] at hknown
        exact absurd rfl hknown
      · rw [hnone] at himage
        cases himage
      · refine ⟨htables.1, htables.2, hbytes, ?_⟩
        intro q page
        rw [hmapped]
        split
        · next hgiven =>
          obtain ⟨virt, hvirt, rfl⟩ := List.mem_map.1 hgiven.2
          rw [hgiven.1, hgone virt ((mem_unmappedPages w s pid virt).1 hvirt)]
        · rfl
  · cases h

/-- A memory of one frame, which a first process has. -/
def fullMachine : Machine :=
  (run (World.calm haltCode) (bootMemory 4096 fun _ => 0)
    [.envelope (.syscall (.createProcess "halt" [])) false]).1

/-- Process 1 has no page: it is refused a frame and nothing happens. -/
theorem exec_failed_unchanged_pageless :
    Unchanged HashOrder.stored fullMachine
      (fullMachine.execImpl (World.calm haltCode) 1 "halt" []).2 := by
  have herror : (fullMachine.execImpl (World.calm haltCode) 1 "halt" []).1 =
      .error (.resourceExhausted "memory" 0 1) := by decide +kernel
  have hpageless : fullMachine.mmu.pageTables.lookup 1 = none := by decide +kernel
  refine (exec_failed_unchanged_iff (Prod.ext herror rfl)).2 (Or.inr (Or.inr ?_))
  intro page hpage
  rw [MMU.mapped, hpageless] at hpage
  cases hpage

/-- The process that has the frame is refused another one, and its page is gone. -/
theorem exec_failed_page_lost :
    (fullMachine.execImpl (World.calm haltCode) 2 "halt" []).1 =
        .error (.resourceExhausted "memory" 0 1) ∧
      ¬Unchanged HashOrder.stored fullMachine
        (fullMachine.execImpl (World.calm haltCode) 2 "halt" []).2 := by
  refine ⟨by decide +kernel, ?_⟩
  intro hsame
  have hbefore : ((fullMachine.settledMemory HashOrder.stored).mmu.mapped 2 0).isSome = true := by
    decide +kernel
  have hafter : ((fullMachine.execImpl (World.calm haltCode) 2 "halt" []).2.settledMemory
      HashOrder.stored).mmu.mapped 2 0 = none := by decide +kernel
  rw [← hsame.mapped 2 0, hafter] at hbefore
  cases hbefore

end Machine

end GenshinOs.Process
