import GenshinOs.Process.Housing

/-!
# Runs that lose no frame

The operations of the process service, one by one: which of them keep every frame with a process that
is in the table and has a page for it, and under which condition the others do. `Frugal` collects these
conditions, and `run_keeps_frames` is the result for whole runs in which every answer is in time.
-/

set_option autoImplicit false

namespace GenshinOs.Process

open GenshinOs.Lib GenshinOs.Hardware GenshinOs.Memory

namespace Machine

/-- The table knows the process. -/
def Knows (s : Machine) (pid : Pid) : Prop := (s.stateOf pid).isSome = true

/-- No frame is lost, once the messages on their way have been handled. -/
structure Housed (s : Machine) : Prop where
  pending : ∀ msg ∈ s.memoryQueue, Pending msg
  lodged : ∀ ord, LodgedService s.Knows (s.settledMemory ord)

/-- No frame belongs to the process. -/
def Frameless (m : MemoryService) (pid : Pid) : Prop := ∀ n, ¬m.memoryManager.Owns pid n

section operations

variable {w : World} {s s' : Machine}

theorem settledMemory_of_nil (h : s.memoryQueue = []) (ord : HashOrder) :
    s.settledMemory ord = s.memory := by
  rw [settledMemory, h]
  rfl

theorem Housed.of_pending (hpending : ∀ msg ∈ s.memoryQueue, Pending msg) (ord : HashOrder)
    (h : LodgedService s.Knows (s.settledMemory ord)) : s.Housed := by
  refine ⟨hpending, ?_⟩
  intro ord'
  rw [settledMemory, foldl_pending_ord hpending ord' ord]
  exact h

theorem Housed.of_nil (hqueue : s.memoryQueue = []) (h : LodgedService s.Knows s.memory) : s.Housed := by
  refine ⟨by simp [hqueue], ?_⟩
  intro ord
  rwa [settledMemory_of_nil hqueue]

/-- Only bytes change, and the owners of frames stay in the table. -/
theorem Housed.bytes (h : s.Housed) (hqueue : s'.memoryQueue = s.memoryQueue)
    (hsame : SameService s.memory s'.memory)
    (hknown : ∀ pid n, (s.settledMemory HashOrder.stored).memoryManager.Owns pid n → s.Knows pid →
      s'.Knows pid) : s'.Housed := by
  have hpending := h.pending
  rw [← hqueue] at hpending
  refine Housed.of_pending hpending HashOrder.stored ?_
  have hsettled : SameService (s.settledMemory HashOrder.stored) (s'.settledMemory HashOrder.stored) := by
    rw [settledMemory, settledMemory, hqueue]
    exact hsame.foldl h.pending HashOrder.stored
  apply hsettled.lodged
  exact Lodged.mono (h.lodged HashOrder.stored) fun pid n hn _ => hknown pid n hn

theorem Housed.same (h : s.Housed) (hqueue : s'.memoryQueue = s.memoryQueue)
    (hmemory : s'.memory = s.memory) (hknown : Kernel.Retains s.toKernel s'.toKernel) : s'.Housed := by
  apply h.bytes hqueue
  · rw [hmemory]
    exact SameService.refl s.memory
  · exact fun pid _ _ hpid => hknown pid hpid

theorem Housed.background (h : s.Housed) (w : World) : (s.background w).Housed := by
  refine Housed.of_pending ?_ (w.order s.clock) ?_
  · exact fun msg hmsg => h.pending msg (List.mem_of_mem_drop hmsg)
  · have hsettled : (s.background w).settledMemory (w.order s.clock) =
        s.settledMemory (w.order s.clock) := by
      simp only [Machine.background, settledMemory]
      rw [← List.foldl_append, List.take_append_drop]
    rw [hsettled]
    exact h.lodged (w.order s.clock)

theorem requestMemory_timely (htimely : w.timely s.clock = true) (req : MemoryRequest) :
    (s.requestMemory w req).2 =
      { s with
        memory := serve (w.order s.clock) (s.settledMemory (w.order s.clock)) (req, true)
        memoryQueue := []
        clock := s.clock + 1 } := by
  simp only [requestMemory, htimely, if_true]
  rfl

/-! ## Steps of a CPU and calls that store bytes -/

theorem Housed.stepCpu (h : s.Housed) (w : World) (pid : Pid) (cpu : VirtualCPU) :
    (s.stepCpu w pid cpu).2.Housed := by
  have hcontained := VirtualCPU.step_contained cpu (s.background w).mmu
  have hsame : SameService (s.background w).memory
      { (s.background w).memory with mmu := (cpu.step (s.background w).mmu).mmu } :=
    ⟨rfl, rfl, hcontained.tables_eq, hcontained.pageSize_eq, hcontained.size_eq⟩
  have hbytes : ∀ s' : Machine, s'.memoryQueue = (s.background w).memoryQueue →
      s'.memory = { (s.background w).memory with mmu := (cpu.step (s.background w).mmu).mmu } →
      s'.toKernel = s.toKernel → s'.Housed := by
    intro s' hqueue hmemory hk
    apply (h.background w).bytes hqueue
    · rw [hmemory]
      exact hsame
    · intro q n _ hq
      rw [Knows, hk]
      exact hq
  simp only [Machine.stepCpu]
  split
  · exact hbytes _ rfl rfl rfl
  · exact hbytes _ rfl rfl rfl
  · split
    · exact hbytes _ rfl rfl rfl
    · exact hbytes _ rfl rfl rfl

/-- The channel stays, and of the memory only bytes change. -/
structure BytesOnly (s s' : Machine) : Prop where
  queue_eq : s'.memoryQueue = s.memoryQueue
  memory : SameService s.memory s'.memory

theorem BytesOnly.refl (s : Machine) : BytesOnly s s := ⟨rfl, SameService.refl s.memory⟩

theorem BytesOnly.trans {s s' s'' : Machine} (h : BytesOnly s s') (h' : BytesOnly s' s'') :
    BytesOnly s s'' :=
  ⟨h'.queue_eq.trans h.queue_eq, h.memory.trans h'.memory⟩

theorem BytesOnly.of_eq (hqueue : s'.memoryQueue = s.memoryQueue) (hmemory : s'.memory = s.memory) :
    BytesOnly s s' := by
  refine ⟨hqueue, ?_⟩
  rw [hmemory]
  exact SameService.refl s.memory

theorem bytesOnly_writeSliceVirt (s : Machine) (pid : Pid) (vaddr : VirtAddr) (data : List UInt8) :
    BytesOnly s (s.writeSliceVirt pid vaddr data) :=
  ⟨rfl, rfl, rfl, sameTables_writeBytes s.mmu pid vaddr data⟩

theorem bytesOnly_loadImage (s : Machine) (pid : Pid) (code : List UInt8) (args : List String) :
    BytesOnly s (loadImage s pid code args) := by
  have hcode := bytesOnly_writeSliceVirt s pid 0 code
  simp only [loadImage]
  split
  · exact hcode
  · exact hcode.trans (bytesOnly_writeSliceVirt _ pid 0x100 _)
  · exact (hcode.trans (bytesOnly_writeSliceVirt _ pid 0x100 _)).trans
      (bytesOnly_writeSliceVirt _ pid 0x200 _)

end operations

end Machine

namespace Machine

theorem bytesOnly_handleFileSyscall {w : World} {s s' : Machine} {pid : Pid} {call : SystemCall}
    (h : s.handleFileSyscall w pid call = some s') (hcall : call.housing = false) : BytesOnly s s' := by
  obtain ⟨hqueue, -, data, hmemory⟩ := copies_handleFileSyscall h hcall
  exact (bytesOnly_writeSliceVirt s pid 0x200 data).trans (BytesOnly.of_eq hqueue hmemory)

/-! ## Exit -/

section exit

variable {size : UInt64} {w : World} {s : Machine} {pid : Pid}

theorem foldl_giveUp_send (pid : Pid) (entries : List (VirtAddr × PhysAddr × PageFlags)) (s : Machine) :
    entries.foldl (fun s entry =>
        (s.sendMemory (.unmapPage pid entry.1)).sendMemory (.freeFrame entry.2.1)) s =
      { s with memoryQueue := s.memoryQueue ++ entries.flatMap fun entry =>
        [(.unmapPage pid entry.1, false), (.freeFrame entry.2.1, false)] } := by
  induction entries generalizing s with
  | nil => simp
  | cons entry entries ih =>
    rw [List.foldl_cons, ih]
    simp [sendMemory]

/-- A page and its frame are given up. -/
def giveUp (ord : HashOrder) (pid : Pid) (m : MemoryService)
    (entry : VirtAddr × PhysAddr × PageFlags) : MemoryService :=
  serve ord (serve ord m (.unmapPage pid entry.1, false)) (.freeFrame entry.2.1, false)

/-- Pages of other processes stay, and the frames are free. -/
theorem foldl_giveUp (ord : HashOrder) (pid : Pid) (entries : List (VirtAddr × PhysAddr × PageFlags))
    {m : MemoryService} (hregular : RegularService size m) :
    (∀ q page, q ≠ pid → (entries.foldl (giveUp ord pid) m).mmu.mapped q page = m.mmu.mapped q page) ∧
      ∀ q n, (entries.foldl (giveUp ord pid) m).memoryManager.Owns q n →
        m.memoryManager.Owns q n ∧ ∀ entry ∈ entries, n ≠ entry.2.1.toNat / 4096 := by
  induction entries generalizing m with
  | nil => exact ⟨fun _ _ _ => rfl, fun q n hn => ⟨hn, by simp⟩⟩
  | cons entry entries ih =>
    have hunmapped := regular_serve hregular ord (.unmapPage pid entry.1, false)
    have hfreed := regular_serve hunmapped ord (.freeFrame entry.2.1, false)
    obtain ⟨-, -, hmapped⟩ := serve_unmap ord m pid entry.1
    have hmanager : (serve ord m (.unmapPage pid entry.1, false)).memoryManager = m.memoryManager :=
      foldl_unmap_manager ord pid [entry.1] m
    obtain ⟨ihmapped, ihowns⟩ := ih hfreed
    constructor
    · intro q page hq
      rw [List.foldl_cons]
      refine (ihmapped q page hq).trans ((hmapped q page).trans (if_neg ?_))
      exact fun hand => hq hand.1
    · intro q n hn
      obtain ⟨hstep, hrest⟩ := ihowns q n hn
      have howns := (PhysicalMemoryManager.owns_freeFrame hunmapped.history.fit.exact 0
        (entry.2.1.toNat / 4096)).1 hstep
      rw [hmanager] at howns
      exact ⟨howns.1, List.forall_mem_cons.2 ⟨howns.2, hrest⟩⟩

theorem syscallExit_sent (hpid : pid ≠ 1) (code : UInt64) :
    (s.syscallExit w pid code).memory = s.memory ∧
      (s.syscallExit w pid code).memoryQueue = s.memoryQueue ++
        (s.mmu.getPageEntries (w.order s.clock) pid).flatMap fun entry =>
          [(.unmapPage pid entry.1, false), (.freeFrame entry.2.1, false)] := by
  simp only [syscallExit, if_neg hpid, foldl_giveUp_send]
  exact ⟨rfl, rfl⟩

/-- Exit gives back every frame that a page of the process leads to. -/
theorem Housed.exit (h : s.Housed) (hregular : ∀ ord, RegularService size (s.settledMemory ord))
    (code : UInt64) (hknown : Kernel.Retains s.toKernel (s.syscallExit w pid code).toKernel) :
    (s.syscallExit w pid code).Housed := by
  rcases eq_or_ne pid 1 with rfl | hpid
  · exact h
  obtain ⟨hmemory, hqueue⟩ := syscallExit_sent (w := w) (s := s) hpid code
  refine Housed.of_pending ?_ HashOrder.stored ?_
  · intro msg hmsg
    rw [hqueue] at hmsg
    rcases List.mem_append.1 hmsg with hmsg | hmsg
    · exact h.pending msg hmsg
    · obtain ⟨entry, -, hmsg⟩ := List.mem_flatMap.1 hmsg
      rcases List.mem_pair.1 hmsg with rfl | rfl
      · exact .unmap pid entry.1
      · exact .free entry.2.1
  · -- the messages of exit come after the ones that were on their way
    have hsettled : (s.syscallExit w pid code).settledMemory HashOrder.stored =
        (s.mmu.getPageEntries (w.order s.clock) pid).foldl (giveUp HashOrder.stored pid)
          (s.settledMemory HashOrder.stored) := by
      rw [settledMemory, hmemory, hqueue, List.foldl_append, List.foldl_flatMap]
      rfl
    rw [hsettled]
    obtain ⟨hmapped, howns⟩ := foldl_giveUp HashOrder.stored pid
      (s.mmu.getPageEntries (w.order s.clock) pid) (hregular HashOrder.stored)
    intro q n hn hq
    obtain ⟨hold, hgiven⟩ := howns q n hn
    obtain ⟨hknows, hhouse⟩ := h.lodged HashOrder.stored q n hold hq
    refine ⟨hknown q hknows, ?_⟩
    rcases eq_or_ne q pid with rfl | hne
    · -- the frame was mapped, so it has been freed
      exfalso
      obtain ⟨page, entry, hentry, hframe⟩ := hhouse
      have hnow := foldl_pending_mapped h.pending HashOrder.stored hentry
      have hmem := (s.mmu.mem_getPageEntries (w.order s.clock) q page entry.frame entry.flags).2 hnow
      apply hgiven _ hmem
      rw [hframe, (hregular HashOrder.stored).number_eq hold]
    · refine hhouse.of_mapped ?_
      intro page entry hentry _
      rwa [hmapped q page hne]

end exit

/-! ## Fork -/

section fork

variable {size : UInt64} {swapImage : Nat → UInt8} {w : World} {s : Machine} {parent child : Pid}

theorem answered_timely (htimely : ∀ n, w.timely n = true) (clock : Nat) (pages : List VirtAddr)
    (queue : List Nat) : answered w clock pages queue = true := by
  induction pages generalizing clock queue with
  | nil => rfl
  | cons page pages ih => cases queue <;> simp [answered, htimely, ih]

/-- A request that is answered leaves the channel empty. -/
theorem queue_of_requestMemory (htimely : ∀ n, w.timely n = true) {s' : Machine} {req : MemoryRequest}
    {answer : Option Answer} (h : s.requestMemory w req = (answer, s')) : s'.memoryQueue = [] := by
  have hserved := requestMemory_timely (htimely s.clock) req
  rw [h] at hserved
  rw [show s' = _ from hserved]

theorem clonePages_queue (parent child : Pid) (htimely : ∀ n, w.timely n = true)
    (entries : List (VirtAddr × PhysAddr × PageFlags)) (s : Machine) :
    ∀ msg ∈ (clonePages w parent child entries s).2.memoryQueue, msg ∈ s.memoryQueue := by
  induction entries generalizing s with
  | nil => exact fun msg hmsg => hmsg
  | cons entry entries ih =>
    obtain ⟨vaddr, paddr, flags⟩ := entry
    intro msg hmsg
    simp only [clonePages] at hmsg
    split at hmsg
    · next heq =>
      rw [queue_of_requestMemory htimely heq] at hmsg
      cases hmsg
    · next newFrame s' heq =>
      have hmapped := ih _ msg hmsg
      have hempty : (s'.requestMemory w (.mapPage child vaddr newFrame
          ⟨true, true, !flags.writable⟩)).2.memoryQueue = [] :=
        queue_of_requestMemory htimely rfl
      rw [onMmu, hempty] at hmapped
      cases hmapped
    · next heq =>
      have hskipped := ih _ msg hmsg
      rw [queue_of_requestMemory htimely heq] at hskipped
      cases hskipped

theorem forkImpl_queue (htimely : ∀ n, w.timely n = true) (parent : Pid) :
    ∀ msg ∈ (s.forkImpl w parent).2.memoryQueue, msg ∈ s.memoryQueue := by
  have hcloned := clonePages_queue parent s.nextPid htimely
    (s.mmu.getPageEntries (w.order s.clock) parent) s.advance
  simp only [forkImpl]
  split
  · exact fun msg hmsg => hmsg
  split
  · exact fun msg hmsg => hmsg
  split
  · next heq =>
    rw [heq] at hcloned
    exact hcloned
  · next heq =>
    rw [heq] at hcloned
    exact hcloned

/-- The frames of the cloned pages go to the child. -/
theorem foldl_clonePage_owns {gs : List PageGrant} {m : MemoryService} (hregular : RegularService size m)
    (hqueue : gs.map PageGrant.number <+: m.memoryManager.allocator.freeQueue) {q : Pid} {n : Nat}
    (hn : (gs.foldl (clonePage parent child) m).memoryManager.Owns q n) :
    m.memoryManager.Owns q n ∨ q = child ∧ n ∈ gs.map PageGrant.number := by
  induction gs generalizing m with
  | nil => exact Or.inl hn
  | cons g gs ih =>
    obtain ⟨rest, hrest⟩ := hqueue
    rw [List.map_cons, List.cons_append] at hrest
    have hfit := hregular.history.fit
    have htaken := takeFrame_spec hfit child hrest.symm
    have hmanager := clonePage_manager parent child m g
    have hprefix : gs.map PageGrant.number <+:
        (clonePage parent child m g).memoryManager.allocator.freeQueue := by
      rw [hmanager, htaken.queue_eq]
      exact ⟨rest, rfl⟩
    rcases ih (regular_clonePage hregular parent child g) hprefix hn with hstep | ⟨hq, hmem⟩
    · rw [hmanager, PhysicalMemoryManager.owns_allocateFrames hfit.exact, ← hrest] at hstep
      split at hstep
      · next htake =>
        refine Or.inr ⟨hstep, ?_⟩
        have hnumber : n = g.number := by simpa using htake.2
        rw [hnumber]
        exact List.mem_cons_self
      · exact Or.inl hstep
    · exact Or.inr ⟨hq, List.mem_cons_of_mem _ hmem⟩

theorem Housed.fork (h : s.Housed) (hcomes : s.ComesFrom (bootMemory size swapImage))
    (hnumbered : s.toKernel.Numbered) (htimely : ∀ n, w.timely n = true) (parent : Pid)
    (hknown : Kernel.Retains s.toKernel (s.forkImpl w parent).2.toKernel) :
    (s.forkImpl w parent).2.Housed := by
  have hforked := forkImpl_forked w s parent
  have hqueue := forkImpl_queue (s := s) htimely parent
  by_cases hparent : parent = 0
  · have heq : (s.forkImpl w parent).2.memory = s.memory ∧
        (s.forkImpl w parent).2.memoryQueue = s.memoryQueue := by
      simp only [forkImpl, if_pos hparent]
      exact ⟨rfl, rfl⟩
    exact h.same heq.2 heq.1 hknown
  by_cases hexists : (s.processTable.lookup parent).isSome = true
  · rcases forkImpl_looped (w := w) hcomes hparent hexists with
      ⟨-, s', hs', hmemory, -⟩ | ⟨hlate, -⟩
    · rw [hs'] at hforked hqueue hknown ⊢
      have hregular := regular_forkMemory hcomes w
      refine Housed.of_pending (fun msg hmsg => h.pending msg (hqueue msg hmsg))
        (w.order (s.clock + 1)) ?_
      rw [hmemory]
      intro q n hn hq
      have hprefix : (forkGrants w s parent).map PageGrant.number <+:
          (forkMemory w s).memoryManager.allocator.freeQueue := by
        rw [forkGrants, grants_numbers]
        exact List.take_prefix _ _
      have haligned := forkGrants_aligned w parent hcomes
      rcases foldl_clonePage_owns hregular hprefix hn with hold | ⟨rfl, hnew⟩
      · obtain ⟨hknows, hhouse⟩ := h.lodged (w.order (s.clock + 1)) q n hold hq
        refine ⟨hknown q hknows, hhouse.of_mapped ?_⟩
        intro page entry hentry _
        -- a process that owns a frame is in the table, so it is not the child
        have hne : q ≠ s.nextPid := Nat.ne_of_lt (hnumbered q hknows)
        rw [foldl_mapped_other haligned hregular fun heq => absurd heq hne]
        exact hentry
      · obtain ⟨g, hg, rfl⟩ := List.mem_map.1 hnew
        refine ⟨?_, g.page, _, foldl_mapped_child haligned forkGrants_pages_nodup hregular hg, rfl⟩
        cases hforked with
        | fresh hzero => exact absurd hzero hparent
        | child _ hk =>
          rw [Knows, hk, Kernel.forkChild_stateOf, if_pos rfl]
          rfl
    · rw [forkAnswered, answered_timely htimely] at hlate
      cases hlate
  · have heq : s.forkImpl w parent = (.error (Kernel.processNotFound parent), s) := by
      have hnone : (s.processTable.lookup parent).isNone = true := by simpa using hexists
      simp only [forkImpl, if_neg hparent, if_pos hnone]
    rw [heq]
    exact h

end fork

/-! ## Exec -/

/-- The frames at the front of the queue are as many frames in a row from the first one on, in some
order. -/
def Gathered (m : MemoryService) (count : Nat) : Prop :=
  count ≤ m.memoryManager.allocator.freeQueue.length → ∀ first,
    m.memoryManager.allocator.freeQueue.head? = some first →
      ∀ n ∈ m.memoryManager.allocator.freeQueue.take count, first ≤ n ∧ n < first + count

/-- Exec has no frame to lose, and can map all frames that it is given. -/
def ExecFrugal (w : World) (s : Machine) (pid : Pid) (executable : String) (args : List String) : Prop :=
  s.Knows pid → ∀ code, programImage w s executable args = some code →
    Frameless (s.settledMemory (w.order s.clock)) pid ∧
      Gathered (s.settledMemory (w.order s.clock)) ((code.length + 4095) / 4096)

section exec

variable {size : UInt64} {swapImage : Nat → UInt8} {w : World} {s s' : Machine} {pid : Pid}
  {known : Pid → Prop}

theorem allocFrames_snd (w : World) (s : Machine) (count : Nat) (pid : Pid) :
    (allocFrames w s count pid).2 = (s.requestMemory w (.allocFrame count pid)).2 := by
  simp only [allocFrames]
  split
  · next heq => rw [heq]
  · next heq => rw [heq]
  · next heq => rw [heq]

theorem serve_allocFrame_manager (ord : HashOrder) (m : MemoryService) (count : Nat) (pid : Pid) :
    (serve ord m (.allocFrame count pid, true)).memoryManager =
      (m.memoryManager.allocateFrames pid count).2 := by
  simp only [serve, if_true, handleEnvelope_service, MemoryService.handleMemoryRequestWithResponse,
    MemoryService.handleAllocFrameWithResponse]
  split <;> rfl

/-- What a request for frames leaves behind, granted or refused. -/
theorem allocFrames_served (htimely : w.timely s.clock = true) {count : Nat}
    {r : Except ServiceError (List PhysAddr)} (h : allocFrames w s count pid = (r, s')) :
    s'.memoryQueue = [] ∧
      s'.memory.memoryManager = ((s.pendingMemory w).memoryManager.allocateFrames pid count).2 ∧
      s'.memory.mmu = (s.pendingMemory w).mmu := by
  have hasked := allocFrames_snd w s count pid
  rw [h, requestMemory_timely htimely] at hasked
  rw [show s' = _ from hasked]
  exact ⟨rfl, serve_allocFrame_manager _ _ count pid, serve_allocFrame_mmu _ _ count pid⟩

/-- Frames are refused only when there are too few. -/
theorem allocFrames_error (htimely : w.timely s.clock = true) {count : Nat} {e : ServiceError}
    (hfit : FramesFit size (s.pendingMemory w).memoryManager)
    (h : allocFrames w s count pid = (.error e, s')) :
    (s.pendingMemory w).memoryManager.allocator.freeQueue.length < count := by
  by_contra henough
  obtain ⟨granted, manager, halloc, hgrant⟩ := PhysicalMemoryManager.allocateFrames_grant hfit.exact pid
    (Nat.not_lt.1 henough)
  have hlength : granted.length = count := by
    have hnumbers := congrArg List.length hgrant.numbers
    rw [List.length_map, List.length_take, Nat.min_eq_left (Nat.not_lt.1 henough)] at hnumbers
    exact hnumbers
  rw [pendingMemory] at halloc
  simp [allocFrames, requestMemory, htimely, MemoryService.handleEnvelope,
    MemoryService.handleMemoryRequestWithResponse, MemoryService.handleAllocFrameWithResponse, halloc,
    hlength] at h

theorem mapAll_other (pid : Pid) (i : Nat) (frames : List PhysAddr) (m : MemoryService) :
    (mapAll pid i frames m).memoryManager = m.memoryManager ∧
      ∀ q page, q ≠ pid → (mapAll pid i frames m).mmu.mapped q page = m.mmu.mapped q page := by
  induction frames generalizing i m with
  | nil => exact ⟨rfl, fun _ _ _ => rfl⟩
  | cons addr rest ih =>
    obtain ⟨hmanager, hmapped⟩ := ih (i + 1) (mapInto m pid (UInt64.ofNat (i * 4096)) addr)
    obtain ⟨-, -, hone⟩ := MemoryService.mapLossy_spec m.mmu pid (UInt64.ofNat (i * 4096)) addr
      ⟨true, true, true⟩
    refine ⟨hmanager, ?_⟩
    intro q page hq
    rw [mapAll, hmapped q page hq]
    exact (hone q page).trans (if_neg fun hand => hq hand.1)

theorem mapFrames_queue (htimely : ∀ n, w.timely n = true) (pid : Pid) (i : Nat)
    (frames : List PhysAddr) (hqueue : s.memoryQueue = []) :
    (mapFrames w pid i frames s).memoryQueue = [] := by
  induction frames generalizing i s with
  | nil => exact hqueue
  | cons addr rest ih =>
    rw [mapFrames]
    exact ih (i + 1) (queue_of_requestMemory htimely rfl)

/-- The pages that exec gives up belong to a process without frames. -/
theorem lodged_tornDown (h : LodgedService known (s.settledMemory (w.order (s.clock + 1))))
    (hframeless : Frameless (s.settledMemory (w.order (s.clock + 1))) pid) :
    LodgedService known ((tornDown w s pid).pendingMemory w) := by
  obtain ⟨-, hmapped⟩ := foldl_unmap (w.order (s.clock + 1)) pid (unmappedPages w s pid)
    (s.settledMemory (w.order (s.clock + 1)))
  have hmanager := foldl_unmap_manager (w.order (s.clock + 1)) pid (unmappedPages w s pid)
    (s.settledMemory (w.order (s.clock + 1)))
  rw [← tornDown_pending] at hmapped hmanager
  intro q n hn hq
  rw [hmanager] at hn
  obtain ⟨hknows, hhouse⟩ := h q n hn hq
  refine ⟨hknows, hhouse.of_mapped ?_⟩
  intro page entry hentry _
  rw [hmapped, if_neg, hentry]
  rintro ⟨rfl, -⟩
  exact hframeless n hn

/-- All frames that were granted get a page. -/
theorem lodged_mapAll {m : MemoryService} {manager : PhysicalMemoryManager} {start : PhysAddr}
    {count first : Nat} (h : Lodged known manager m.mmu) (hexact : manager.Exact) (hpid : known pid)
    (hmanager : m.memoryManager = (manager.allocateFrames pid count).2)
    (hgathered : ∀ n ∈ manager.allocator.freeQueue.take count, first ≤ n ∧ n < first + count)
    (hstart : start = frameAddress first) (hfits : count * 4096 ≤ UInt64.size)
    (hspan : Span m.mmu pid start 0) (hframeless : ∀ n, ¬manager.Owns pid n) :
    LodgedService known
      (mapAll pid 0 ((List.range count).map fun i => start + UInt64.ofNat i * 4096) m) := by
  obtain ⟨hkept, hother⟩ := mapAll_other pid 0
    ((List.range count).map fun i => start + UInt64.ofNat i * 4096) m
  have hbase : pageBase start = start := by
    rw [hstart]
    exact pageBase_frameAddress first
  have hmapped := mapAll_span hbase count 0 (by rw [Nat.zero_add]; exact hfits) hspan
  rw [← List.range_eq_range', Nat.zero_add] at hmapped
  intro q n hn hq
  rw [hkept, hmanager, PhysicalMemoryManager.owns_allocateFrames hexact] at hn
  split at hn
  · next htaken =>
    -- the frames granted are in a row, so that the one numbered `n` belongs to page `n - first`
    obtain ⟨hle, hlt⟩ := hgathered n htaken.2
    have hpage : (UInt64.ofNat ((n - first) * 4096)).toNat = (n - first) * 4096 := by
      apply UInt64.toNat_ofNat_of_lt'
      omega
    rw [hn]
    refine ⟨hpid, UInt64.ofNat ((n - first) * 4096),
      ⟨start + UInt64.ofNat ((n - first) * 4096), ⟨true, true, true⟩⟩, ?_, ?_⟩
    · rw [hmapped.mapped_eq _ (pageBase_of_mod (by omega)), if_pos (by omega)]
    · show start + UInt64.ofNat ((n - first) * 4096) = frameAddress n
      rw [hstart, frameAddress, ← UInt64.ofNat_add, ← Nat.add_mul, Nat.add_sub_cancel' hle, frameAddress]
  · obtain ⟨hknows, hhouse⟩ := h q n hn hq
    refine ⟨hknows, hhouse.of_mapped ?_⟩
    intro page entry hentry _
    -- the pages of others stay, and the process had no frame
    rw [hother q page, hentry]
    rintro rfl
    exact hframeless n hn

/-- No message on its way maps a page. -/
theorem Housed.noLatePages (h : s.Housed) (w : World) (pid : Pid) : NoLatePages w s pid := by
  intro page hpage
  obtain ⟨entry, hentry⟩ := Option.isSome_iff_exists.1 hpage
  have hnow : s.mmu.mapped pid page = some entry := foldl_pending_mapped h.pending _ hentry
  rw [hnow]
  rfl

theorem mapFrames_memory (htimely : ∀ n, w.timely n = true) (hqueue : s.memoryQueue = [])
    (frames : List PhysAddr) : (mapFrames w pid 0 frames s).memory = mapAll pid 0 frames s.memory := by
  cases frames with
  | nil => rfl
  | cons addr rest =>
    exact mapFrames_timely (by simp) (settledMemory_of_nil hqueue) (htimely _)

theorem loadAddress_eq (w : World) (s : Machine) :
    loadAddress w s = frameAddress ((s.settledMemory
      (w.order (s.clock + 1))).memoryManager.allocator.freeQueue.head?.getD 0) := by
  rw [loadAddress]
  cases (s.settledMemory (w.order (s.clock + 1))).memoryManager.allocator.freeQueue.head? with
  | none => rfl
  | some first => rfl

theorem Gathered.bounds {m : MemoryService} {count : Nat} (h : Gathered m count)
    (henough : count ≤ m.memoryManager.allocator.freeQueue.length) :
    ∀ n ∈ m.memoryManager.allocator.freeQueue.take count,
      m.memoryManager.allocator.freeQueue.head?.getD 0 ≤ n ∧
        n < m.memoryManager.allocator.freeQueue.head?.getD 0 + count := by
  intro n hn
  cases hqueue : m.memoryManager.allocator.freeQueue with
  | nil =>
    rw [hqueue, List.take_nil] at hn
    cases hn
  | cons first rest => exact h henough first (by rw [hqueue]; rfl) n hn

theorem Housed.exec (h : s.Housed) (hcomes : s.ComesFrom (bootMemory size swapImage))
    (htimely : ∀ n, w.timely n = true) {executable : String} {args : List String}
    (hfrugal : ExecFrugal w s pid executable args)
    (hknown : Kernel.Retains s.toKernel (s.execImpl w pid executable args).2.toKernel) :
    (s.execImpl w pid executable args).2.Housed := by
  -- the messages on their way are of kinds that do not look at an order
  have hsettled : s.settledMemory (w.order s.clock) = s.settledMemory (w.order (s.clock + 1)) :=
    foldl_pending_ord h.pending _ _ s.memory
  simp only [execImpl] at hknown ⊢
  split at hknown
  · next hunknown =>
    rw [if_pos hunknown]
    exact h
  next hlookup =>
  rw [if_neg hlookup]
  split at hknown
  · exact h.same rfl rfl hknown
  next code hcode =>
  have hpid : s.Knows pid := s.stateOf_isSome hlookup
  obtain ⟨hframeless, hgathered⟩ := hfrugal hpid code hcode
  rw [hsettled] at hframeless hgathered
  have htorn := lodged_tornDown (h.lodged (w.order (s.clock + 1))) hframeless
  have hmanager := foldl_unmap_manager (w.order (s.clock + 1)) pid (unmappedPages w s pid)
    (s.settledMemory (w.order (s.clock + 1)))
  rw [← tornDown_pending] at hmanager
  -- the state in which the frames are asked for: all pages have been given up
  have hregular : RegularService size ((tornDown w s pid).pendingMemory w) := by
    rw [tornDown_pending, ← List.foldl_map (f := fun virt => (MemoryRequest.unmapPage pid virt, false))
      (g := serve (w.order (s.clock + 1)))]
    exact (Touched.foldl_serve _ _ (Touched.foldl_serve _ s.memoryQueue hcomes)).regular
  have hknows : ∀ s' : Machine, Kernel.Retains s.toKernel s'.toKernel →
      ∀ {manager mmu}, Lodged s.Knows manager mmu → Lodged s'.Knows manager mmu := by
    intro s' hretains manager mmu hlodged
    exact hlodged.mono fun q _ _ _ hq => hretains q hq
  split at hknown
  -- too few frames: what was taken is given back, and the process had no frame to lose
  · next e s' heq =>
    obtain ⟨hqueue, hgranted, hmmu⟩ := allocFrames_served (htimely _) heq
    have hshort := allocFrames_error (htimely _) hregular.history.fit heq
    refine Housed.of_nil hqueue ?_
    rw [LodgedService, hgranted, hmmu]
    exact hknows _ hknown (Lodged.refused htorn hregular pid hshort)
  · next frames s' heq =>
    obtain ⟨hqueue, hgranted, hmmu⟩ := allocFrames_served (htimely _) heq
    have hgrant := granted_of_allocFrames hcomes (h.noLatePages w pid) heq
    obtain ⟨henough, -⟩ := grantedFrames_first hregular.history.fit (allocFrames_ok heq).1
    have hloaded := bytesOnly_loadImage (mapFrames w pid 0 frames s') pid code args
    refine Housed.of_nil (hloaded.queue_eq.trans (mapFrames_queue htimely pid 0 frames hqueue)) ?_
    apply hloaded.memory.lodged
    obtain rfl := hgrant.frames_eq
    rw [mapFrames_memory htimely hqueue]
    rw [Frameless, ← hmanager] at hframeless
    -- the loader counts on from the first frame; with frames in a row it maps what it was given
    have hbounds := hgathered.bounds (by rw [← hmanager]; exact henough)
    rw [← hmanager] at hbounds
    have hstart := loadAddress_eq w s
    rw [← hmanager] at hstart
    have hsize : s.mmu.memory.size = size.toNat := hcomes.regular.size_eq
    have hfits : (code.length + 4095) / 4096 * 4096 ≤ UInt64.size := by
      have hle := hgrant.fits
      rw [hsize] at hle
      exact Nat.le_trans hle (Nat.le_of_lt size.toNat_lt_size)
    have hspan : Span s'.memory.mmu pid (loadAddress w s) 0 :=
      ⟨hgrant.pageSize_eq, fun page _ => by rw [Nat.zero_mul]; exact hgrant.pageless page⟩
    refine lodged_mapAll ?_ hregular.history.fit.exact (hknown pid hpid) hgranted hbounds hstart hfits
      hspan hframeless
    rw [hmmu]
    exact hknows _ hknown htorn

end exec

/-! ## Shared frames and faults -/

/-- The service with a shared frame mapped for one more process. -/
def shareInto (frame : PhysAddr) (m : MemoryService) (pid : Pid) : MemoryService :=
  { m with mmu := MemoryService.mapLossy m.mmu pid 0x10000 frame (PageFlags.ofProt ⟨true, true, false⟩) }

section shared

variable {size : UInt64} {w : World} {s : Machine}

theorem mapShared_memory (htimely : ∀ n, w.timely n = true) (frame : PhysAddr) (pids : List Pid)
    (hqueue : s.memoryQueue = []) :
    (mapShared w frame pids s).memoryQueue = [] ∧
      (mapShared w frame pids s).memory = pids.foldl (shareInto frame) s.memory := by
  induction pids generalizing s with
  | nil => exact ⟨hqueue, rfl⟩
  | cons pid pids ih =>
    have hserved := requestMemory_timely (htimely s.clock)
      (.mapPage pid 0x10000 frame ⟨true, true, false⟩)
    rw [settledMemory_of_nil hqueue] at hserved
    have hrest := ih (s := (s.requestMemory w (.mapPage pid 0x10000 frame ⟨true, true, false⟩)).2)
      (queue_of_requestMemory htimely rfl)
    rw [hserved] at hrest
    rw [mapShared, List.foldl_cons, hserved, List.foldl_cons]
    exact hrest

theorem foldl_shareInto (frame : PhysAddr) (pids : List Pid) {m : MemoryService}
    (hsize : m.mmu.pageSize = PageSize.fourK) :
    (pids.foldl (shareInto frame) m).memoryManager = m.memoryManager ∧
      ∀ q page, (q ∈ pids → page ≠ 0x10000) →
        (pids.foldl (shareInto frame) m).mmu.mapped q page = m.mmu.mapped q page := by
  induction pids generalizing m with
  | nil => exact ⟨rfl, fun _ _ _ => rfl⟩
  | cons pid pids ih =>
    obtain ⟨-, hps, hmapped⟩ := MemoryService.mapLossy_spec m.mmu pid 0x10000 frame
      (PageFlags.ofProt ⟨true, true, false⟩)
    obtain ⟨hmanager, hrest⟩ := ih (m := shareInto frame m pid) (hps.trans hsize)
    refine ⟨hmanager, ?_⟩
    intro q page hpage
    rw [List.foldl_cons, hrest q page fun hq => hpage (List.mem_cons_of_mem pid hq)]
    refine (hmapped q page).trans (if_neg ?_)
    rintro ⟨rfl, rfl⟩
    apply hpage List.mem_cons_self
    rw [MMU.alignDown, hsize]
    rfl

theorem Housed.mapShared (h : s.Housed) (hregular : RegularService size (s.settledMemory (w.order s.clock)))
    (htimely : ∀ n, w.timely n = true) (frame : PhysAddr) {pids : List Pid}
    (hspare : ∀ pid ∈ pids, SparePage (s.settledMemory (w.order s.clock)) pid 0x10000) :
    (mapShared w frame pids s).Housed := by
  cases pids with
  | nil => exact h
  | cons pid pids =>
    have hserved := requestMemory_timely (htimely s.clock)
      (.mapPage pid 0x10000 frame ⟨true, true, false⟩)
    obtain ⟨hqueue, hmemory⟩ := mapShared_memory (s := (s.requestMemory w
      (.mapPage pid 0x10000 frame ⟨true, true, false⟩)).2) htimely frame pids
      (queue_of_requestMemory htimely rfl)
    have hall : (Machine.mapShared w frame (pid :: pids) s).memory =
        (pid :: pids).foldl (shareInto frame) (s.settledMemory (w.order s.clock)) := by
      refine hmemory.trans ?_
      rw [hserved]
      rfl
    have hquiet : Quiet s (Machine.mapShared w frame (pid :: pids) s) :=
      Quiet.foldl (fun s _ => quiet_requestMemory w s _) _ s
    refine Housed.of_nil hqueue ?_
    obtain ⟨hmanager, hmapped⟩ := foldl_shareInto frame (pid :: pids) hregular.pageSize_eq
    rw [hall]
    intro q n hn hq
    rw [hmanager] at hn
    obtain ⟨hknows, hhouse⟩ := h.lodged (w.order s.clock) q n hn hq
    refine ⟨by rw [Knows, hquiet.toKernel]; exact hknows, hhouse.of_mapped ?_⟩
    intro page entry hentry hframe
    rw [hmapped q page, hentry]
    rintro hmem rfl
    exact hspare q hmem entry n hentry hn hframe

/-- A request that is answered, for a process that stays. -/
theorem Housed.request (htimely : w.timely s.clock = true) (req : MemoryRequest)
    (h : LodgedService s.Knows (serve (w.order s.clock) (s.settledMemory (w.order s.clock)) (req, true))) :
    (s.requestMemory w req).2.Housed := by
  rw [requestMemory_timely htimely]
  exact Housed.of_nil rfl h

end shared

end Machine

/-! ## Runs -/

open Machine

/-- The conditions under which a transition loses no frame. Exec needs a process without frames, and
frames that lie in a row. A fault is served for a process in the table and a page with no frame of its own
behind it. A process that leaves the table has no frames. The page that gets a shared frame has no frame
of the process behind it. -/
def Frugal (w : World) (t : Tr) : Prop :=
  match t.act with
  | .exec pid executable args => ExecFrugal w t.pre pid executable args
  | .syscall _ pid .exec => ExecFrugal w t.pre pid (t.pre.readStringVirt pid 0x100) []
  | .pageFault _ pid => t.pre.Knows pid ∧ ∀ cpu, t.pre.cpus.get pid = some cpu →
      SparePage (t.pre.settledMemory (w.order t.pre.clock)) pid (pageBase cpu.pc)
  | .reap _ => ∀ pid, t.pre.toKernel.findZombie (w.order t.pre.clock) = some pid → pid ≠ 1 →
      Frameless (t.pre.settledMemory (w.order t.pre.clock)) pid
  | .request (.waitChild pid (some child)) (some _) => t.pre.isChild pid child = true →
      (t.pre.stateOf child).any ProcessState.isTerminated = true →
        Frameless (t.pre.settledMemory (w.order t.pre.clock)) child
  | .background => ∀ frame pids, t.post = mapShared w frame pids t.pre →
      ∀ pid ∈ pids, SparePage (t.pre.settledMemory (w.order t.pre.clock)) pid 0x10000
  | _ => True

/-- No frame is lost: the owner of every allocated frame, unless it is the kernel, is in the process
table and has a page that leads to the frame. -/
def NoLeak (s : Machine) : Prop :=
  ∀ frame ∈ s.memory.memoryManager.allocator.frames, frame.allocated = true →
    ∀ pid, frame.owner = some pid → pid ≠ 0 → (s.processTable.lookup pid).isSome = true ∧
      ∃ page entry, s.mmu.mapped pid page = some entry ∧ entry.frame = frame.address

section runs

variable {size : UInt64} {swapImage : Nat → UInt8} {w : World} {s s' : Machine} {act : Act}

theorem housed_handleFileSyscall {pid : Pid} {call : SystemCall} (h : s.Housed)
    (hcomes : s.ComesFrom (bootMemory size swapImage)) (hnumbered : s.toKernel.Numbered)
    (htimely : ∀ n, w.timely n = true)
    (hfrugal : call = .exec → ExecFrugal w s pid (s.readStringVirt pid 0x100) [])
    (hcall : s.handleFileSyscall w pid call = some s')
    (hknown : Kernel.Retains s.toKernel s'.toKernel) : s'.Housed := by
  cases call with
  | exit code =>
    cases hcall
    exact h.exit (regular_settled hcomes) code hknown
  | fork =>
    cases hcall
    have hforked := h.fork hcomes hnumbered htimely pid
    simp only [syscallFork] at hknown ⊢
    split at hknown
    · next heq =>
      rw [heq] at hforked
      exact (hforked hknown).same rfl rfl (Kernel.Retains.refl _)
    · next heq =>
      rw [heq] at hforked
      exact (hforked hknown).same rfl rfl (Kernel.Retains.refl _)
  | exec =>
    cases hcall
    exact h.exec hcomes htimely (hfrugal rfl) hknown
  | _ =>
    have hbytes := bytesOnly_handleFileSyscall hcall rfl
    exact h.bytes hbytes.queue_eq hbytes.memory fun pid _ _ hpid => hknown pid hpid

/-- A fault that comes as an interrupt takes a frame for the kernel. -/
theorem lodged_faultMessage {known : Pid → Prop} {m : MemoryService} (h : LodgedService known m)
    (hregular : RegularService size m) (addr : VirtAddr) (access : AccessType) (ord : HashOrder) :
    LodgedService known (serve ord m (.pageFaultHandler 0 addr access, false)) := by
  have hkernel := Lodged.kernel h hregular 1
  simp only [serve, Bool.false_eq_true, if_false, MemoryService.handleMessage,
    MemoryService.handleMemoryRequest, MemoryService.handlePageFault]
  split
  · exact h
  split
  · exact h
  split
  · next heq =>
    rw [heq] at hkernel
    split <;> exact hkernel
  · next heq =>
    rw [heq] at hkernel
    simp only [MemoryService.handleMapPage]
    split <;> exact hkernel

theorem housed_reap (h : s.Housed)
    (hfrugal : ∀ pid, s.toKernel.findZombie (w.order s.clock) = some pid → pid ≠ 1 →
      Frameless (s.settledMemory (w.order s.clock)) pid) : (s.reap w).Housed := by
  simp only [Machine.reap]
  split
  · next pid hzombie =>
    simp only [reapProcess]
    split
    · exact h.same rfl rfl (Kernel.Retains.refl _)
    next hpid =>
    refine h.bytes rfl (SameService.refl s.memory) ?_
    intro q n hn hq
    have hne : q ≠ pid := by
      rintro rfl
      apply hfrugal q hzombie hpid n
      rw [settledMemory, foldl_pending_ord h.pending _ HashOrder.stored]
      exact hn
    have hremoved : (s.toKernel.removeProcess pid).stateOf q = s.stateOf q :=
      (s.toKernel.removeProcess_stateOf pid q).trans (if_neg hne)
    show ((s.toKernel.removeProcess pid).stateOf q).isSome = true
    rw [hremoved]
    exact hq
  · exact h.same rfl rfl (Kernel.Retains.refl _)

theorem housed_request {req : ProcessRequest} {channel : Option RequestId} (h : s.Housed)
    (hretains : (Act.request req channel).removes = false →
      Kernel.Retains s.toKernel (s.handleSimpleRequest w req channel).1.toKernel)
    (hfrugal : Frugal w ⟨s, .request req channel, (s.handleSimpleRequest w req channel).1⟩) :
    (s.handleSimpleRequest w req channel).1.Housed := by
  have hsame := sameMemory_handleSimpleRequest w s req channel
  cases hremoves : (Act.request req channel).removes with
  | false => exact h.same hsame.queue_eq hsame.memory_eq (hretains hremoves)
  | true =>
    -- the one request that takes a process out of the table
    refine h.bytes hsame.queue_eq (by rw [hsame.memory_eq]; exact SameService.refl s.memory) ?_
    intro q n hn hq
    cases req with
    | waitChild pid childPid =>
      cases channel with
      | none => cases hremoves
      | some id =>
        by_contra hleft
        have hleft' : ((s.toKernel.handleWaitChildWithResponse pid childPid id).1.stateOf q).isSome =
            false := Bool.eq_false_iff.2 hleft
        obtain ⟨rfl, hchild, hterminated⟩ := Kernel.retains_waitChild id hq hleft'
        apply hfrugal hchild hterminated n
        rw [settledMemory, foldl_pending_ord h.pending _ HashOrder.stored]
        exact hn
    | _ => cases hremoves

/-- A transition that meets its condition loses no frame. -/
theorem Performed.housed (hperformed : Performed w s act s') (hfrugal : Frugal w ⟨s, act, s'⟩)
    (h : s.Housed) (hcomes : s.ComesFrom (bootMemory size swapImage)) (hnumbered : s.toKernel.Numbered)
    (htimely : ∀ n, w.timely n = true) : s'.Housed := by
  have hretains := hperformed.step_of.table.retains
  have hregular := regular_settled hcomes (w.order s.clock)
  cases hperformed with
  | dispatch cpuId scheduledThisTick =>
    have hsame := sameMemory_dispatch s cpuId scheduledThisTick
    exact h.same hsame.queue_eq hsame.memory_eq (hretains rfl)
  | step cpuId hget hrun => exact h.stepCpu w _ _
  | @syscall _ cpuId pid call hcall =>
    have hcleared : (s.updateCpu pid fun cpu => { cpu with syscallPending := false }).Housed :=
      h.same rfl rfl (Kernel.Retains.refl _)
    refine housed_handleFileSyscall hcleared hcomes hnumbered htimely ?_ hcall (hretains rfl)
    rintro rfl
    exact hfrugal
  | panic cpuId hcall => exact h.same rfl rfl (hretains rfl)
  | @pageFault cpuId pid cpu hget hpending =>
    -- the page may be mapped anew, as no frame of the process is behind it
    obtain ⟨hpid, hspare⟩ := hfrugal
    have hfaulted := lodged_pageFault (h.lodged (w.order s.clock)) hregular (w.order s.clock)
      (fun _ => hpid) .read (hspare cpu hget)
    apply Housed.request (htimely _)
    simp only [serve, if_true, handleEnvelope_service]
    exact hfaulted
  | settle cpuId pid =>
    have hsame := sameMemory_settle s pid
    exact h.same hsame.queue_eq hsame.memory_eq (hretains rfl)
  | reap cpuId => exact housed_reap h hfrugal
  | fork parent => exact h.fork hcomes hnumbered htimely parent (hretains rfl)
  | exec pid executable args => exact h.exec hcomes htimely hfrugal (hretains rfl)
  | sharedSemaphores =>
    have hcreated : (s.onKernel fun k => (k.handleCreateSemaphore 0 1).handleCreateSemaphore 0 1).Housed :=
      h.same rfl rfl (Kernel.Retains.of_eq rfl)
    apply Housed.request (htimely _)
    -- the shared page gets a frame of process 1, and no page is mapped
    have hkernel := (hcreated.lodged (w.order s.clock)).kernel hregular 1
    rw [LodgedService, serve_allocFrame_manager]
    refine Lodged.store hkernel ?_
    have hmmu : (serve (w.order s.clock) (s.settledMemory (w.order s.clock))
        (.allocFrame 1 0, true)).mmu = (s.settledMemory (w.order s.clock)).mmu :=
      serve_allocFrame_mmu _ _ 1 0
    exact hmmu ▸ SameTables.refl _
  | request req channel => exact housed_request h hretains hfrugal
  | respond channel answer =>
    have hsame := sameMemory_finish s channel answer
    exact h.same hsame.queue_eq hsame.memory_eq (hretains rfl)
  | mapShared frame pids => exact h.mapShared hregular htimely frame (hfrugal frame pids rfl)
  | faultMessage addr accessType =>
    -- the message waits in the queue, to be served with the rest
    refine Housed.of_pending ?_ HashOrder.stored ?_
    · intro msg hmsg
      rcases List.mem_append.1 hmsg with hmsg | hmsg
      · exact h.pending msg hmsg
      · rw [List.mem_singleton.1 hmsg]
        exact .fault addr accessType
    · have hsettled : (s.sendMemory (.pageFaultHandler 0 addr accessType)).settledMemory
          HashOrder.stored = serve HashOrder.stored (s.settledMemory HashOrder.stored)
            (.pageFaultHandler 0 addr accessType, false) := by
        rw [settledMemory, sendMemory, List.foldl_append]
        rfl
      rw [hsettled]
      exact lodged_faultMessage (h.lodged HashOrder.stored) (regular_settled hcomes _) addr accessType _
  | takeRequestId => exact h.same rfl rfl (Kernel.Retains.refl _)

theorem housed_boot (w : World) (size : UInt64) (swapImage : Nat → UInt8) :
    (boot w (bootMemory size swapImage)).Housed := by
  refine Housed.of_nil rfl ?_
  intro pid n hn
  replace hn : (bootMemory size swapImage).memoryManager.Owns pid n := hn
  have hfree : n ∈ (bootMemory size swapImage).memoryManager.allocator.freeQueue := by
    obtain ⟨f, hf, -⟩ := hn
    have hlt := (List.getElem?_eq_some_iff.1 hf).1
    rw [(regular_boot size swapImage).history.fit.exact.length_eq] at hlt
    exact List.mem_range.2 hlt
  exact absurd hn (PhysicalMemoryManager.not_owns_free (regular_boot size swapImage).history.fit.exact hfree)

theorem Machine.Housed.noLeak (h : s.Housed) (hcomes : s.ComesFrom (bootMemory size swapImage))
    (hqueue : s.memoryQueue = []) : NoLeak s := by
  intro frame hframe _ pid howner hpid
  obtain ⟨n, hn⟩ := List.mem_iff_getElem?.1 hframe
  have hlodged := h.lodged HashOrder.stored
  rw [settledMemory_of_nil hqueue] at hlodged
  obtain ⟨hknows, page, entry, hentry, hat⟩ := hlodged pid n ⟨frame, hn, howner⟩ hpid
  have hfit := hcomes.regular.history.fit
  refine ⟨by rwa [Knows, Kernel.stateOf, Option.isSome_map] at hknows, page, entry, hentry, ?_⟩
  rw [hat, hfit.exact.address_eq n frame hn, hfit.frameSize_eq]
  rfl

/-- In a run in which every answer is in time and every transition meets its condition, no frame is lost
in any state in which no message is on its way. -/
theorem run_keeps_frames (w : World) (htimely : ∀ n, w.timely n = true) (size : UInt64)
    (swapImage : Nat → UInt8) (events : List Event)
    (hfrugal : ∀ t ∈ (run w (bootMemory size swapImage) events).2, Frugal w t) {s : Machine}
    (hs : s = (run w (bootMemory size swapImage) events).1 ∨
      ∃ t ∈ (run w (bootMemory size swapImage) events).2, s = t.pre ∨ s = t.post)
    (hqueue : s.memoryQueue = []) : NoLeak s := by
  have htraced := run_traced w (bootMemory size swapImage) events
  have hinv := htraced.chain.invariant
    (I := fun s => s.Housed ∧ s.ComesFrom (bootMemory size swapImage) ∧ s.toKernel.Numbered)
    ⟨housed_boot w size swapImage, touches_forkImpl w (Machine.new _) 0, numbered_boot w _⟩
    fun t ht hpre => by
      have hperformed := htraced.performed t ht
      exact ⟨hperformed.housed (hfrugal t ht) hpre.1 hpre.2.1 hpre.2.2 htimely,
        Touched.trans hpre.2.1 hperformed.touches, hpre.2.2.step hperformed.step_of.table.enrols⟩
  have hall : s.Housed ∧ s.ComesFrom (bootMemory size swapImage) ∧ s.toKernel.Numbered := by
    rcases hs with rfl | ⟨t, ht, rfl | rfl⟩
    · exact hinv.1
    · exact (hinv.2 t ht).1
    · exact (hinv.2 t ht).2
  exact hall.1.noLeak hall.2.1 hqueue

end runs

/-- A process is created and gets the program that exits. -/
def createOne : List Event := [.envelope (.syscall (.createProcess "halt" [])) false]

theorem frameless_of_frames {m : MemoryService} {pid : Pid}
    (h : ∀ f ∈ m.memoryManager.allocator.frames, f.owner ≠ some pid) : Frameless m pid := by
  rintro n ⟨f, hf, howner⟩
  exact h f (List.mem_of_getElem? hf) howner

/-- The service when the new process has no program yet. -/
def forkedOne : Machine :=
  ((boot (World.calm haltCode) (bootMemory 8192 fun _ => 0)).forkImpl (World.calm haltCode) 0).2

theorem execFrugal_forkedOne : ExecFrugal (World.calm haltCode) forkedOne 2 "halt" [] := by
  intro _ code hcode
  have himage : programImage (World.calm haltCode) forkedOne "halt" [] = some haltCode := rfl
  rw [himage] at hcode
  cases hcode
  have hqueue : (forkedOne.settledMemory
      HashOrder.stored).memoryManager.allocator.freeQueue = [0, 1] := by decide +kernel
  refine ⟨frameless_of_frames (by decide +kernel), ?_⟩
  intro _ first hfirst n hn
  have hcount : (haltCode.length + 4095) / 4096 = 1 := by decide
  rw [show (World.calm haltCode).order forkedOne.clock = HashOrder.stored from rfl, hqueue] at hfirst hn
  rw [hcount] at hn ⊢
  have hzero : first = 0 := (Option.some.inj hfirst).symm
  have hn0 : n = 0 := by simpa using hn
  omega

theorem run_keeps_frames_created :
    NoLeak (run (World.calm haltCode) (bootMemory 8192 fun _ => 0) createOne).1 := by
  refine run_keeps_frames (World.calm haltCode) (fun _ => rfl) 8192 (fun _ => 0) createOne ?_
    (Or.inl rfl) (by decide +kernel)
  have htrace : (run (World.calm haltCode) (bootMemory 8192 fun _ => 0) createOne).2 =
      [⟨boot (World.calm haltCode) (bootMemory 8192 fun _ => 0), .fork 0, forkedOne⟩,
        ⟨forkedOne, .exec 2 "halt" [], (forkedOne.execImpl (World.calm haltCode) 2 "halt" []).2⟩,
        ⟨(forkedOne.execImpl (World.calm haltCode) 2 "halt" []).2, .respond none,
          (forkedOne.execImpl (World.calm haltCode) 2 "halt" []).2⟩] := rfl
  intro t ht
  rw [htrace] at ht
  rcases List.mem_cons.1 ht with rfl | ht
  · exact trivial
  rcases List.mem_cons.1 ht with rfl | ht
  · exact execFrugal_forkedOne
  · rw [List.mem_singleton.1 ht]
    exact trivial

/-- Process 1 executes two programs. -/
def execTwice : List Event :=
  [.envelope (.process (.execProcess 1 "halt" [] none)) false,
    .envelope (.process (.execProcess 1 "halt" [] none)) false]

/-- The frame of the first program still belongs to the process, and no page leads to it. -/
theorem exec_loses_frame :
    (run (World.calm haltCode) (bootMemory 8192 fun _ => 0) execTwice).1.memoryQueue = [] ∧
      ¬NoLeak (run (World.calm haltCode) (bootMemory 8192 fun _ => 0) execTwice).1 := by
  refine ⟨by decide +kernel, ?_⟩
  intro hleak
  have hframe : Frame.mk 0 0 4096 true (some 1) ∈ (run (World.calm haltCode) (bootMemory 8192 fun _ => 0)
      execTwice).1.memory.memoryManager.allocator.frames := by decide +kernel
  obtain ⟨-, page, entry, hentry, hat⟩ := hleak _ hframe rfl 1 rfl (by decide)
  have hpages : (run (World.calm haltCode) (bootMemory 8192 fun _ => 0)
      execTwice).1.mmu.getPageEntries HashOrder.stored 1 = [(0, 4096, ⟨true, true, true⟩)] := by
    decide +kernel
  have hmem := (MMU.mem_getPageEntries _ HashOrder.stored 1 page entry.frame entry.flags).2 hentry
  rw [hpages, hat] at hmem
  simp at hmem

end GenshinOs.Process
