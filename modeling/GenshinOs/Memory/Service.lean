import GenshinOs.Hardware.Mmu
import GenshinOs.Lib.Trace
import GenshinOs.Memory.Alloc
import GenshinOs.Memory.Paging
import GenshinOs.Memory.Swap

/-!
# Memory service

The handlers of the memory service (`src/services/memory/service.rs`). Every request has two forms:
one that is answered, and one that is not. A handler yields the new service, the answers it sent
and its result; `handleEnvelope` turns a failure into one more error answer. The page-fault handler
is cut into its stages: swap-in, allocation, eviction.
-/

set_option autoImplicit false

namespace GenshinOs.Memory

open GenshinOs.Lib GenshinOs.Hardware

/-- State of the memory service. The hardware memory is the one behind the MMU. -/
structure MemoryService where
  memoryManager : PhysicalMemoryManager
  pageTables : PageTableManager
  swapManager : SwapManager
  mmu : MMU
  swappedPages : HashMap Pid (HashMap VirtAddr Nat)

/-- An answer on the response channel of a request. -/
abbrev Answer := Except MsgServiceError ResponseData

/-- Outcome of a handler. -/
structure Handled where
  service : MemoryService
  sent : List Answer
  result : Except ServiceError Unit

/-- `{:#x}` of a number. -/
def hex (n : Nat) : String := "0x" ++ String.ofList (Nat.toDigits 16 n)

/-- `{:?}` of an access type. -/
def accessDebug : AccessType → String
  | .read => "Read"
  | .write => "Write"
  | .execute => "Execute"

/-- `{:?}` of an MMU error. -/
def mmuErrorDebug : MMUError → String
  | .pageTableNotFound pid => "PageTableNotFound \x7b pid: " ++ toString pid ++ " \x7d"
  | .pageNotPresent pid vaddr =>
      "PageNotPresent \x7b pid: " ++ toString pid ++ ", vaddr: " ++ toString vaddr.toNat ++ " \x7d"
  | .invalidPhysicalAddress paddr =>
      "InvalidPhysicalAddress \x7b paddr: " ++ toString paddr.toNat ++ " \x7d"
  | .permissionDenied pid vaddr accessType required =>
      "PermissionDenied \x7b pid: " ++ toString pid ++ ", vaddr: " ++ toString vaddr.toNat ++
        ", access_type: " ++ accessDebug accessType ++ ", required: PageFlags \x7b present: " ++
        toString required.present ++ ", writable: " ++ toString required.writable ++
        ", user_accessible: " ++ toString required.userAccessible ++ " \x7d \x7d"

/-- Page of an address: the low twelve bits cleared. -/
def pageBase (addr : VirtAddr) : VirtAddr := addr &&& ~~~(0xFFF : UInt64)

theorem pageBase_eq (addr : VirtAddr) : pageBase addr = PageSize.fourK.alignDown addr := rfl

namespace MemoryService

/-- The service over a memory with its MMU, and a swap disk that nothing is on. -/
def new (memory : PhysicalMemory) (mmu : MMU) (swapDisk : VirtualDisk) : MemoryService where
  memoryManager := PhysicalMemoryManager.new memory.size 4096
  pageTables := PageTableManager.new 4096 256
  swapManager := SwapManager.new SwapConfig.default swapDisk
  mmu := mmu
  swappedPages := ∅

/-- The swap slot that holds a page. -/
def swappedSlot (s : MemoryService) (pid : Pid) (page : VirtAddr) : Option Nat :=
  (s.swappedPages.lookup pid).bind fun pages => pages.lookup page

/-- Note that a page is in a slot. -/
def insertSwapped (s : MemoryService) (pid : Pid) (page : VirtAddr) (slot : Nat) : MemoryService :=
  { s with
    swappedPages := s.swappedPages.insert pid
      (((s.swappedPages.lookup pid).getD ∅).insert page slot) }

/-- Forget it. -/
def removeSwapped (s : MemoryService) (pid : Pid) (page : VirtAddr) : MemoryService :=
  { s with
    swappedPages := s.swappedPages.insert pid
      (((s.swappedPages.lookup pid).getD ∅).erase page) }

theorem insertSwapped_swappedSlot (s : MemoryService) (pid : Pid) (page : VirtAddr) (slot : Nat)
    (q : Pid) (page' : VirtAddr) :
    (s.insertSwapped pid page slot).swappedSlot q page' =
      if q = pid ∧ page' = page then some slot else s.swappedSlot q page' := by
  simp only [swappedSlot, insertSwapped, HashMap.lookup_insert_eq]
  rcases eq_or_ne q pid with rfl | hq
  · simp only [if_true, Option.bind_some, HashMap.lookup_insert_eq, true_and]
    split
    · rfl
    · cases s.swappedPages.lookup q with
      | none => rfl
      | some pages => rfl
  · simp [hq]

theorem removeSwapped_swappedSlot (s : MemoryService) (pid : Pid) (page : VirtAddr) (q : Pid)
    (page' : VirtAddr) :
    (s.removeSwapped pid page).swappedSlot q page' =
      if q = pid ∧ page' = page then none else s.swappedSlot q page' := by
  simp only [swappedSlot, removeSwapped, HashMap.lookup_insert_eq]
  rcases eq_or_ne q pid with rfl | hq
  · simp only [if_true, Option.bind_some, HashMap.lookup_erase_eq, true_and]
    split
    · rfl
    · cases s.swappedPages.lookup q with
      | none => rfl
      | some pages => rfl
  · simp [hq]

/-! ## Frames -/

/-- The error of a request for more frames than there are. -/
def framesExhausted (available requested : Nat) : ServiceError :=
  .resourceExhausted "Physical memory frames" available requested

/-- Frames for a process; those that there were are kept also when they are too few. -/
def handleAllocFrame (s : MemoryService) (count : Nat) (pid : Pid) : Handled :=
  match s.memoryManager.allocateFrames pid count with
  | (frames, manager) =>
    ⟨{ s with memoryManager := manager }, [],
      if frames.length ≠ count then .error (framesExhausted frames.length count) else .ok ()⟩

/-- The same with the address of the first one. -/
def handleAllocFrameWithResponse (s : MemoryService) (count : Nat) (pid : Pid) : Handled :=
  match s.memoryManager.allocateFrames pid count with
  | (frames, manager) =>
    if frames.length ≠ count then
      ⟨{ s with memoryManager := manager },
        [.error (.resourceExhausted "Physical memory frames")],
        .error (framesExhausted frames.length count)⟩
    else
      ⟨{ s with memoryManager := manager },
        [.ok (.physicalAddr ((frames.head?.map Frame.address).getD 0))], .ok ()⟩

/-- A frame goes back, from the list of process 0. -/
def handleFreeFrame (s : MemoryService) (paddr : PhysAddr) : Handled :=
  match s.memoryManager.freeFrame 0 (paddr.toNat / 4096) with
  | (freed, manager) =>
    ⟨{ s with memoryManager := manager }, [],
      if freed then .ok () else .error (.notFound "Frame" (hex paddr.toNat))⟩

/-- The same with an answer. -/
def handleFreeFrameWithResponse (s : MemoryService) (paddr : PhysAddr) : Handled :=
  match s.memoryManager.freeFrame 0 (paddr.toNat / 4096) with
  | (freed, manager) =>
    if freed then ⟨{ s with memoryManager := manager }, [.ok .void], .ok ()⟩
    else
      ⟨{ s with memoryManager := manager }, [.error (.notFound "Frame" (hex paddr.toNat))],
        .error (.notFound "Frame" (hex paddr.toNat))⟩

/-! ## Mappings -/

/-- Map a page in the tables of the service, which the MMU does not read. -/
def handleMapPage (s : MemoryService) (pid : Pid) (virt : VirtAddr) (phys : PhysAddr)
    (prot : MemProt) : Handled :=
  let got : PageTable × PageTableManager :=
    match s.pageTables.getTable pid with
    | some table => (table, s.pageTables)
    | none => s.pageTables.createTable pid
  match got.1.map virt phys prot with
  | .ok table => ⟨{ s with pageTables := got.2.putTable pid table }, [], .ok ()⟩
  | .error (.alreadyMapped vpn) =>
    ⟨{ s with pageTables := got.2 }, [],
      .error (.invalidArguments "virtual_address" ("VPN " ++ toString vpn ++ " already mapped"))⟩
  | .error (.notMapped _) =>
    ⟨{ s with pageTables := got.2 }, [], .error (.other 1 "Page mapping failed")⟩

/-- Unmap a page in the MMU. -/
def handleUnmapPage (s : MemoryService) (pid : Pid) (virt : VirtAddr) : Handled :=
  match s.mmu.unmapPage pid virt with
  | .ok mmu => ⟨{ s with mmu := mmu }, [], .ok ()⟩
  | .error e => ⟨s, [], .error (.other 2 (mmuErrorDebug e))⟩

/-- Map a page in the MMU. -/
def handleMapPageWithResponse (s : MemoryService) (pid : Pid) (virt : VirtAddr) (phys : PhysAddr)
    (prot : MemProt) : Handled :=
  match s.mmu.mapPage pid virt phys (PageFlags.ofProt prot) with
  | .ok mmu => ⟨{ s with mmu := mmu }, [.ok .void], .ok ()⟩
  | .error e =>
    ⟨s, [.error (.other 1 (mmuErrorDebug e))], .error (.other 1 (mmuErrorDebug e))⟩

/-- Unmap a page in the MMU, with an answer. -/
def handleUnmapPageWithResponse (s : MemoryService) (pid : Pid) (virt : VirtAddr) : Handled :=
  match s.mmu.unmapPage pid virt with
  | .ok mmu => ⟨{ s with mmu := mmu }, [.ok .void], .ok ()⟩
  | .error e =>
    ⟨s, [.error (.other 2 (mmuErrorDebug e))], .error (.other 2 (mmuErrorDebug e))⟩

/-! ## Page faults -/

/-- Protection of a page that a fire-and-forget fault maps. -/
def faultProt : AccessType → MemProt
  | .read => MemProt.readOnly
  | .write => MemProt.readWrite
  | .execute => MemProt.execute

/-- A fault in the tables of the service: a page that is not there is mapped. -/
def handlePageFault (s : MemoryService) (pid : Pid) (faultingAddr : VirtAddr)
    (accessType : AccessType) : Handled :=
  match s.pageTables.getTable pid with
  | none => ⟨s, [], .error (.notFound "Page table" (toString pid))⟩
  | some table =>
    if ((table.lookup faultingAddr).map TableEntry.isPresent).getD false then
      ⟨s, [], .error (.permissionDenied (accessDebug accessType) "Access permission denied")⟩
    else
      match s.memoryManager.allocateFrames pid 1 with
      | ([], manager) =>
        if s.swapManager.enabled = false ∨ s.swapManager.hasSpace = false then
          ⟨{ s with memoryManager := manager }, [], .error (.resourceExhausted "Memory" 0 1)⟩
        else ⟨{ s with memoryManager := manager }, [], .ok ()⟩
      | (frame :: _, manager) =>
        handleMapPage { s with memoryManager := manager } pid faultingAddr frame.address
          (faultProt accessType)

/-- The page to evict: one of another process if there is any, else the first present page. -/
def findVictimPage (s : MemoryService) (ord : HashOrder) (excludePid : Pid) :
    Option (Pid × VirtAddr × PhysAddr) :=
  let pages := s.mmu.allPresentPages ord
  match pages.find? fun page => page.1 != excludePid with
  | some page => some page
  | none => pages.head?

/-- Map a frame for a faulting page and answer with its address. -/
def installFrame (s : MemoryService) (pid : Pid) (page : VirtAddr) (frame : Frame) : Handled :=
  match s.mmu.mapPage pid page frame.address PageFlags.presentWritable with
  | .ok mmu => ⟨{ s with mmu := mmu }, [.ok (.physicalAddr frame.address)], .ok ()⟩
  | .error e => ⟨s, [], .error (.other 70 (mmuErrorDebug e))⟩

/-- The fault cannot be served. -/
def faultExhausted (s : MemoryService) : Handled :=
  ⟨s, [.error (.resourceExhausted "frames")], .error (.resourceExhausted "frames" 0 1)⟩

/-- The bytes of a page as the process reads them, `0` where a read fails. -/
def pageData (m : MMU) (pid : Pid) (page : VirtAddr) : List UInt8 :=
  (List.range 4096).map fun i =>
    match m.readU8 pid (page + UInt64.ofNat i) with
    | .ok b => b
    | .error _ => 0

/-- Unmap, ignoring a failure. -/
def unmapLossy (m : MMU) (pid : Pid) (vaddr : VirtAddr) : MMU :=
  match m.unmapPage pid vaddr with
  | .ok m' => m'
  | .error _ => m

/-- The victim leaves memory: its page is unmapped, its frame freed, its slot recorded. -/
def releaseVictim (s : MemoryService) (vpid : Pid) (vaddr : VirtAddr) (vframe : PhysAddr)
    (slot : Nat) : MemoryService :=
  let freed := s.memoryManager.freeFrame vpid (vframe.toNat / 4096)
  insertSwapped { s with mmu := unmapLossy s.mmu vpid vaddr, memoryManager := freed.2 }
    vpid vaddr slot

/-- Third stage: write a victim to swap, free its frame and try once more. -/
def evictAndInstall (s : MemoryService) (ord : HashOrder) (pid : Pid) (page : VirtAddr) :
    Handled :=
  match s.findVictimPage ord pid with
  | none => faultExhausted s
  | some (vpid, vaddr, vframe) =>
    match s.swapManager.allocateSlot vpid (vaddr.toNat / 4096) with
    | (none, swap) => faultExhausted { s with swapManager := swap }
    | (some slot, swap) =>
      match swap.swapOut slot.number (pageData s.mmu vpid vaddr) with
      | (.error _, swap') => faultExhausted { s with swapManager := swap' }
      | (.ok (), swap') =>
        let released := releaseVictim { s with swapManager := swap' } vpid vaddr vframe slot.number
        match released.memoryManager.allocateFrames pid 1 with
        | ([], manager) => faultExhausted { released with memoryManager := manager }
        | (frame :: _, manager) =>
          installFrame { released with memoryManager := manager } pid page frame

/-- Second stage: a free frame, if there is one. -/
def allocateOrEvict (s : MemoryService) (ord : HashOrder) (pid : Pid) (page : VirtAddr) :
    Handled :=
  match s.memoryManager.allocateFrames pid 1 with
  | (frame :: _, manager) => installFrame { s with memoryManager := manager } pid page frame
  | ([], manager) => evictAndInstall { s with memoryManager := manager } ord pid page

/-- Map, ignoring a failure. -/
def mapLossy (m : MMU) (pid : Pid) (vaddr : VirtAddr) (paddr : PhysAddr) (flags : PageFlags) :
    MMU :=
  match m.mapPage pid vaddr paddr flags with
  | .ok m' => m'
  | .error _ => m

theorem mapLossy_spec (m : MMU) (pid : Pid) (vaddr : VirtAddr) (paddr : PhysAddr)
    (flags : PageFlags) :
    (mapLossy m pid vaddr paddr flags).memory = m.memory ∧
      (mapLossy m pid vaddr paddr flags).pageSize = m.pageSize ∧
      ∀ q page, (mapLossy m pid vaddr paddr flags).mapped q page =
        if q = pid ∧ page = m.alignDown vaddr then some ⟨m.alignDown paddr, flags⟩
        else m.mapped q page := by
  obtain ⟨m', hok, hspec⟩ := m.mapPage_ok pid vaddr paddr flags
  simp only [mapLossy, hok]
  exact hspec

theorem unmapLossy_spec {m : MMU} {pid : Pid} {page : VirtAddr} {entry : PageTableEntry}
    (h : m.mapped pid page = some entry) (vaddr : VirtAddr) :
    (unmapLossy m pid vaddr).memory = m.memory ∧ (unmapLossy m pid vaddr).pageSize = m.pageSize ∧
      ∀ q page', (unmapLossy m pid vaddr).mapped q page' =
        if q = pid ∧ page' = m.alignDown vaddr then none else m.mapped q page' := by
  obtain ⟨table, ht, -⟩ := Option.bind_eq_some_iff.1 h
  have hok : ∃ m', m.unmapPage pid vaddr = .ok m' := by simp [MMU.unmapPage, ht]
  obtain ⟨m', hok⟩ := hok
  simp only [unmapLossy, hok]
  exact MMU.unmapPage_mapped hok

/-- Installing a frame always succeeds: a mapping request never fails. -/
theorem installFrame_eq (s : MemoryService) (pid : Pid) (page : VirtAddr) (frame : Frame) :
    s.installFrame pid page frame =
      ⟨{ s with mmu := mapLossy s.mmu pid page frame.address PageFlags.presentWritable },
        [.ok (.physicalAddr frame.address)], .ok ()⟩ := rfl

/-- The page comes back: map the frame, copy the bytes, forget the slot. -/
def restorePage (s : MemoryService) (pid : Pid) (page : VirtAddr) (slot : Nat)
    (data : List UInt8) (frame : Frame) : MemoryService :=
  let mmu := (mapLossy s.mmu pid page frame.address PageFlags.presentWritable).writeBytes
    pid page data
  let removed := removeSwapped { s with mmu := mmu } pid page
  { removed with swapManager := (s.swapManager.freeSlot slot).2 }

/-- A fault: a page in swap comes back if there is a frame. Else the page gets a free frame,
or that of a page which is evicted. -/
def handlePageFaultWithResponse (s : MemoryService) (ord : HashOrder) (pid : Pid)
    (faultingAddr : VirtAddr) (_accessType : AccessType) : Handled :=
  let page := pageBase faultingAddr
  match s.swappedSlot pid page with
  | none => allocateOrEvict s ord pid page
  | some slot =>
    match s.swapManager.swapIn slot with
    | .error e => ⟨s, [.error (.other 80 e)], .ok ()⟩
    | .ok data =>
      match s.memoryManager.allocateFrames pid 1 with
      | (frame :: _, manager) =>
        ⟨restorePage { s with memoryManager := manager } pid page slot data frame,
          [.ok (.physicalAddr frame.address)], .ok ()⟩
      | ([], manager) => allocateOrEvict { s with memoryManager := manager } ord pid page

/-! ## Explicit swapping -/

/-- Take a slot for a page, without its bytes. -/
def handleSwapOut (s : MemoryService) (pid : Pid) (virt : VirtAddr) : Handled :=
  if s.swapManager.enabled = false then ⟨s, [], .error (.notImplemented "Swap")⟩
  else
    match s.swapManager.allocateSlot pid (virt.toNat / 4096) with
    | (none, swap) => ⟨{ s with swapManager := swap }, [], .error (.resourceExhausted "Swap space" 0 1)⟩
    | (some _, swap) => ⟨{ s with swapManager := swap }, [], .ok ()⟩

/-- The page of bytes at a physical address, zeros when it cannot be read. -/
def frameData (m : MMU) (pid : Pid) (virt : VirtAddr) : List UInt8 :=
  match m.translate pid virt .read with
  | .error _ => List.replicate 4096 0
  | .ok paddr =>
    match m.memory.readSlice paddr.toNat 4096 with
    | .ok data => data
    | .error _ => List.replicate 4096 0

/-- Write the bytes of a page to a slot. -/
def handleSwapOutWithResponse (s : MemoryService) (pid : Pid) (virt : VirtAddr) : Handled :=
  if s.swapManager.enabled = false then
    ⟨s, [.error (.notImplemented "Swap")], .error (.notImplemented "Swap")⟩
  else
    match s.swapManager.allocateSlot pid (virt.toNat / 4096) with
    | (none, swap) =>
      ⟨{ s with swapManager := swap }, [.error (.resourceExhausted "Swap space")],
        .error (.resourceExhausted "Swap space" 0 1)⟩
    | (some slot, swap) =>
      match swap.swapOut slot.number (frameData s.mmu pid virt) with
      | (.error e, swap') =>
        ⟨{ s with swapManager := swap' }, [.error (.other 81 e)],
          .error (.other 81 "swap_out failed")⟩
      | (.ok (), swap') =>
        ⟨{ s with swapManager := swap' }, [.ok (.integer (UInt64.ofNat slot.number))], .ok ()⟩

/-- The slot of a process that was given out for a virtual page. -/
def slotOfPage (s : MemoryService) (pid : Pid) (vpn : Nat) : Option SwapSlot :=
  (s.swapManager.getProcessSlots pid).find? fun slot => slot.vpn == some vpn

/-- Give back the slot of a page. -/
def handleSwapIn (s : MemoryService) (pid : Pid) (virt : VirtAddr) : Handled :=
  let vpn := virt.toNat / 4096
  match s.slotOfPage pid vpn with
  | none => ⟨s, [], .error (.notFound "Swap slot" ("VPN " ++ toString vpn))⟩
  | some slot => ⟨{ s with swapManager := (s.swapManager.freeSlot slot.number).2 }, [], .ok ()⟩

/-- Read the bytes of a page from its slot, which is given back. -/
def handleSwapInWithResponse (s : MemoryService) (pid : Pid) (virt : VirtAddr) : Handled :=
  let vpn := virt.toNat / 4096
  match s.slotOfPage pid vpn with
  | none =>
    ⟨s, [.error (.notFound "Swap slot" ("VPN " ++ toString vpn))],
      .error (.notFound "Swap slot" ("VPN " ++ toString vpn))⟩
  | some slot =>
    let swap := (s.swapManager.freeSlot slot.number).2
    match swap.swapIn slot.number with
    | .error e =>
      ⟨{ s with swapManager := swap }, [.error (.other 84 e)], .error (.other 84 "swap_in failed")⟩
    | .ok data =>
      match s.mmu.translate pid virt .write with
      | .error _ => ⟨{ s with swapManager := swap }, [.ok .void], .ok ()⟩
      | .ok paddr =>
        match s.mmu.memory.writeSlice paddr.toNat data with
        | .error _ => ⟨{ s with swapManager := swap }, [], .error (.other 83 "write")⟩
        | .ok memory =>
          ⟨{ s with swapManager := swap, mmu := { s.mmu with memory := memory } }, [.ok .void],
            .ok ()⟩

/-! ## Dispatch -/

/-- Requests that nobody waits for. -/
def handleMemoryRequest (s : MemoryService) : MemoryRequest → Handled
  | .allocFrame count pid => s.handleAllocFrame count pid
  | .freeFrame paddr => s.handleFreeFrame paddr
  | .mapPage pid virt phys prot => s.handleMapPage pid virt phys prot
  | .unmapPage pid virt => s.handleUnmapPage pid virt
  | .pageFaultHandler pid faultingAddr accessType => s.handlePageFault pid faultingAddr accessType
  | .swapOut pid virt => s.handleSwapOut pid virt
  | .swapIn pid virt => s.handleSwapIn pid virt
  | .getStats => ⟨s, [], .ok ()⟩
  | .getFrameMap => ⟨s, [], .ok ()⟩

/-- Requests with a response channel. -/
def handleMemoryRequestWithResponse (s : MemoryService) (ord : HashOrder) :
    MemoryRequest → Handled
  | .allocFrame count pid => s.handleAllocFrameWithResponse count pid
  | .freeFrame paddr => s.handleFreeFrameWithResponse paddr
  | .mapPage pid virt phys prot => s.handleMapPageWithResponse pid virt phys prot
  | .unmapPage pid virt => s.handleUnmapPageWithResponse pid virt
  | .pageFaultHandler pid faultingAddr accessType =>
      s.handlePageFaultWithResponse ord pid faultingAddr accessType
  | .swapOut pid virt => s.handleSwapOutWithResponse pid virt
  | .swapIn pid virt => s.handleSwapInWithResponse pid virt
  | .getStats =>
      let a := s.memoryManager.allocator
      ⟨s, [.ok (.memoryStats a.totalFrames (a.totalFrames - a.freeCount) a.freeCount)], .ok ()⟩
  | .getFrameMap => ⟨s, [.ok (.frameMap s.memoryManager.allocator.frameOwners)], .ok ()⟩

/-- A request that expects an answer: a failure of the handler is answered once more. -/
def handleEnvelope (s : MemoryService) (ord : HashOrder) (req : MemoryRequest) :
    MemoryService × List Answer :=
  let handled := s.handleMemoryRequestWithResponse ord req
  match handled.result with
  | .ok () => (handled.service, handled.sent)
  | .error e => (handled.service, handled.sent ++ [.error (.other 1 e.display)])

/-- A request without a response channel. -/
def handleMessage (s : MemoryService) (req : MemoryRequest) : MemoryService :=
  (s.handleMemoryRequest req).service

end MemoryService

theorem handleEnvelope_service (s : MemoryService) (ord : HashOrder) (req : MemoryRequest) :
    (s.handleEnvelope ord req).1 = (s.handleMemoryRequestWithResponse ord req).service := by
  simp only [MemoryService.handleEnvelope]
  split <;> rfl

/-! ## Runs of the service -/

/-- A request as the main loop takes it from the channel: with or without a response channel, and
with the hash order that its handler happens to see. -/
structure MemoryEvent where
  ord : HashOrder
  req : MemoryRequest
  answered : Bool

/-- The service handles one request. -/
def MemoryService.take (s : MemoryService) (e : MemoryEvent) : MemoryService :=
  if e.answered then (s.handleEnvelope e.ord e.req).1 else s.handleMessage e.req

/-- The request with its transition recorded. -/
def memoryTransition (s : MemoryService) (e : MemoryEvent) :
    MemoryService × List (Transition MemoryService MemoryEvent) :=
  (s.take e, [⟨s, e, s.take e⟩])

/-- What the requests of a run keep holds at its end and around each of them. -/
theorem memoryTrace_invariant {I : MemoryService → Prop} {s : MemoryService} (h : I s)
    (events : List MemoryEvent)
    (hkeep : ∀ t ∈ (runTrace memoryTransition s events).2, I t.pre → I (t.pre.take t.act)) :
    I (runTrace memoryTransition s events).1 ∧
      ∀ t ∈ (runTrace memoryTransition s events).2, I t.pre ∧ I t.post :=
  runTrace_single_invariant (fun _ _ => rfl) h events hkeep

/-- A machine with `size` bytes of memory, empty tables and a swap disk of 256 sectors. -/
def bootMemory (size : UInt64) (swapImage : Nat → UInt8) : MemoryService :=
  MemoryService.new (PhysicalMemory.new size.toNat)
    (MMU.new (PhysicalMemory.new size.toNat) PageSize.fourK) ⟨swapImage, 256⟩

/-- The same machine with the lists of slots built from the front, so that its first slots can be
evaluated without the others. -/
theorem bootMemory_eq (size : UInt64) (swapImage : Nat → UInt8) :
    bootMemory size swapImage = { bootMemory size swapImage with
      swapManager := { (bootMemory size swapImage).swapManager with
        slots := (List.range' 0 262144).map fun i => SwapSlot.new i 4096
        freeQueue := List.range' 0 262144 } } := by
  rw [← List.range_eq_range']
  rfl

end GenshinOs.Memory
