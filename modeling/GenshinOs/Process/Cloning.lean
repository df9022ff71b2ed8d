import GenshinOs.Process.Loading
import GenshinOs.Process.Numbers

/-!
# Cloning a process

Fork gives the child a frame, a mapping and a copy for each page of the parent, one page after the other
and each with requests of its own. A page for which there is no frame is left out, a mapping that is late
is copied before it is there, and an answer that does not come leaves the child half-built.
`fork_clones_iff` says when the child is a copy of the parent, and when a fork that fails has changed
nothing.
-/

set_option autoImplicit false

namespace GenshinOs.Process

open GenshinOs.Lib GenshinOs.Hardware GenshinOs.Memory

/-! ## Reads and writes of a page -/

section page

variable {size : UInt64} {manager : PhysicalMemoryManager} {m : MMU}

/-- A byte is in memory when its address is below the size. -/
theorem Regular.inBounds_iff (h : Regular size manager m) (a : Nat) :
    m.memory.InBounds a 1 ↔ a < size.toNat :=
  Span.inBounds_iff size.toNat_lt_size h.size_eq a

/-- What a process reads: the byte of the frame behind the page, if there is one. -/
theorem Regular.readU8_toOption (h : Regular size manager m) (pid : Pid) (v : VirtAddr) :
    (m.readU8 pid v).toOption = (m.mapped pid (pageBase v)).bind fun entry =>
      if entry.frame.toNat + v.toNat % 4096 < size.toNat
      then some (m.memory.data (entry.frame.toNat + v.toNat % 4096)) else none := by
  cases hmap : m.mapped pid (pageBase v) with
  | none =>
    cases hread : m.readU8 pid v with
    | error e => rfl
    | ok b =>
      obtain ⟨paddr, htrans, -⟩ := (m.readU8_eq_ok_iff pid v b).1 hread
      obtain ⟨entry, hentry, -, -⟩ := (m.translate_read_eq_ok_iff pid v paddr).1 htrans
      rw [h.alignDown_eq, hmap] at hentry
      cases hentry
  | some entry =>
    obtain ⟨-, hframe, hpresent⟩ := h.entry_ok pid _ entry hmap
    rw [← h.alignDown_eq] at hmap hframe
    have hiff := MMU.readU8_of_mapped hmap hpresent hframe
    rw [h.pageSize_eq] at hiff
    replace hiff : ∀ b, m.readU8 pid v = .ok b ↔
        m.memory.InBounds (entry.frame.toNat + v.toNat % 4096) 1 ∧
          m.memory.data (entry.frame.toNat + v.toNat % 4096) = b := hiff
    simp only [h.inBounds_iff] at hiff
    rw [Option.bind_some]
    split
    · next hlt => rw [(hiff _).2 ⟨hlt, rfl⟩]; rfl
    · next hge =>
      cases hread : m.readU8 pid v with
      | error e => rfl
      | ok b => exact absurd ((hiff b).1 hread).1 hge

/-- The address of a byte of a page. -/
theorem page_offset {page : VirtAddr} (hpage : pageBase page = page) {o : Nat} (ho : o < 4096) :
    pageBase (page + UInt64.ofNat o) = page ∧ (page + UInt64.ofNat o).toNat % 4096 = o := by
  have hnat : (UInt64.ofNat o).toNat = o := UInt64.toNat_ofNat_of_lt' (Nat.lt_trans ho (by decide))
  have hmod : page.toNat % 4096 = 0 := frame_mod hpage
  have hadd : (page + UInt64.ofNat o).toNat = page.toNat + o := by
    rw [PageSize.fourK.toNat_page_add hmod PageSize.fourK.shift_le (by rw [hnat]; exact ho), hnat]
  refine ⟨PageSize.fourK.alignDown_page_add hpage (by rw [hnat]; exact ho), ?_⟩
  rw [hadd]
  omega

/-- A byte of the copy. -/
def copyByte (fromPid toPid : Pid) (vaddr : VirtAddr) (m : MMU) (o : Nat) : MMU :=
  match m.readU8 fromPid (vaddr + UInt64.ofNat o) with
  | .ok b => m.writeU8Lossy toPid (vaddr + UInt64.ofNat o) b
  | .error _ => m

/-- A byte that is copied leaves the tables. -/
theorem sameTables_copyByte (m : MMU) (fromPid toPid : Pid) (vaddr : VirtAddr) (o : Nat) :
    SameTables m (copyByte fromPid toPid vaddr m o) := by
  rw [copyByte]
  split
  · exact sameTables_writeU8Lossy m toPid _ _
  · exact SameTables.refl m

/-- Two frames in memory that hold the same page of two processes. -/
structure Paired (m : MMU) (size : UInt64) (fromPid toPid : Pid) (page : VirtAddr)
    (source target : PhysAddr) : Prop where
  source_mapped : ∃ flags, m.mapped fromPid page = some ⟨source, flags⟩
  target_mapped : ∃ flags, m.mapped toPid page = some ⟨target, flags⟩ ∧ flags.writable = true
  source_le : source.toNat + 4096 ≤ size.toNat
  target_le : target.toNat + 4096 ≤ size.toNat

/-- Stores leave the two frames where they are. -/
theorem Paired.store {m m' : MMU} {fromPid toPid : Pid} {page : VirtAddr} {source target : PhysAddr}
    (h : Paired m size fromPid toPid page source target) (hsame : SameTables m m') :
    Paired m' size fromPid toPid page source target := by
  refine ⟨?_, ?_, h.source_le, h.target_le⟩
  · rw [hsame.mapped_eq]
    exact h.source_mapped
  · rw [hsame.mapped_eq]
    exact h.target_mapped

/-- One byte goes from frame to frame. -/
theorem copyByte_data (h : Regular size manager m) {fromPid toPid : Pid} {page : VirtAddr}
    {source target : PhysAddr} (hpair : Paired m size fromPid toPid page source target) {o : Nat}
    (ho : o < 4096) (a : Nat) :
    (copyByte fromPid toPid page m o).memory.data a =
      if a = target.toNat + o then m.memory.data (source.toNat + o) else m.memory.data a := by
  obtain ⟨fromFlags, hsource⟩ := hpair.source_mapped
  obtain ⟨toFlags, htarget, hwritable⟩ := hpair.target_mapped
  obtain ⟨hpage, -, -⟩ := h.entry_ok fromPid page _ hsource
  obtain ⟨-, hframe, hpresent⟩ := h.entry_ok toPid page _ htarget
  obtain ⟨hbase, hoff⟩ := page_offset hpage ho
  have hread := h.readU8_toOption fromPid (page + UInt64.ofNat o)
  have hlt : source.toNat + o < size.toNat := Nat.lt_of_lt_of_le (Nat.add_lt_add_left ho _) hpair.source_le
  rw [hbase, hoff, hsource, Option.bind_some, if_pos hlt] at hread
  -- the byte is read through the page of the parent
  have hok : m.readU8 fromPid (page + UInt64.ofNat o) = .ok (m.memory.data (source.toNat + o)) := by
    cases hcase : m.readU8 fromPid (page + UInt64.ofNat o) with
    | error e =>
      rw [hcase] at hread
      cases hread
    | ok b =>
      rw [hcase] at hread
      rw [Option.some.inj hread]
  have hbound : m.memory.InBounds (target.toNat + o) 1 :=
    (h.inBounds_iff _).2 (Nat.lt_of_lt_of_le (Nat.add_lt_add_left ho _) hpair.target_le)
  have hmapped : m.mapped toPid (m.alignDown (page + UInt64.ofNat o)) = some ⟨target, toFlags⟩ := by
    rw [h.alignDown_eq, hbase]
    exact htarget
  -- and is written through the page of the child
  have hwrite := MMU.writeU8Lossy_of_mapped hmapped hpresent hwritable
    (by rw [h.alignDown_eq]; exact hframe)
    (by rw [h.pageSize_eq]; show m.memory.InBounds (_ + _ % 4096) 1; rw [hoff]; exact hbound)
    (m.memory.data (source.toNat + o))
  have hdata := congrArg (fun m' => m'.memory.data a) hwrite
  rw [copyByte, hok]
  simp only [h.pageSize_eq, PhysicalMemory.store_data] at hdata
  replace hdata : _ = if a = target.toNat + (page + UInt64.ofNat o).toNat % 4096
    then m.memory.data (source.toNat + o) else m.memory.data a := hdata
  rwa [hoff] at hdata

/-- After `k` bytes of a copy between different frames. -/
theorem copyBytes_data (h : Regular size manager m) {fromPid toPid : Pid} {page : VirtAddr}
    {source target : PhysAddr} (hpair : Paired m size fromPid toPid page source target)
    (hne : source ≠ target) {k : Nat} (hk : k ≤ 4096) :
    SameTables m ((List.range k).foldl (copyByte fromPid toPid page) m) ∧
      ∀ a, ((List.range k).foldl (copyByte fromPid toPid page) m).memory.data a =
        if target.toNat ≤ a ∧ a < target.toNat + k
        then m.memory.data (source.toNat + (a - target.toNat)) else m.memory.data a := by
  -- the two frames do not overlap
  obtain ⟨fromFlags, hsource⟩ := hpair.source_mapped
  obtain ⟨toFlags, htarget, -⟩ := hpair.target_mapped
  have hsourceMod : source.toNat % 4096 = 0 := frame_mod (h.entry_ok fromPid page _ hsource).2.1
  have htargetMod : target.toNat % 4096 = 0 := frame_mod (h.entry_ok toPid page _ htarget).2.1
  have hneNat : source.toNat ≠ target.toNat := fun heq => hne (UInt64.toNat_inj.1 heq)
  induction k with
  | zero =>
    refine ⟨SameTables.refl m, ?_⟩
    intro a
    rw [if_neg (by omega)]
    rfl
  | succ k ih =>
    obtain ⟨hsame, hdata⟩ := ih (by omega)
    rw [List.range_succ, List.foldl_append, List.foldl_cons, List.foldl_nil]
    refine ⟨hsame.trans (sameTables_copyByte _ fromPid toPid page k), ?_⟩
    intro a
    rw [copyByte_data (h.store hsame) (hpair.store hsame) (by omega), hdata, hdata]
    rcases Nat.lt_trichotomy a (target.toNat + k) with hlt | heq | hgt
    · rw [if_neg (by omega)]
      by_cases hin : target.toNat ≤ a
      · rw [if_pos (by omega), if_pos (by omega)]
      · rw [if_neg (by omega), if_neg (by omega)]
    · rw [if_pos heq, if_neg (by omega), if_pos (by omega), heq, Nat.add_sub_cancel_left]
    · rw [if_neg (by omega), if_neg (by omega), if_neg (by omega)]

/-- A page is copied byte by byte. -/
theorem copyPage_eq (m : MMU) (fromPid toPid : Pid) (page : VirtAddr) :
    Machine.copyPage m fromPid toPid page = (List.range 4096).foldl (copyByte fromPid toPid page) m := by
  rw [Machine.copyPage]
  congr 1

/-- A page is copied from frame to frame. -/
theorem copyPage_data (h : Regular size manager m) {fromPid toPid : Pid} {page : VirtAddr}
    {source target : PhysAddr} (hpair : Paired m size fromPid toPid page source target)
    (hne : source ≠ target) (a : Nat) :
    (Machine.copyPage m fromPid toPid page).memory.data a =
      if target.toNat ≤ a ∧ a < target.toNat + 4096
      then m.memory.data (source.toNat + (a - target.toNat)) else m.memory.data a := by
  rw [copyPage_eq]
  exact (copyBytes_data h hpair hne (Nat.le_refl _)).2 a

/-- Nothing is copied to a page that is not there. -/
theorem copyPage_unmapped (h : Regular size manager m) (fromPid : Pid) {toPid : Pid} {page : VirtAddr}
    (hpage : pageBase page = page) (hnone : m.mapped toPid page = none) :
    Machine.copyPage m fromPid toPid page = m := by
  have hbytes : ∀ k ≤ 4096, (List.range k).foldl (copyByte fromPid toPid page) m = m := by
    intro k hk
    induction k with
    | zero => rfl
    | succ k ih =>
      rw [List.range_succ, List.foldl_append, ih (by omega), List.foldl_cons, List.foldl_nil, copyByte]
      split
      · next b _ =>
        rcases m.writeU8Lossy_cases toPid (page + UInt64.ofNat k) b with heq | hok
        · exact heq
        · obtain ⟨paddr, htrans, -, -⟩ := MMU.writeU8_eq_ok hok
          obtain ⟨entry, hentry, -, -, -⟩ := (m.translate_write_eq_ok_iff toPid _ paddr).1 htrans
          rw [h.alignDown_eq, (page_offset hpage (by omega)).1, hnone] at hentry
          cases hentry
      · rfl
  rw [copyPage_eq]
  exact hbytes 4096 (Nat.le_refl _)

end page

-- from here on the copy is known by `copyPage_data` only; unfolding it would run its 4096 rounds
attribute [local irreducible] Machine.copyPage

/-! ## The loop over the pages -/

/-- A page that gets a frame, and whether its mapping is answered in time. -/
structure PageGrant where
  page : VirtAddr
  number : Nat
  inTime : Bool
  deriving DecidableEq

/-- The pages that get a frame: the first ones, as long as there are frames. -/
def grants (w : World) : Nat → List VirtAddr → List Nat → List PageGrant
  | clock, page :: pages, number :: queue =>
    ⟨page, number, w.timely (clock + 1)⟩ :: grants w (clock + 2) pages queue
  | _, _, _ => []

/-- Every request for a frame is answered in time, with a frame or without one. -/
def answered (w : World) : Nat → List VirtAddr → List Nat → Bool
  | _, [], _ => true
  | clock, _ :: pages, [] => w.timely clock && answered w (clock + 1) pages []
  | clock, _ :: pages, _ :: queue => w.timely clock && answered w (clock + 2) pages queue

/-- As many pages get a frame as there are frames, -/
theorem grants_pages (w : World) (clock : Nat) (pages : List VirtAddr) (queue : List Nat) :
    (grants w clock pages queue).map PageGrant.page = pages.take queue.length := by
  induction queue generalizing clock pages with
  | nil => cases pages <;> rfl
  | cons number queue ih =>
    cases pages with
    | nil => rfl
    | cons page pages =>
      rw [grants, List.map_cons, ih, List.length_cons, List.take_succ_cons]

/-- in the order of the queue. -/
theorem grants_numbers (w : World) (clock : Nat) (pages : List VirtAddr) (queue : List Nat) :
    (grants w clock pages queue).map PageGrant.number = queue.take pages.length := by
  induction queue generalizing clock pages with
  | nil => cases pages <;> rfl
  | cons number queue ih =>
    cases pages with
    | nil => rfl
    | cons page pages =>
      rw [grants, List.map_cons, ih, List.length_cons, List.take_succ_cons]

namespace Machine

/-- The service with the first free frame given to a process, if there is one. -/
def takeFrame (m : MemoryService) (pid : Pid) : MemoryService :=
  { m with memoryManager := (m.memoryManager.allocateFrames pid 1).2 }

/-- A page is copied from the parent to the child. -/
def copyInto (m : MemoryService) (parent child : Pid) (page : VirtAddr) : MemoryService :=
  { m with mmu := copyPage m.mmu parent child page }

/-- The copy changes the memory of the MMU only. -/
theorem copyInto_mmu (m : MemoryService) (parent child : Pid) (page : VirtAddr) :
    (copyInto m parent child page).mmu = copyPage m.mmu parent child page := rfl

/-- A page of the child: the copy is made before the mapping when that is late. -/
def clonePage (parent child : Pid) (m : MemoryService) (g : PageGrant) : MemoryService :=
  if g.inTime then
    copyInto (mapInto (takeFrame m child) child g.page (frameAddress g.number)) parent child g.page
  else mapInto (copyInto (takeFrame m child) parent child g.page) child g.page (frameAddress g.number)

/-- A request for one frame takes one frame. -/
theorem serve_allocFrame_one (ord : HashOrder) (m : MemoryService) (pid : Pid) :
    serve ord m (.allocFrame 1 pid, true) = takeFrame m pid := by
  simp only [serve, if_true, MemoryService.handleEnvelope,
    MemoryService.handleMemoryRequestWithResponse, MemoryService.handleAllocFrameWithResponse]
  split
  · split <;> rfl
  · split <;> rfl

/-- What a process gets from a queue that is not empty. -/
structure Taken (m : PhysicalMemoryManager) (pid : Pid) (number : Nat) (queue : List Nat)
    (m' : PhysicalMemoryManager) : Prop where
  answer : ∃ frame : Frame, m.allocateFrames pid 1 = ([frame], m') ∧ frame.address = frameAddress number
  queue_eq : m'.allocator.freeQueue = queue
  owned : ∃ frame, m'.allocator.frames[number]? = some frame ∧ frame.owner = some pid
  others : ∀ n, n ≠ number → m'.allocator.frames[n]? = m.allocator.frames[n]?

/-- It is the first of the queue. -/
theorem takeFrame_spec {size : UInt64} {m : PhysicalMemoryManager} (hfit : FramesFit size m) (pid : Pid)
    {number : Nat} {queue : List Nat} (hqueue : m.allocator.freeQueue = number :: queue) :
    Taken m pid number queue (m.allocateFrames pid 1).2 := by
  obtain ⟨granted, m', halloc, hgrant⟩ :=
    PhysicalMemoryManager.allocateFrames_grant hfit.exact pid
      (show 1 ≤ m.allocator.freeQueue.length by rw [hqueue]; simp)
  have hnumbers := hgrant.numbers
  have hrest := hgrant.queue
  have hothers := hgrant.others
  rw [hqueue] at hnumbers hrest hothers
  obtain ⟨frame, rfl, hnumber⟩ : ∃ frame, granted = [frame] ∧ frame.number = number := by
    simpa [List.map_eq_cons_iff] using hnumbers
  obtain ⟨hat, -, howner⟩ := hgrant.owned frame List.mem_cons_self
  rw [hnumber] at hat
  have haddress := hgrant.exact.address_eq number frame hat
  rw [hgrant.frameSize_eq, hfit.frameSize_eq] at haddress
  rw [halloc]
  refine ⟨⟨frame, halloc, haddress⟩, hrest, ⟨frame, hat, howner⟩, ?_⟩
  intro n hn
  apply hothers
  simpa using hn

section requests

variable {w : World} {s : Machine} {m : MemoryService} {size : UInt64}

/-- The answer names the first free frame, when it is in time, -/
theorem requestFrame_granted (hregular : RegularService size m)
    (hnow : s.settledMemory (w.order s.clock) = m) (htimely : w.timely s.clock = true) (pid : Pid)
    {number : Nat} {queue : List Nat} (hqueue : m.memoryManager.allocator.freeQueue = number :: queue) :
    s.requestMemory w (.allocFrame 1 pid) =
      (some (.ok (.physicalAddr (frameAddress number))),
        { s with memory := takeFrame m pid, memoryQueue := [], clock := s.clock + 1 }) := by
  obtain ⟨frame, halloc, haddress⟩ := (takeFrame_spec hregular.history.fit pid hqueue).answer
  rw [settledMemory] at hnow
  simp only [requestMemory, htimely, if_true, hnow, MemoryService.handleEnvelope,
    MemoryService.handleMemoryRequestWithResponse, MemoryService.handleAllocFrameWithResponse]
  rw [← haddress, takeFrame, halloc]
  rfl

/-- or says that there is none. -/
theorem requestFrame_refused (hregular : RegularService size m)
    (hnow : s.settledMemory (w.order s.clock) = m) (htimely : w.timely s.clock = true) (pid : Pid)
    (hqueue : m.memoryManager.allocator.freeQueue = []) :
    s.requestMemory w (.allocFrame 1 pid) =
      (some (.error (.resourceExhausted "Physical memory frames")),
        { s with memory := m, memoryQueue := [], clock := s.clock + 1 }) := by
  have halloc : m.memoryManager.allocateFrames pid 1 = ([], m.memoryManager) := by
    rcases PhysicalMemoryManager.allocateFrames_one hregular.history.fit.exact pid with
      ⟨-, h⟩ | ⟨frame, m', -, hmem, -⟩
    · exact h
    · rw [hqueue] at hmem
      cases hmem
  rw [settledMemory] at hnow
  simp only [requestMemory, htimely, if_true, hnow, MemoryService.handleEnvelope,
    MemoryService.handleMemoryRequestWithResponse, MemoryService.handleAllocFrameWithResponse, halloc]
  rfl

/-- Then nothing has changed. -/
theorem takeFrame_refused (hregular : RegularService size m) (pid : Pid)
    (hqueue : m.memoryManager.allocator.freeQueue = []) : takeFrame m pid = m := by
  rcases PhysicalMemoryManager.allocateFrames_one hregular.history.fit.exact pid with
    ⟨-, h⟩ | ⟨frame, m', -, hmem, -⟩
  · rw [takeFrame, h]
  · rw [hqueue] at hmem
    cases hmem

/-- Frames and tables stay regular when a frame is taken, -/
theorem regular_takeFrame (h : RegularService size m) (pid : Pid) :
    RegularService size (takeFrame m pid) := h.allocate pid 1

/-- when it is mapped, -/
theorem regular_mapInto (h : RegularService size m) (pid : Pid) (virt : VirtAddr) (phys : PhysAddr) :
    RegularService size (mapInto m pid virt phys) := by
  have hmapped : Regular size m.memoryManager
      (MemoryService.mapLossy m.mmu pid virt phys ⟨true, true, true⟩) := h.map pid virt phys rfl
  exact hmapped

/-- under stores, -/
theorem regular_withMmu (h : RegularService size m) {mmu : MMU} (hsame : SameTables m.mmu mmu) :
    RegularService size { m with mmu := mmu } := h.store hsame

/-- and so when a page is copied, -/
theorem regular_copyInto (h : RegularService size m) (parent child : Pid) (page : VirtAddr) :
    RegularService size (copyInto m parent child page) :=
  regular_withMmu h (sameTables_copyPage m.mmu parent child page)

/-- and when it is cloned. -/
theorem regular_clonePage (h : RegularService size m) (parent child : Pid) (g : PageGrant) :
    RegularService size (clonePage parent child m g) := by
  have htaken := regular_takeFrame h child
  rw [clonePage]
  split
  · exact regular_copyInto (regular_mapInto htaken child g.page _) parent child g.page
  · exact regular_mapInto (regular_copyInto htaken parent child g.page) child g.page _

/-- Each page that is cloned takes one frame. -/
theorem clonePage_manager (parent child : Pid) (m : MemoryService) (g : PageGrant) :
    (clonePage parent child m g).memoryManager = (m.memoryManager.allocateFrames child 1).2 := by
  rw [clonePage]
  split <;> rfl

end requests

/-- What becomes of the loop: all pages are handled, or an answer is missing. -/
inductive Looped (w : World) (parent child : Pid) (clock : Nat) (pages : List VirtAddr)
    (m : MemoryService) : Except ServiceError Unit → MemoryService → Prop
  | finished (h : answered w clock pages m.memoryManager.allocator.freeQueue = true) :
      Looped w parent child clock pages m (.ok ())
        ((grants w clock pages m.memoryManager.allocator.freeQueue).foldl (clonePage parent child) m)
  | aborted {e : ServiceError} {done : List PageGrant}
      (h : answered w clock pages m.memoryManager.allocator.freeQueue = false)
      (hdone : done <+: grants w clock pages m.memoryManager.allocator.freeQueue) :
      Looped w parent child clock pages m (.error e)
        (takeFrame (done.foldl (clonePage parent child) m) child)

namespace Looped

variable {w : World} {parent child : Pid} {clock : Nat} {page : VirtAddr} {pages : List VirtAddr}
  {m : MemoryService} {r : Except ServiceError Unit} {m' : MemoryService}

/-- A page without a frame is left out. -/
theorem skip (hqueue : m.memoryManager.allocator.freeQueue = []) (htimely : w.timely clock = true)
    (h : Looped w parent child (clock + 1) pages m r m') :
    Looped w parent child clock (page :: pages) m r m' := by
  have hgrants : grants w (clock + 1) pages m.memoryManager.allocator.freeQueue =
      grants w clock (page :: pages) m.memoryManager.allocator.freeQueue := by
    rw [hqueue]
    cases pages <;> rfl
  have hanswered : answered w (clock + 1) pages m.memoryManager.allocator.freeQueue =
      answered w clock (page :: pages) m.memoryManager.allocator.freeQueue := by
    rw [hqueue, answered, htimely, Bool.true_and]
  cases h with
  | finished h =>
    rw [hgrants]
    exact .finished (hanswered ▸ h)
  | aborted h hdone => exact .aborted (hanswered ▸ h) (hgrants ▸ hdone)

/-- A page with a frame is cloned before the others. -/
theorem next {number : Nat} {queue : List Nat}
    (hqueue : m.memoryManager.allocator.freeQueue = number :: queue) (htimely : w.timely clock = true)
    (hrest : (clonePage parent child m
      ⟨page, number, w.timely (clock + 1)⟩).memoryManager.allocator.freeQueue = queue)
    (h : Looped w parent child (clock + 2) pages
      (clonePage parent child m ⟨page, number, w.timely (clock + 1)⟩) r m') :
    Looped w parent child clock (page :: pages) m r m' := by
  have hgrants : grants w clock (page :: pages) m.memoryManager.allocator.freeQueue =
      ⟨page, number, w.timely (clock + 1)⟩ :: grants w (clock + 2) pages queue := by
    rw [hqueue, grants]
  have hanswered : answered w clock (page :: pages) m.memoryManager.allocator.freeQueue =
      answered w (clock + 2) pages queue := by
    rw [hqueue, answered, htimely, Bool.true_and]
  cases h with
  | finished h =>
    rw [hrest] at h ⊢
    have hall : Looped w parent child clock (page :: pages) m (.ok ()) _ :=
      .finished (hanswered.trans h)
    rwa [hgrants, List.foldl_cons] at hall
  | @aborted e done h hdone =>
    rw [hrest] at h hdone
    have hall : ⟨page, number, w.timely (clock + 1)⟩ :: done <+:
        grants w clock (page :: pages) m.memoryManager.allocator.freeQueue := by
      rw [hgrants]
      exact List.cons_prefix_cons.2 ⟨rfl, hdone⟩
    exact .aborted (hanswered.trans h) hall

end Looped

/-- What the loop over the pages comes to, by induction on them. -/
theorem clonePages_looped (w : World) (parent child : Pid) (ord : HashOrder) {size : UInt64}
    (entries : List (VirtAddr × PhysAddr × PageFlags)) (s : Machine) {m : MemoryService}
    (hregular : RegularService size m) (hnow : s.settledMemory (w.order s.clock) = m)
    (hord : s.settledMemory ord = m) :
    Looped w parent child s.clock (entries.map Prod.fst) m (clonePages w parent child entries s).1
      ((clonePages w parent child entries s).2.settledMemory ord) := by
  induction entries generalizing s m with
  | nil =>
    rw [clonePages, hord]
    exact .finished rfl
  | cons entry rest ih =>
    obtain ⟨page, paddr, flags⟩ := entry
    rw [List.map_cons]
    cases htimely : w.timely s.clock with
    | false =>
      have hlate : s.requestMemory w (.allocFrame 1 child) =
          (none, { s with
            memoryQueue := s.memoryQueue ++ [(.allocFrame 1 child, true)], clock := s.clock + 1 }) := by
        simp [requestMemory, htimely]
      have hanswered : answered w s.clock (page :: rest.map Prod.fst)
          m.memoryManager.allocator.freeQueue = false := by
        cases m.memoryManager.allocator.freeQueue <;> simp [answered, htimely]
      have hsettled : settledMemory ord { s with
          memoryQueue := s.memoryQueue ++ [(.allocFrame 1 child, true)], clock := s.clock + 1 } =
            takeFrame m child := by
        rw [settledMemory] at hord ⊢
        rw [List.foldl_append, hord, List.foldl_cons, List.foldl_nil, serve_allocFrame_one]
      simp only [clonePages, hlate, hsettled]
      exact .aborted hanswered (List.nil_prefix : [] <+: _)
    | true =>
      cases hqueue : m.memoryManager.allocator.freeQueue with
      | nil =>
        simp only [clonePages, requestFrame_refused hregular hnow htimely child hqueue]
        have hskipped := ih (s := { s with memory := m, memoryQueue := [], clock := s.clock + 1 })
          hregular rfl rfl
        exact Looped.skip hqueue htimely hskipped
      | cons number queue =>
        simp only [clonePages, requestFrame_granted hregular hnow htimely child hqueue]
        have hcloned := regular_clonePage hregular parent child ⟨page, number, w.timely (s.clock + 1)⟩
        have hrest : (clonePage parent child m
            ⟨page, number, w.timely (s.clock + 1)⟩).memoryManager.allocator.freeQueue = queue := by
          rw [clonePage_manager]
          exact (takeFrame_spec hregular.history.fit child hqueue).queue_eq
        apply Looped.next hqueue htimely hrest
        -- in time or late, the messages lead to the cloned page
        cases hmap : w.timely (s.clock + 1) with
        | true =>
          rw [hmap] at hcloned
          have hnext := ih (s := { s with
            memory := copyInto (mapInto (takeFrame m child) child page (frameAddress number)) parent
              child page
            memoryQueue := [], clock := s.clock + 1 + 1 }) hcloned rfl rfl
          simp only [requestMemory, hmap, if_true, List.foldl_nil]
          exact hnext
        | false =>
          rw [hmap] at hcloned
          have hnext := ih (s := { s with
            memory := copyInto (takeFrame m child) parent child page
            memoryQueue := [(.mapPage child page (frameAddress number) ⟨true, true, !flags.writable⟩,
              true)]
            clock := s.clock + 1 + 1 }) hcloned rfl rfl
          simp only [requestMemory, hmap, Bool.false_eq_true, if_false, List.nil_append]
          exact hnext

/-! ## Tables and bytes after the loop -/

/-- A frame begins at the address of a page. -/
theorem pageBase_frameAddress (number : Nat) : pageBase (frameAddress number) = frameAddress number := by
  apply pageBase_of_mod
  rw [frameAddress, UInt64.toNat_ofNat']
  omega

section cloned

variable {size : UInt64} {parent child : Pid}

/-- The child has the page at the frame that was granted, and all other pages stay. -/
theorem clonePage_mapped {m : MemoryService} (h : RegularService size m) (parent child : Pid)
    (g : PageGrant) (q : Pid) (page : VirtAddr) :
    (clonePage parent child m g).mmu.mapped q page =
      if q = child ∧ page = pageBase g.page then some ⟨frameAddress g.number, ⟨true, true, true⟩⟩
      else m.mmu.mapped q page := by
  have hmap : ∀ m', RegularService size m' → (mapInto m' child g.page
      (frameAddress g.number)).mmu.mapped q page =
        if q = child ∧ page = pageBase g.page then some ⟨frameAddress g.number, ⟨true, true, true⟩⟩
        else m'.mmu.mapped q page := by
    intro m' hm'
    obtain ⟨-, -, hmapped⟩ := MemoryService.mapLossy_spec m'.mmu child g.page (frameAddress g.number)
      ⟨true, true, true⟩
    have hspec := hmapped q page
    rwa [hm'.alignDown_eq, hm'.alignDown_eq, pageBase_frameAddress] at hspec
  have htaken := regular_takeFrame h child
  rw [clonePage]
  split
  · rw [copyInto_mmu, (sameTables_copyPage _ parent child g.page).mapped_eq, hmap _ htaken]
    rfl
  · rw [hmap _ (regular_copyInto htaken parent child g.page), copyInto_mmu,
      (sameTables_copyPage _ parent child g.page).mapped_eq]
    rfl

/-- Frames and tables stay regular through the loop. -/
theorem regular_foldl {m : MemoryService} (h : RegularService size m) (parent child : Pid)
    (gs : List PageGrant) : RegularService size (gs.foldl (clonePage parent child) m) := by
  induction gs generalizing m with
  | nil => exact h
  | cons g gs ih => exact ih (regular_clonePage h parent child g)

/-- Only the granted pages of the child are mapped anew. -/
theorem foldl_mapped_other {gs : List PageGrant} (haligned : ∀ g ∈ gs, pageBase g.page = g.page)
    {m : MemoryService} (h : RegularService size m) {q : Pid} {page : VirtAddr}
    (hother : q = child → ∀ g ∈ gs, page ≠ g.page) :
    (gs.foldl (clonePage parent child) m).mmu.mapped q page = m.mmu.mapped q page := by
  induction gs generalizing m with
  | nil => rfl
  | cons g gs ih =>
    have hrest := ih (fun g' hg' => haligned g' (List.mem_cons_of_mem g hg'))
      (regular_clonePage h parent child g)
      (fun hq g' hg' => hother hq g' (List.mem_cons_of_mem g hg'))
    rw [List.foldl_cons, hrest, clonePage_mapped h, if_neg]
    rintro ⟨hq, hpage⟩
    rw [haligned g List.mem_cons_self] at hpage
    exact hother hq g List.mem_cons_self hpage

/-- After the loop every page with a grant is mapped to its frame. -/
theorem foldl_mapped_child {gs : List PageGrant} (haligned : ∀ g ∈ gs, pageBase g.page = g.page)
    (hnodup : (gs.map PageGrant.page).Nodup) {m : MemoryService} (h : RegularService size m)
    {g : PageGrant} (hg : g ∈ gs) :
    (gs.foldl (clonePage parent child) m).mmu.mapped child g.page =
      some ⟨frameAddress g.number, ⟨true, true, true⟩⟩ := by
  induction gs generalizing m with
  | nil => cases hg
  | cons g' gs ih =>
    have haligned' : ∀ g ∈ gs, pageBase g.page = g.page :=
      fun g hg => haligned g (List.mem_cons_of_mem g' hg)
    rw [List.map_cons, List.nodup_cons] at hnodup
    have hcloned := regular_clonePage h parent child g'
    rcases List.mem_cons.1 hg with rfl | hg
    · rw [List.foldl_cons, foldl_mapped_other haligned' hcloned, clonePage_mapped h, if_pos]
      · exact ⟨rfl, (haligned g List.mem_cons_self).symm⟩
      · intro _ g' hg' heq
        exact hnodup.1 (List.mem_map.2 ⟨g', hg', heq.symm⟩)
    · exact ih haligned' hnodup.2 hcloned hg

/-- The frames of the child are in memory and new: nothing of the parent is in them. -/
structure Separate (m : MMU) (size : UInt64) (parent child : Pid) (gs : List PageGrant) : Prop where
  pages_nodup : (gs.map PageGrant.page).Nodup
  numbers_nodup : (gs.map PageGrant.number).Nodup
  fits : ∀ g ∈ gs, (g.number + 1) * 4096 ≤ size.toNat
  source : ∀ g ∈ gs, ∃ entry, m.mapped parent g.page = some entry ∧
    entry.frame.toNat + 4096 ≤ size.toNat
  apart : ∀ g ∈ gs, ∀ page entry, m.mapped parent page = some entry → entry.frame ≠ frameAddress g.number
  childless : ∀ g ∈ gs, m.mapped child g.page = none

/-- The address of a frame that is in memory. -/
theorem frameAddress_toNat {number : Nat} (h : (number + 1) * 4096 ≤ size.toNat) :
    (frameAddress number).toNat = number * 4096 := by
  rw [frameAddress]
  apply UInt64.toNat_ofNat_of_lt'
  have hlt := size.toNat_lt_size
  omega

/-- The copy of one page. -/
theorem clonePage_data {m : MemoryService} (h : RegularService size m) (hne : parent ≠ child)
    {g : PageGrant} {entry : PageTableEntry} (hentry : m.mmu.mapped parent g.page = some entry)
    (hsource : entry.frame.toNat + 4096 ≤ size.toNat) (hfits : (g.number + 1) * 4096 ≤ size.toNat)
    (hapart : entry.frame ≠ frameAddress g.number) (hchild : m.mmu.mapped child g.page = none) (a : Nat) :
    (clonePage parent child m g).mmu.memory.data a =
      if g.inTime = true ∧ a / 4096 = g.number then m.mmu.memory.data (entry.frame.toNat + a % 4096)
      else m.mmu.memory.data a := by
  have htaken := regular_takeFrame h child
  have hpage := (h.entry_ok parent g.page entry hentry).1
  rw [clonePage]
  split
  · next hin =>
    obtain ⟨hmemory, -, hmapped⟩ := MemoryService.mapLossy_spec (takeFrame m child).mmu child g.page
      (frameAddress g.number) ⟨true, true, true⟩
    have hregular := regular_mapInto htaken child g.page (frameAddress g.number)
    have hpair : Paired (mapInto (takeFrame m child) child g.page (frameAddress g.number)).mmu size
        parent child g.page entry.frame (frameAddress g.number) := by
      refine ⟨⟨entry.flags, ?_⟩, ⟨⟨true, true, true⟩, ?_, rfl⟩, hsource, ?_⟩
      · exact (hmapped parent g.page).trans ((if_neg (fun hand => hne hand.1)).trans hentry)
      · have hspec := hmapped child g.page
        rw [htaken.alignDown_eq, htaken.alignDown_eq, hpage, pageBase_frameAddress,
          if_pos ⟨rfl, rfl⟩] at hspec
        exact hspec
      · rw [frameAddress_toNat hfits]
        omega
    -- in time: the new page is mapped when the copy begins
    have hcopied := copyPage_data hregular hpair hapart a
    rw [copyInto_mmu, hcopied, frameAddress_toNat hfits]
    have hsame : ∀ a, (mapInto (takeFrame m child) child g.page
        (frameAddress g.number)).mmu.memory.data a = m.mmu.memory.data a := by
      intro a
      exact congrArg (fun memory => PhysicalMemory.data memory a) hmemory
    rw [hsame, hsame]
    by_cases hat : a / 4096 = g.number
    · rw [if_pos (by omega), if_pos ⟨hin, hat⟩]
      congr 2
      omega
    · rw [if_neg (by omega), if_neg (fun hand => hat hand.2)]
  · next hin =>
    -- late: there is no page to copy to yet, and no byte is written
    have hcopy : copyPage (takeFrame m child).mmu parent child g.page = m.mmu :=
      copyPage_unmapped h parent hpage hchild
    obtain ⟨hmemory, -, -⟩ := MemoryService.mapLossy_spec m.mmu child g.page
      (frameAddress g.number) ⟨true, true, true⟩
    rw [if_neg (fun hand => hin hand.1)]
    have hmmu : (mapInto (copyInto (takeFrame m child) parent child g.page) child g.page
        (frameAddress g.number)).mmu = MemoryService.mapLossy m.mmu child g.page
          (frameAddress g.number) ⟨true, true, true⟩ := by
      rw [mapInto, copyInto_mmu, hcopy]
    rw [hmmu, hmemory]

/-- The frames that are still to be granted stay separate from those in use. -/
theorem Separate.clonePage {m : MemoryService} (h : RegularService size m) (hne : parent ≠ child)
    {g : PageGrant} {gs : List PageGrant} (hsep : Separate m.mmu size parent child (g :: gs)) :
    Separate (clonePage parent child m g).mmu size parent child gs := by
  have hparent : ∀ page, (Machine.clonePage parent child m g).mmu.mapped parent page =
      m.mmu.mapped parent page := by
    intro page
    rw [clonePage_mapped h, if_neg (fun hand => hne hand.1)]
  have hpages := List.nodup_cons.1 hsep.pages_nodup
  refine ⟨hpages.2, (List.nodup_cons.1 hsep.numbers_nodup).2, ?_, ?_, ?_, ?_⟩
  · exact fun g' hg' => hsep.fits g' (List.mem_cons_of_mem g hg')
  · intro g' hg'
    rw [hparent]
    exact hsep.source g' (List.mem_cons_of_mem g hg')
  · intro g' hg' page entry hentry
    rw [hparent] at hentry
    exact hsep.apart g' (List.mem_cons_of_mem g hg') page entry hentry
  · intro g' hg'
    obtain ⟨entry, hentry, -⟩ := hsep.source g List.mem_cons_self
    rw [clonePage_mapped h, if_neg, hsep.childless g' (List.mem_cons_of_mem g hg')]
    rintro ⟨-, heq⟩
    rw [(h.entry_ok parent g.page entry hentry).1] at heq
    exact hpages.1 (List.mem_map.2 ⟨g', hg', heq⟩)

/-- Each frame of the child holds the page of the parent, or what it held before when its mapping was
late; all other bytes stay. -/
theorem foldl_data (hne : parent ≠ child) {gs : List PageGrant} {m : MemoryService}
    (h : RegularService size m) (hsep : Separate m.mmu size parent child gs) :
    (∀ a, (∀ g ∈ gs, a / 4096 ≠ g.number) →
        (gs.foldl (Machine.clonePage parent child) m).mmu.memory.data a = m.mmu.memory.data a) ∧
      ∀ g ∈ gs, ∀ entry, m.mmu.mapped parent g.page = some entry → ∀ o < 4096,
        (gs.foldl (Machine.clonePage parent child) m).mmu.memory.data (g.number * 4096 + o) =
          if g.inTime = true then m.mmu.memory.data (entry.frame.toNat + o)
          else m.mmu.memory.data (g.number * 4096 + o) := by
  induction gs generalizing m with
  | nil => exact ⟨fun a _ => rfl, fun g hg => absurd hg List.not_mem_nil⟩
  | cons g gs ih =>
    obtain ⟨entry, hentry, hsource⟩ := hsep.source g List.mem_cons_self
    have hfits := hsep.fits g List.mem_cons_self
    have hdata := clonePage_data h hne hentry hsource hfits
      (hsep.apart g List.mem_cons_self g.page entry hentry) (hsep.childless g List.mem_cons_self)
    have hparent : ∀ page, (Machine.clonePage parent child m g).mmu.mapped parent page =
        m.mmu.mapped parent page := by
      intro page
      rw [clonePage_mapped h, if_neg (fun hand => hne hand.1)]
    obtain ⟨hothers, hgranted⟩ := ih (regular_clonePage h parent child g) (hsep.clonePage h hne)
    have hnumbers := List.nodup_cons.1 hsep.numbers_nodup
    rw [List.foldl_cons]
    constructor
    · intro a ha
      rw [hothers a (fun g' hg' => ha g' (List.mem_cons_of_mem g hg')), hdata,
        if_neg (fun hand => ha g List.mem_cons_self hand.2)]
    · intro g' hg' entry' hentry' o ho
      rcases List.mem_cons.1 hg' with rfl | hg'
      · -- the first page: the rest of the loop stays away from its frame
        rw [hentry] at hentry'
        cases hentry'
        rw [hothers, hdata]
        · have hdiv : (g'.number * 4096 + o) / 4096 = g'.number := by omega
          have hmod : (g'.number * 4096 + o) % 4096 = o := by omega
          rw [hdiv, hmod]
          simp only [and_true]
        · intro g'' hg'' heq
          apply hnumbers.1
          exact List.mem_map.2 ⟨g'', hg'', by omega⟩
      · rw [hgranted g' hg' entry' (by rw [hparent]; exact hentry') o ho]
        have hdiff : g'.number ≠ g.number := by
          intro heq
          exact hnumbers.1 (List.mem_map.2 ⟨g', hg', heq⟩)
        -- neither the parent's frame nor the child's is the one just filled
        have hkept : ∀ a, a / 4096 ≠ g.number →
            (Machine.clonePage parent child m g).mmu.memory.data a = m.mmu.memory.data a := by
          intro a ha
          rw [hdata, if_neg (fun hand => ha hand.2)]
        rw [hkept, hkept]
        · omega
        · intro heq
          apply hsep.apart g List.mem_cons_self g'.page entry' hentry'
          apply UInt64.toNat_inj.1
          have hmod : entry'.frame.toNat % 4096 = 0 :=
            frame_mod (h.entry_ok parent g'.page entry' hentry').2.1
          rw [frameAddress_toNat hfits]
          omega

end cloned

/-! ## Fork -/

/-- The child is a copy of the parent, and the parent stays. Memory is looked at when the messages on
their way have been handled. -/
structure ForkedCopy (ord : HashOrder) (parent child : Pid) (s s' : Machine) : Prop where
  fresh : s.stateOf child = none ∧ ∀ page, (s.settledMemory ord).mmu.mapped child page = none
  pages : ∀ page, ((s'.settledMemory ord).mmu.mapped child page).map (·.flags.writable) =
    ((s.settledMemory ord).mmu.mapped parent page).map (·.flags.writable)
  disjoint : ∀ page page' entry entry', (s'.settledMemory ord).mmu.mapped child page = some entry →
    (s.settledMemory ord).mmu.mapped parent page' = some entry' → entry.frame ≠ entry'.frame
  contents : ∀ v, ((s'.settledMemory ord).mmu.readU8 child v).toOption =
    ((s.settledMemory ord).mmu.readU8 parent v).toOption
  cpu : ∀ cpu, s.cpus.get parent = some cpu → ∃ cpu', s'.cpus.get child = some cpu' ∧
    cpu'.pc = cpu.pc ∧ cpu'.sp = cpu.sp ∧ cpu'.flags = cpu.flags ∧
      cpu'.registers = Function.update cpu.registers .r0 0
  parentPages : ∀ page, (s'.settledMemory ord).mmu.mapped parent page =
    (s.settledMemory ord).mmu.mapped parent page
  parentMemory : ∀ v, ((s'.settledMemory ord).mmu.readU8 parent v).toOption =
    ((s.settledMemory ord).mmu.readU8 parent v).toOption
  parentCpu : s'.cpus.get parent = s.cpus.get parent

/-- Page tables, frame ownership and process table are as before. -/
structure ForkedNothing (ord : HashOrder) (s s' : Machine) : Prop where
  pages : ∀ q page, (s'.settledMemory ord).mmu.mapped q page = (s.settledMemory ord).mmu.mapped q page
  frames : (s'.settledMemory ord).memoryManager.allocator.frames =
    (s.settledMemory ord).memoryManager.allocator.frames
  processes : s'.processTable = s.processTable

/-- Fork clones the process or changes nothing. -/
def ForkSound (w : World) (s : Machine) (parent : Pid) : Prop :=
  match s.forkImpl w parent with
  | (.ok child, s') => ForkedCopy (w.order (s.clock + 1)) parent child s s'
  | (.error _, s') => ForkedNothing (w.order (s.clock + 1)) s s'

/-- The memory service when fork asks for its first frame. -/
def forkMemory (w : World) (s : Machine) : MemoryService := s.settledMemory (w.order (s.clock + 1))

/-- The pages that fork copies, in the order in which it finds them. -/
def forkPages (w : World) (s : Machine) (parent : Pid) : List VirtAddr :=
  (s.mmu.getPageEntries (w.order s.clock) parent).map Prod.fst

/-- The pages that get a frame. -/
def forkGrants (w : World) (s : Machine) (parent : Pid) : List PageGrant :=
  grants w (s.clock + 1) (forkPages w s parent) (forkMemory w s).memoryManager.allocator.freeQueue

/-- All requests for frames are answered in time. -/
def forkAnswered (w : World) (s : Machine) (parent : Pid) : Bool :=
  answered w (s.clock + 1) (forkPages w s parent) (forkMemory w s).memoryManager.allocator.freeQueue

/-- The state and the surroundings let fork make a copy: every page of the parent, and no other, gets a
frame that is none of the parent's; the parent's pages are writable and in memory; a mapping that is late
maps a frame that happens to hold the page already; and the parent's flags are clear. -/
structure Clonable (w : World) (s : Machine) (parent : Pid) : Prop where
  answered : forkAnswered w s parent = true
  covered : ∀ page, ((forkMemory w s).mmu.mapped parent page).isSome = true ↔
    page ∈ (forkGrants w s parent).map PageGrant.page
  childless : ∀ page, (forkMemory w s).mmu.mapped s.nextPid page = none
  writable : ∀ page entry, (forkMemory w s).mmu.mapped parent page = some entry →
    entry.flags.writable = true
  inMemory : ∀ page entry, (forkMemory w s).mmu.mapped parent page = some entry →
    entry.frame.toNat + 4096 ≤ (forkMemory w s).mmu.memory.size
  apart : ∀ g ∈ forkGrants w s parent, ∀ page entry,
    (forkMemory w s).mmu.mapped parent page = some entry → entry.frame ≠ frameAddress g.number
  late : ∀ g ∈ forkGrants w s parent, g.inTime = false → ∀ entry,
    (forkMemory w s).mmu.mapped parent g.page = some entry → ∀ o < 4096,
      (forkMemory w s).mmu.memory.data (g.number * 4096 + o) =
        (forkMemory w s).mmu.memory.data (entry.frame.toNat + o)
  flags : ∀ cpu, s.cpus.get parent = some cpu → cpu.flags = CPUFlags.new

section fork

variable {w : World} {s : Machine} {parent : Pid} {size : UInt64} {swapImage : Nat → UInt8}

/-- A state that is reached comes from the memory at boot. -/
theorem Reached.comesFrom {memory : MemoryService} (h : s.Reached memory) : s.ComesFrom memory := by
  obtain ⟨w, events, hs⟩ := h
  have htouched := run_touched w memory events
  rcases hs with rfl | ⟨t, ht, rfl⟩
  · exact htouched.1
  · exact htouched.2 t ht

/-- When a fork begins, frames and tables are regular. -/
theorem regular_forkMemory (h : s.ComesFrom (bootMemory size swapImage)) (w : World) :
    RegularService size (forkMemory w s) := regular_settled h _

/-- The pages of a fork are those that the parent has mapped. -/
theorem mem_forkPages {page : VirtAddr} :
    page ∈ forkPages w s parent ↔ (s.mmu.mapped parent page).isSome = true := by
  rw [forkPages, List.mem_map, Option.isSome_iff_exists]
  constructor
  · rintro ⟨⟨page', frame, flags⟩, hmem, rfl⟩
    exact ⟨_, (s.mmu.mem_getPageEntries _ parent _ frame flags).1 hmem⟩
  · rintro ⟨entry, hentry⟩
    exact ⟨(page, entry.frame, entry.flags), (s.mmu.mem_getPageEntries _ parent _ _ _).2 hentry, rfl⟩

/-- They are addresses of pages, -/
theorem forkGrants_aligned (w : World) (parent : Pid) (h : s.ComesFrom (bootMemory size swapImage)) :
    ∀ g ∈ forkGrants w s parent, pageBase g.page = g.page := by
  intro g hg
  have hpage : g.page ∈ (forkGrants w s parent).map PageGrant.page := List.mem_map_of_mem hg
  rw [forkGrants, grants_pages] at hpage
  obtain ⟨entry, hentry⟩ :=
    Option.isSome_iff_exists.1 (mem_forkPages.1 (List.mem_of_mem_take hpage))
  exact (h.regular.entry_ok parent g.page entry hentry).1

/-- each of them is there once, -/
theorem forkGrants_pages_nodup : ((forkGrants w s parent).map PageGrant.page).Nodup := by
  rw [forkGrants, grants_pages]
  exact (s.mmu.nodup_getPageEntries _ parent).sublist (List.take_sublist _ _)

/-- and so is each frame, -/
theorem forkGrants_numbers_nodup (h : RegularService size (forkMemory w s)) :
    ((forkGrants w s parent).map PageGrant.number).Nodup := by
  rw [forkGrants, grants_numbers]
  exact h.history.fit.exact.queue_nodup.sublist (List.take_sublist _ _)

/-- all of which are in memory. -/
theorem forkGrants_fits (parent : Pid) (h : RegularService size (forkMemory w s)) :
    ∀ g ∈ forkGrants w s parent, (g.number + 1) * 4096 ≤ size.toNat := by
  intro g hg
  have hnumber : g.number ∈ (forkGrants w s parent).map PageGrant.number := List.mem_map_of_mem hg
  rw [forkGrants, grants_numbers] at hnumber
  have hlt := h.history.fit.exact.lt_of_mem_queue (List.mem_of_mem_take hnumber)
  exact Nat.le_trans (Nat.mul_le_mul_right 4096 hlt) h.history.fit.total_le

/-- What fork does, by what becomes of its loop. -/
theorem forkImpl_looped (hreach : s.ComesFrom (bootMemory size swapImage)) (hparent : parent ≠ 0)
    (hexists : (s.processTable.lookup parent).isSome = true) :
    (forkAnswered w s parent = true ∧ ∃ s', s.forkImpl w parent = (.ok s.nextPid, s') ∧
        s'.settledMemory (w.order (s.clock + 1)) =
          (forkGrants w s parent).foldl (Machine.clonePage parent s.nextPid) (forkMemory w s) ∧
        s'.cpus = s.cpus.insert (childCpu (s.cpus.get parent) s.nextPid)) ∨
      (forkAnswered w s parent = false ∧ ∃ e s' done, s.forkImpl w parent = (.error e, s') ∧
        done <+: forkGrants w s parent ∧ s'.settledMemory (w.order (s.clock + 1)) =
          takeFrame (done.foldl (Machine.clonePage parent s.nextPid) (forkMemory w s)) s.nextPid ∧
        s'.processTable = s.processTable) := by
  -- the loop over the pages ends, or stops at a page without a frame
  have hlooped := clonePages_looped w parent s.nextPid (w.order (s.clock + 1))
    (s.mmu.getPageEntries (w.order s.clock) parent) s.advance (regular_forkMemory hreach w) rfl rfl
  -- neither changes the process table
  have hquiet := (quiet_advance s).trans (quiet_clonePages w parent s.nextPid
    (s.mmu.getPageEntries (w.order s.clock) parent) s.advance)
  have hsome : ¬(s.processTable.lookup parent).isNone = true := by
    rw [Option.isNone_iff_eq_none]
    exact Option.isSome_iff_ne_none.1 hexists
  simp only [forkImpl, if_neg hparent, if_neg hsome]
  cases hloop : clonePages w parent s.nextPid (s.mmu.getPageEntries (w.order s.clock) parent)
      s.advance with
  | mk r cloned =>
    rw [hloop] at hlooped hquiet
    cases r with
    | ok u =>
      left
      generalize hsettled : cloned.settledMemory (w.order (s.clock + 1)) = m' at hlooped
      cases hlooped with
      | finished hanswered =>
        refine ⟨hanswered, _, rfl, hsettled, ?_⟩
        exact congrArg (fun c => CpuTable.insert c (childCpu (c.get parent) s.nextPid)) hquiet.cpus
    | error e =>
      right
      generalize hsettled : cloned.settledMemory (w.order (s.clock + 1)) = m' at hlooped
      cases hlooped with
      | aborted hanswered hdone =>
        have htable : cloned.processTable = s.processTable :=
          congrArg Kernel.processTable hquiet.toKernel
        exact ⟨hanswered, e, _, _, rfl, hdone, hsettled, htable⟩

/-- A process that exists is not the one that is to be made. -/
theorem parent_ne_child (hreach : s.Reached (bootMemory size swapImage))
    (hexists : (s.processTable.lookup parent).isSome = true) : parent ≠ s.nextPid := by
  have hknown : (s.stateOf parent).isSome = true := by
    rw [Kernel.stateOf, Option.isSome_map]
    exact hexists
  exact Nat.ne_of_lt (hreach.numbered parent hknown)

/-- The tables after all pages have been cloned. -/
structure ClonedTables (w : World) (s : Machine) (parent : Pid) (m : MMU) : Prop where
  granted : ∀ g ∈ forkGrants w s parent,
    m.mapped s.nextPid g.page = some ⟨frameAddress g.number, ⟨true, true, true⟩⟩
  rest : ∀ page, page ∉ (forkGrants w s parent).map PageGrant.page →
    m.mapped s.nextPid page = (forkMemory w s).mmu.mapped s.nextPid page
  parents : ∀ page, m.mapped parent page = (forkMemory w s).mmu.mapped parent page

/-- After the loop the tables are those of a copy. -/
theorem clonedTables (hreach : s.ComesFrom (bootMemory size swapImage)) (hne : parent ≠ s.nextPid) :
    ClonedTables w s parent ((forkGrants w s parent).foldl (Machine.clonePage parent s.nextPid)
      (forkMemory w s)).mmu := by
  have hregular := regular_forkMemory hreach w
  have haligned := forkGrants_aligned w parent hreach
  refine ⟨?_, ?_, ?_⟩
  · intro g hg
    exact foldl_mapped_child haligned forkGrants_pages_nodup hregular hg
  · intro page hpage
    refine foldl_mapped_other haligned hregular ?_
    intro _ g hg heq
    exact hpage (List.mem_map.2 ⟨g, hg, heq.symm⟩)
  · intro page
    exact foldl_mapped_other haligned hregular fun heq => absurd heq hne

/-- What the condition says about the frames. -/
theorem Clonable.separate (hreach : s.Reached (bootMemory size swapImage)) (h : Clonable w s parent) :
    Separate (forkMemory w s).mmu size parent s.nextPid (forkGrants w s parent) := by
  have hregular := regular_forkMemory hreach.comesFrom w
  refine ⟨forkGrants_pages_nodup, forkGrants_numbers_nodup hregular, forkGrants_fits parent hregular, ?_,
    h.apart, fun g _ => h.childless g.page⟩
  intro g hg
  obtain ⟨entry, hentry⟩ :=
    Option.isSome_iff_exists.1 ((h.covered g.page).2 (List.mem_map_of_mem hg))
  have hin := h.inMemory g.page entry hentry
  rw [hregular.size_eq] at hin
  exact ⟨entry, hentry, hin⟩

/-- The bytes of a granted page, in the child and in the parent. -/
theorem contents_granted {m : MemoryService} (hregular : RegularService size m)
    (htables : ClonedTables w s parent m.mmu) {g : PageGrant} (hg : g ∈ forkGrants w s parent)
    (hfits : (g.number + 1) * 4096 ≤ size.toNat) {v : VirtAddr} (hv : pageBase v = g.page) :
    (m.mmu.readU8 s.nextPid v).toOption =
      some (m.mmu.memory.data (g.number * 4096 + v.toNat % 4096)) := by
  have hlt : v.toNat % 4096 < 4096 := Nat.mod_lt _ (by decide)
  rw [hregular.readU8_toOption, hv, htables.granted g hg, Option.bind_some]
  simp only [frameAddress_toNat hfits]
  rw [if_pos]
  omega

/-- A page without a grant is mapped for neither. -/
theorem Clonable.unmapped (h : Clonable w s parent) {m : MMU} (htables : ClonedTables w s parent m)
    {page : VirtAddr} (hnot : page ∉ (forkGrants w s parent).map PageGrant.page) :
    m.mapped s.nextPid page = none ∧ (forkMemory w s).mmu.mapped parent page = none := by
  refine ⟨(htables.rest page hnot).trans (h.childless page), ?_⟩
  rw [← Option.not_isSome_iff_eq_none, h.covered]
  exact hnot

/-- The child reads what the parent reads. -/
theorem Clonable.contents (hreach : s.Reached (bootMemory size swapImage)) (hne : parent ≠ s.nextPid)
    (h : Clonable w s parent) (v : VirtAddr) :
    (((forkGrants w s parent).foldl (Machine.clonePage parent s.nextPid)
      (forkMemory w s)).mmu.readU8 s.nextPid v).toOption =
      ((forkMemory w s).mmu.readU8 parent v).toOption := by
  have hregular := regular_forkMemory hreach.comesFrom w
  have htables := clonedTables (w := w) hreach.comesFrom hne
  have hregular' := regular_foldl hregular parent s.nextPid (forkGrants w s parent)
  obtain ⟨-, hgranted⟩ := foldl_data hne hregular (h.separate hreach)
  have hread := hregular.readU8_toOption parent v
  by_cases hin : pageBase v ∈ (forkGrants w s parent).map PageGrant.page
  · obtain ⟨entry, hentry⟩ := Option.isSome_iff_exists.1 ((h.covered _).2 hin)
    obtain ⟨g, hg, hv⟩ := List.mem_map.1 hin
    have hlt : v.toNat % 4096 < 4096 := Nat.mod_lt _ (by decide)
    have hinMemory := h.inMemory _ entry hentry
    rw [hregular.size_eq] at hinMemory
    rw [contents_granted hregular' htables hg (forkGrants_fits parent hregular g hg) hv.symm]
    rw [hentry, Option.bind_some, if_pos (by omega)] at hread
    rw [hread, hgranted g hg entry (by rw [hv]; exact hentry) _ hlt]
    split
    · rfl
    · next hlate =>
      have hsame := h.late g hg (by simpa using hlate) entry (by rw [hv]; exact hentry) _ hlt
      rw [hsame]
  · obtain ⟨hchild, hparent⟩ := h.unmapped htables hin
    rw [hparent] at hread
    rw [hregular'.readU8_toOption, hchild]
    exact hread.symm

/-- The parent reads what it read before. -/
theorem Clonable.parentMemory (hreach : s.Reached (bootMemory size swapImage))
    (hne : parent ≠ s.nextPid) (h : Clonable w s parent) (v : VirtAddr) :
    (((forkGrants w s parent).foldl (Machine.clonePage parent s.nextPid)
      (forkMemory w s)).mmu.readU8 parent v).toOption =
      ((forkMemory w s).mmu.readU8 parent v).toOption := by
  have hregular := regular_forkMemory hreach.comesFrom w
  have htables := clonedTables (w := w) hreach.comesFrom hne
  have hregular' := regular_foldl hregular parent s.nextPid (forkGrants w s parent)
  obtain ⟨hothers, -⟩ := foldl_data hne hregular (h.separate hreach)
  rw [hregular'.readU8_toOption, hregular.readU8_toOption, htables.parents]
  cases hentry : (forkMemory w s).mmu.mapped parent (pageBase v) with
  | none => rfl
  | some entry =>
    have hframe := frame_mod (hregular.entry_ok parent _ entry hentry).2.1
    rw [Option.bind_some, Option.bind_some, hothers]
    -- a byte of the parent is in none of the child's frames
    intro g hg heq
    apply h.apart g hg _ entry hentry
    apply UInt64.toNat_inj.1
    rw [frameAddress_toNat (forkGrants_fits parent hregular g hg)]
    omega

/-- With frames for all pages the child is a copy of its parent. -/
theorem Clonable.forkedCopy (hreach : s.Reached (bootMemory size swapImage))
    (hne : parent ≠ s.nextPid) (h : Clonable w s parent) {s' : Machine}
    (hmemory : s'.settledMemory (w.order (s.clock + 1)) =
      (forkGrants w s parent).foldl (Machine.clonePage parent s.nextPid) (forkMemory w s))
    (hcpus : s'.cpus = s.cpus.insert (childCpu (s.cpus.get parent) s.nextPid)) :
    ForkedCopy (w.order (s.clock + 1)) parent s.nextPid s s' := by
  have htables := clonedTables (w := w) hreach.comesFrom hne
  have hcontents := h.contents hreach hne
  have hparentMemory := h.parentMemory hreach hne
  -- what the loop leaves is the memory of the new machine
  rw [← hmemory] at htables hcontents hparentMemory
  -- one CPU is added, for the child
  have hget : ∀ q, s'.cpus.get q =
      if q = s.nextPid then some (childCpu (s.cpus.get parent) s.nextPid) else s.cpus.get q := by
    intro q
    have howner : (childCpu (s.cpus.get parent) s.nextPid).currentPid = s.nextPid := by
      simp only [childCpu]
      split <;> rfl
    rw [hcpus, CpuTable.get_insert, howner]
  refine ⟨⟨?_, h.childless⟩, ?_, ?_, hcontents, ?_, htables.parents, hparentMemory, ?_⟩
  · -- the next process number is not in use
    by_contra hstate
    exact Nat.lt_irrefl _ (hreach.numbered s.nextPid (Option.isSome_iff_ne_none.2 hstate))
  · intro page
    -- a page of the child is one that was granted
    by_cases hin : page ∈ (forkGrants w s parent).map PageGrant.page
    · obtain ⟨entry, hentry⟩ := Option.isSome_iff_exists.1 ((h.covered page).2 hin)
      have hwritable := h.writable page entry hentry
      obtain ⟨g, hg, rfl⟩ := List.mem_map.1 hin
      rw [forkMemory] at hentry
      rw [htables.granted g hg, hentry, Option.map_some, Option.map_some, hwritable]
    · obtain ⟨hchild, hparent⟩ := h.unmapped htables hin
      rw [forkMemory] at hparent
      rw [hchild, hparent]
  · intro page page' entry entry' hentry hentry'
    by_cases hin : page ∈ (forkGrants w s parent).map PageGrant.page
    · obtain ⟨g, hg, rfl⟩ := List.mem_map.1 hin
      rw [htables.granted g hg] at hentry
      cases hentry
      exact (h.apart g hg page' entry' hentry').symm
    · rw [(h.unmapped htables hin).1] at hentry
      cases hentry
  · intro cpu hcpu
    refine ⟨_, (hget s.nextPid).trans (if_pos rfl), ?_⟩
    rw [hcpu]
    exact ⟨rfl, rfl, (h.flags cpu hcpu).symm, rfl⟩
  · rw [hget, if_neg hne]

/-- In a copy the granted pages are pages of the parent, and writable. -/
theorem ForkedCopy.granted {s' : Machine}
    (h : ForkedCopy (w.order (s.clock + 1)) parent s.nextPid s s')
    (htables : ClonedTables w s parent (s'.settledMemory (w.order (s.clock + 1))).mmu)
    {g : PageGrant} (hg : g ∈ forkGrants w s parent) :
    ∃ entry, (forkMemory w s).mmu.mapped parent g.page = some entry ∧ entry.flags.writable = true := by
  have hone := h.pages g.page
  rw [htables.granted g hg, Option.map_some] at hone
  exact Option.map_eq_some_iff.1 hone.symm

/-- In a copy every page of the parent is a granted one. -/
theorem ForkedCopy.grant_of_mapped {s' : Machine}
    (h : ForkedCopy (w.order (s.clock + 1)) parent s.nextPid s s')
    (htables : ClonedTables w s parent (s'.settledMemory (w.order (s.clock + 1))).mmu)
    {page : VirtAddr} {entry : PageTableEntry}
    (hentry : (forkMemory w s).mmu.mapped parent page = some entry) :
    ∃ g ∈ forkGrants w s parent, g.page = page := by
  by_contra hnot
  have hone := h.pages page
  rw [htables.rest page fun hin => hnot (List.mem_map.1 hin), forkMemory, h.fresh.2] at hone
  have hnone := Option.map_eq_none_iff.1 hone.symm
  rw [forkMemory, hnone] at hentry
  cases hentry

/-- In a copy the pages of the parent are in memory, as the child can read the last byte of each. -/
theorem ForkedCopy.inMemory (hreach : s.Reached (bootMemory size swapImage)) {s' : Machine}
    (h : ForkedCopy (w.order (s.clock + 1)) parent s.nextPid s s')
    (hregular' : RegularService size (s'.settledMemory (w.order (s.clock + 1))))
    (htables : ClonedTables w s parent (s'.settledMemory (w.order (s.clock + 1))).mmu)
    {page : VirtAddr} {entry : PageTableEntry}
    (hentry : (forkMemory w s).mmu.mapped parent page = some entry) :
    entry.frame.toNat + 4096 ≤ size.toNat := by
  have hregular := regular_forkMemory hreach.comesFrom w
  obtain ⟨g, hg, rfl⟩ := h.grant_of_mapped htables hentry
  obtain ⟨hbase, hoff⟩ := page_offset (hregular.entry_ok parent _ entry hentry).1
    (show 4095 < 4096 by decide)
  have hchild := contents_granted hregular' htables hg (forkGrants_fits parent hregular g hg) hbase
  have hread := hregular.readU8_toOption parent (g.page + UInt64.ofNat 4095)
  rw [hbase, hoff, hentry, Option.bind_some] at hread
  have hsame := h.contents (g.page + UInt64.ofNat 4095)
  rw [hchild] at hsame
  rw [forkMemory, ← hsame] at hread
  split at hread
  · omega
  · cases hread

/-- The other way round: a copy needs all of the condition. -/
theorem ForkedCopy.clonable (hreach : s.Reached (bootMemory size swapImage))
    (hne : parent ≠ s.nextPid) (hanswered : forkAnswered w s parent = true) {s' : Machine}
    (hmemory : s'.settledMemory (w.order (s.clock + 1)) =
      (forkGrants w s parent).foldl (Machine.clonePage parent s.nextPid) (forkMemory w s))
    (hcpus : s'.cpus = s.cpus.insert (childCpu (s.cpus.get parent) s.nextPid))
    (h : ForkedCopy (w.order (s.clock + 1)) parent s.nextPid s s') : Clonable w s parent := by
  have hregular := regular_forkMemory hreach.comesFrom w
  have htables := clonedTables (w := w) hreach.comesFrom hne
  have hregular' := regular_foldl hregular parent s.nextPid (forkGrants w s parent)
  rw [← hmemory] at htables hregular'
  have hfits := forkGrants_fits parent hregular
  -- a page of the parent is in memory, since the child has its bytes
  have hin : ∀ page entry, (forkMemory w s).mmu.mapped parent page = some entry →
      entry.frame.toNat + 4096 ≤ size.toNat :=
    fun page entry hentry => h.inMemory hreach hregular' htables hentry
  -- frames of the child are none of the parent
  have hapart : ∀ g ∈ forkGrants w s parent, ∀ page entry,
      (forkMemory w s).mmu.mapped parent page = some entry → entry.frame ≠ frameAddress g.number := by
    intro g hg page entry hentry
    exact (h.disjoint g.page page _ entry (htables.granted g hg) hentry).symm
  have hclear : ∀ cpu, s.cpus.get parent = some cpu → cpu.flags = CPUFlags.new := by
    intro cpu hcpu
    obtain ⟨cpu', hget, -, -, hflags, -⟩ := h.cpu cpu hcpu
    rw [hcpus, CpuTable.get_insert, hcpu] at hget
    cases (if_pos rfl).symm.trans hget
    exact hflags.symm
  -- the pages that were granted are those of the parent
  have hcovered : ∀ page, ((forkMemory w s).mmu.mapped parent page).isSome = true ↔
      page ∈ (forkGrants w s parent).map PageGrant.page := by
    intro page
    constructor
    · intro hsome
      obtain ⟨entry, hentry⟩ := Option.isSome_iff_exists.1 hsome
      exact List.mem_map.2 (h.grant_of_mapped htables hentry)
    · intro hpage
      obtain ⟨g, hg, rfl⟩ := List.mem_map.1 hpage
      obtain ⟨entry, hentry, -⟩ := h.granted htables hg
      rw [hentry]
      rfl
  have hseparate : Separate (forkMemory w s).mmu size parent s.nextPid (forkGrants w s parent) := by
    refine ⟨forkGrants_pages_nodup, forkGrants_numbers_nodup hregular, hfits, ?_, hapart,
      fun g _ => h.fresh.2 g.page⟩
    intro g hg
    obtain ⟨entry, hentry, -⟩ := h.granted htables hg
    exact ⟨entry, hentry, hin g.page entry hentry⟩
  refine ⟨hanswered, hcovered, h.fresh.2, ?_, ?_, hapart, ?_, hclear⟩
  · intro page entry hentry
    obtain ⟨g, hg, rfl⟩ := h.grant_of_mapped htables hentry
    obtain ⟨entry', hentry', hwritable⟩ := h.granted htables hg
    rw [hentry] at hentry'
    cases hentry'
    exact hwritable
  · rw [hregular.size_eq]
    exact hin
  · intro g hg hlate entry hentry o ho
    -- a grant that came too late for the copy: the frame has the byte of the parent anyhow
    obtain ⟨hbase, hoff⟩ := page_offset (hregular.entry_ok parent _ entry hentry).1 ho
    have hchild := contents_granted hregular' htables hg (hfits g hg) hbase
    have hbytes := (foldl_data hne hregular hseparate).2 g hg entry hentry o ho
    have hinMemory := hin g.page entry hentry
    have hread := hregular.readU8_toOption parent (g.page + UInt64.ofNat o)
    rw [hbase, hoff, hentry, Option.bind_some, if_pos (by omega)] at hread
    have hsame := h.contents (g.page + UInt64.ofNat o)
    rw [hchild, hoff, hmemory, hbytes, if_neg (by rw [hlate]; decide)] at hsame
    rw [forkMemory] at hread ⊢
    rw [hread] at hsame
    exact Option.some.inj hsame

/-- A frame that is not free stays so while frames are handed out. -/
theorem not_free_allocate {m : MemoryService} (h : RegularService size m) (pid : Pid) {number : Nat}
    (hfree : number ∉ m.memoryManager.allocator.freeQueue) :
    number ∉ (m.memoryManager.allocateFrames pid 1).2.allocator.freeQueue := by
  cases hqueue : m.memoryManager.allocator.freeQueue with
  | nil =>
    have hsame : (m.memoryManager.allocateFrames pid 1).2 = m.memoryManager :=
      congrArg MemoryService.memoryManager (takeFrame_refused h pid hqueue)
    rw [hsame]
    exact hfree
  | cons first queue =>
    rw [(takeFrame_spec h.history.fit pid hqueue).queue_eq]
    rw [hqueue] at hfree
    exact fun hmem => hfree (List.mem_cons_of_mem first hmem)

/-- A frame that is in use is not handed out by the loop. -/
theorem not_free_foldl {m : MemoryService} (h : RegularService size m) (parent child : Pid)
    (gs : List PageGrant) {number : Nat} (hfree : number ∉ m.memoryManager.allocator.freeQueue) :
    number ∉ (gs.foldl (Machine.clonePage parent child) m).memoryManager.allocator.freeQueue := by
  induction gs generalizing m with
  | nil => exact hfree
  | cons g gs ih =>
    apply ih (regular_clonePage h parent child g)
    rw [clonePage_manager]
    exact not_free_allocate h child hfree

/-- A fork without an answer has taken a frame, unless there was none. -/
theorem aborted_nothing_iff (hreach : s.Reached (bootMemory size swapImage)) {s' : Machine}
    {done : List PageGrant} (hdone : done <+: forkGrants w s parent)
    (hmemory : s'.settledMemory (w.order (s.clock + 1)) =
      takeFrame (done.foldl (Machine.clonePage parent s.nextPid) (forkMemory w s)) s.nextPid)
    (htable : s'.processTable = s.processTable) :
    ForkedNothing (w.order (s.clock + 1)) s s' ↔
      (forkMemory w s).memoryManager.allocator.freeQueue = [] := by
  have hregular := regular_forkMemory hreach.comesFrom w
  constructor
  · intro hnothing
    by_contra hsome
    obtain ⟨number, queue, hqueue⟩ := List.exists_cons_of_ne_nil hsome
    have hnodup := hregular.history.fit.exact.queue_nodup
    rw [hqueue, List.nodup_cons] at hnodup
    have htaken := (takeFrame_spec hregular.history.fit s.nextPid hqueue).queue_eq
    -- the first free frame has been given away
    have hgone : number ∉
        (s'.settledMemory (w.order (s.clock + 1))).memoryManager.allocator.freeQueue := by
      rw [hmemory]
      cases done with
      | nil =>
        show number ∉ ((forkMemory w s).memoryManager.allocateFrames s.nextPid 1).2.allocator.freeQueue
        rw [htaken]
        exact hnodup.1
      | cons g done =>
        have hcloned := regular_clonePage hregular parent s.nextPid g
        apply not_free_allocate (regular_foldl hcloned parent s.nextPid done)
        apply not_free_foldl hcloned
        rw [clonePage_manager, htaken]
        exact hnodup.1
    have hregular' : RegularService size (s'.settledMemory (w.order (s.clock + 1))) := by
      rw [hmemory]
      exact regular_takeFrame (regular_foldl hregular parent s.nextPid done) s.nextPid
    have hframes := hnothing.frames
    apply hgone
    rw [hregular'.history.fit.exact.mem_queue_iff, hframes]
    refine (hregular.history.fit.exact.mem_queue_iff number).1 ?_
    rw [hqueue]
    exact List.mem_cons_self
  · intro hqueue
    have hgrants : forkGrants w s parent = [] := by
      rw [forkGrants, hqueue]
      cases forkPages w s parent <;> rfl
    rw [hgrants, List.prefix_nil] at hdone
    rw [hdone, List.foldl_nil, takeFrame_refused hregular s.nextPid hqueue] at hmemory
    refine ⟨?_, ?_, htable⟩
    · rw [hmemory]
      exact fun q page => rfl
    · rw [hmemory]
      rfl

/-- A fork clones the process or changes nothing exactly when the state lets it make a copy, or an
answer is missing and there is no frame to take. -/
theorem fork_clones_iff (hreach : s.Reached (bootMemory size swapImage)) (w : World)
    (hparent : parent ≠ 0) (hexists : (s.processTable.lookup parent).isSome = true) :
    ForkSound w s parent ↔ Clonable w s parent ∨
      forkAnswered w s parent = false ∧
        (forkMemory w s).memoryManager.allocator.freeQueue = [] := by
  have hne := parent_ne_child hreach hexists
  rcases forkImpl_looped (w := w) hreach.comesFrom hparent hexists with
    ⟨hanswered, s', hfork, hmemory, hcpus⟩ | ⟨hanswered, e, s', done, hfork, hdone, hmemory, htable⟩
  · simp only [ForkSound, hfork]
    constructor
    · intro hcopy
      exact Or.inl (hcopy.clonable hreach hne hanswered hmemory hcpus)
    · rintro (hclonable | ⟨hmissing, -⟩)
      · exact hclonable.forkedCopy hreach hne hmemory hcpus
      · rw [hanswered] at hmissing
        cases hmissing
  · simp only [ForkSound, hfork]
    rw [aborted_nothing_iff hreach hdone hmemory htable]
    constructor
    · exact fun hqueue => Or.inr ⟨hanswered, hqueue⟩
    · rintro (hclonable | ⟨-, hqueue⟩)
      · rw [hclonable.answered] at hanswered
        cases hanswered
      · exact hqueue

end fork

/-- A process with one page, in a memory of the given size. -/
def loadedMachine (size : UInt64) : Machine :=
  (run (World.calm haltCode) (bootMemory size fun _ => 0)
    [.envelope (.process (.execProcess 1 "halt" [] "")) false]).1

/-- The machine with a program is reached. -/
theorem loadedMachine_reached (size : UInt64) :
    (loadedMachine size).Reached (bootMemory size fun _ => 0) :=
  ⟨World.calm haltCode, _, Or.inl rfl⟩

theorem fork_clones_loaded : ForkSound (World.calm haltCode) (loadedMachine 8192) 1 := by
  refine (fork_clones_iff (loadedMachine_reached 8192) (World.calm haltCode) (by decide)
    (by decide +kernel)).2 (Or.inl ?_)
  have hentries : (forkMemory (World.calm haltCode) (loadedMachine 8192)).mmu.getPageEntries
      HashOrder.stored 1 = [(0, 0, ⟨true, true, true⟩)] := by decide +kernel
  have hgrants : forkGrants (World.calm haltCode) (loadedMachine 8192) 1 = [⟨0, 1, true⟩] := by
    decide +kernel
  have hmapped : ∀ page entry,
      (forkMemory (World.calm haltCode) (loadedMachine 8192)).mmu.mapped 1 page = some entry ↔
        page = 0 ∧ entry = ⟨0, ⟨true, true, true⟩⟩ := by
    rintro page ⟨frame, flags⟩
    rw [← MMU.mem_getPageEntries _ HashOrder.stored, hentries]
    simp
  refine ⟨by decide +kernel, ?_, ?_, ?_, ?_, ?_, ?_, ?_⟩
  · intro page
    rw [hgrants, Option.isSome_iff_exists]
    simp [hmapped]
  · intro page
    have hnone : (forkMemory (World.calm haltCode) (loadedMachine 8192)).mmu.getPageEntries
        HashOrder.stored (loadedMachine 8192).nextPid = [] := by decide +kernel
    cases hentry : (forkMemory (World.calm haltCode) (loadedMachine 8192)).mmu.mapped
        (loadedMachine 8192).nextPid page with
    | none => rfl
    | some entry =>
      have hmem := (MMU.mem_getPageEntries _ HashOrder.stored _ page entry.frame entry.flags).2 hentry
      rw [hnone] at hmem
      cases hmem
  · intro page entry hentry
    rw [((hmapped page entry).1 hentry).2]
  · intro page entry hentry
    rw [((hmapped page entry).1 hentry).2]
    decide +kernel
  · intro g hg page entry hentry
    rw [hgrants, List.mem_singleton] at hg
    rw [hg, ((hmapped page entry).1 hentry).2]
    decide +kernel
  · intro g hg hlate
    rw [hgrants, List.mem_singleton] at hg
    rw [hg] at hlate
    cases hlate
  · intro cpu hcpu
    have hflags : ((loadedMachine 8192).cpus.get 1).map VirtualCPU.flags = some CPUFlags.new := by
      decide +kernel
    rw [hcpu] at hflags
    exact Option.some.inj hflags

/-- Without a free frame the child has no page, and fork succeeds. -/
theorem fork_leaves_page_out :
    ((loadedMachine 4096).forkImpl (World.calm haltCode) 1).1.toOption = some 2 ∧
      ¬ForkSound (World.calm haltCode) (loadedMachine 4096) 1 := by
  have hok : ((loadedMachine 4096).forkImpl (World.calm haltCode) 1).1.toOption = some 2 := by
    decide +kernel
  refine ⟨hok, ?_⟩
  intro hsound
  rw [ForkSound] at hsound
  split at hsound
  · next child s' heq =>
    rw [heq] at hok
    cases Option.some.inj hok
    have hs' : s' = ((loadedMachine 4096).forkImpl (World.calm haltCode) 1).2 := by rw [heq]
    have hpages := hsound.pages 0
    rw [hs'] at hpages
    exact absurd hpages (by decide +kernel)
  · next heq =>
    rw [heq] at hok
    cases hok

end Machine

end GenshinOs.Process
