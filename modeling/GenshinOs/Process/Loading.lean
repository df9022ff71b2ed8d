import GenshinOs.Memory.Transparency
import GenshinOs.Process.Footprint
import GenshinOs.Process.Teardown

/-!
# Loading a program

Exec copies the image to address 0, the first argument to `0x100` and the second to `0x200`, over each
other and over whatever the frames held, and ignores every byte that it cannot write. The string is
read back up to a zero byte that nobody writes. `exec_delivers_iff` says when image and arguments can
be read back.
-/

set_option autoImplicit false

namespace GenshinOs.Process

open GenshinOs.Lib GenshinOs.Hardware GenshinOs.Memory

/-! ## A span of pages -/

theorem pageBase_of_mod {addr : UInt64} (h : addr.toNat % 4096 = 0) : pageBase addr = addr := by
  apply UInt64.toNat_inj.1
  have hsplit : (pageBase addr).toNat + addr.toNat % 4096 = addr.toNat :=
    PageSize.fourK.alignDown_add_offset addr
  omega

/-- The first `n` pages of a process, and no others, lie one after the other from `start` on. -/
structure Span (m : MMU) (pid : Pid) (start : PhysAddr) (n : Nat) : Prop where
  pageSize_eq : m.pageSize = PageSize.fourK
  mapped_eq : ∀ page, pageBase page = page → m.mapped pid page =
    if page.toNat < n * 4096 then some ⟨start + page, ⟨true, true, true⟩⟩ else none

/-- An address of the process that has a byte of memory behind it. -/
def Backed (start : PhysAddr) (size n v : Nat) : Prop :=
  v < n * 4096 ∧ v < UInt64.size ∧ (start + UInt64.ofNat v).toNat < size

instance (start : PhysAddr) (size n v : Nat) : Decidable (Backed start size n v) :=
  inferInstanceAs (Decidable (_ ∧ _ ∧ _))

/-- The byte behind an address. -/
def spanByte (m : MMU) (start : PhysAddr) (v : Nat) : UInt8 :=
  m.memory.data (start + UInt64.ofNat v).toNat

namespace Span

variable {m : MMU} {pid : Pid} {start : PhysAddr} {n : Nat}

theorem store (h : Span m pid start n) {m' : MMU} (hsame : SameTables m m') : Span m' pid start n := by
  refine ⟨hsame.pageSize_eq.trans h.pageSize_eq, ?_⟩
  intro page hpage
  rw [hsame.mapped_eq]
  exact h.mapped_eq page hpage

theorem toNat_lt_iff (v : UInt64) : (pageBase v).toNat < n * 4096 ↔ v.toNat < n * 4096 := by
  have hsplit : (pageBase v).toNat + v.toNat % 4096 = v.toNat :=
    PageSize.fourK.alignDown_add_offset v
  omega

theorem mapped_of (h : Span m pid start n) (v : UInt64) :
    m.mapped pid (m.alignDown v) =
      if v.toNat < n * 4096 then some ⟨start + pageBase v, ⟨true, true, true⟩⟩ else none := by
  have halign : m.alignDown v = pageBase v := by
    rw [MMU.alignDown, h.pageSize_eq]
    rfl
  have hpage : pageBase (pageBase v) = pageBase v := PageSize.fourK.alignDown_alignDown v
  rw [halign, h.mapped_eq _ hpage]
  simp only [toNat_lt_iff]

theorem place_eq (h : Span m pid start n) (v : UInt64) :
    start + pageBase v + (v - m.alignDown v) = start + v := by
  have halign : m.alignDown v = pageBase v := by
    rw [MMU.alignDown, h.pageSize_eq]
    rfl
  rw [halign, UInt64.add_assoc, UInt64.add_comm (pageBase v), UInt64.sub_add_cancel]

theorem inBounds_iff {size : Nat} (hsize : size < UInt64.size) (hm : m.memory.size = size) (a : Nat) :
    m.memory.InBounds a 1 ↔ a < size := by
  rw [PhysicalMemory.InBounds, hm]
  constructor
  · intro hb
    exact hb.2
  · intro hlt
    exact ⟨Nat.lt_of_le_of_lt hlt hsize, hlt⟩

/-- A read finds the byte behind the address, or fails. -/
theorem readU8_eq (h : Span m pid start n) {size : Nat} (hsize : size < UInt64.size)
    (hm : m.memory.size = size) {v : Nat} (hv : v < UInt64.size) (b : UInt8) :
    m.readU8 pid (UInt64.ofNat v) = .ok b ↔ Backed start size n v ∧ spanByte m start v = b := by
  have htoNat : (UInt64.ofNat v).toNat = v := UInt64.toNat_ofNat_of_lt' hv
  rw [MMU.readU8_eq_ok_iff]
  constructor
  · rintro ⟨paddr, htrans, hread⟩
    obtain ⟨entry, hentry, -, rfl⟩ := (m.translate_read_eq_ok_iff pid _ paddr).1 htrans
    rw [h.mapped_of, htoNat] at hentry
    split at hentry
    · next hlt =>
      cases hentry
      rw [h.place_eq] at hread
      obtain ⟨hb, hdata⟩ := (PhysicalMemory.readU8_eq_ok_iff _ _ _).1 hread
      exact ⟨⟨hlt, hv, (inBounds_iff hsize hm _).1 hb⟩, hdata⟩
    · cases hentry
  · rintro ⟨⟨hlt, -, hb⟩, hdata⟩
    refine ⟨start + UInt64.ofNat v, ?_, ?_⟩
    · have hentry := h.mapped_of (UInt64.ofNat v)
      rw [htoNat, if_pos hlt] at hentry
      exact (m.translate_read_eq_ok_iff pid _ _).2 ⟨_, hentry, rfl, (h.place_eq _).symm⟩
    · exact (PhysicalMemory.readU8_eq_ok_iff _ _ _).2 ⟨(inBounds_iff hsize hm _).2 hb, hdata⟩

/-- A byte that is written is found, and the others are as before. -/
theorem spanByte_writeU8Lossy (h : Span m pid start n) {size : Nat} (hsize : size < UInt64.size)
    (hm : m.memory.size = size) {k : Nat} (hk : k < UInt64.size) (b : UInt8) {v : Nat}
    (hv : Backed start size n v) :
    spanByte (m.writeU8Lossy pid (UInt64.ofNat k) b) start v =
      if v = k then b else spanByte m start v := by
  have hkNat : (UInt64.ofNat k).toNat = k := UInt64.toNat_ofNat_of_lt' hk
  have hvNat : (UInt64.ofNat v).toNat = v := UInt64.toNat_ofNat_of_lt' hv.2.1
  by_cases hback : Backed start size n k
  · have htrans : m.translate pid (UInt64.ofNat k) .write = .ok (start + UInt64.ofNat k) := by
      have hentry := h.mapped_of (UInt64.ofNat k)
      rw [hkNat, if_pos hback.1] at hentry
      exact (m.translate_write_eq_ok_iff pid _ _).2 ⟨_, hentry, rfl, rfl, (h.place_eq _).symm⟩
    have hwrite := (PhysicalMemory.writeU8_eq_ok_iff m.memory _ (start + UInt64.ofNat k).toNat b).2
      ⟨(inBounds_iff hsize hm _).2 hback.2.2, rfl⟩
    simp only [MMU.writeU8Lossy, MMU.writeU8, htrans, hwrite, spanByte, PhysicalMemory.store_data]
    -- different addresses of the process have different bytes behind them
    have hinj : (start + UInt64.ofNat v).toNat = (start + UInt64.ofNat k).toNat ↔ v = k := by
      constructor
      · intro heq
        have hsame := (UInt64.add_right_inj start).1 (UInt64.toNat_inj.1 heq)
        rw [← hvNat, ← hkNat, hsame]
      · rintro rfl
        rfl
    simp only [hinj]
  · have hne : v ≠ k := by
      rintro rfl
      exact hback hv
    have hskip : m.writeU8Lossy pid (UInt64.ofNat k) b = m := by
      rcases m.writeU8Lossy_cases pid (UInt64.ofNat k) b with heq | hok
      · exact heq
      · exfalso
        obtain ⟨paddr, htrans, hb, -⟩ := MMU.writeU8_eq_ok hok
        obtain ⟨entry, hentry, -, -, rfl⟩ := (m.translate_write_eq_ok_iff pid _ paddr).1 htrans
        rw [h.mapped_of, hkNat] at hentry
        split at hentry
        · next hlt =>
          cases hentry
          rw [h.place_eq] at hb
          exact hback ⟨hlt, hk, (inBounds_iff hsize hm _).1 hb⟩
        · cases hentry
    rw [hskip, if_neg hne]

/-- A copy is found where it was written, and the rest is as before. -/
theorem spanByte_copy {size : Nat} (hsize : size < UInt64.size) (data : List UInt8) {m : MMU}
    (h : Span m pid start n) (hm : m.memory.size = size) {base k : Nat}
    (hbase : base + k + data.length < UInt64.size) {v : Nat} (hv : Backed start size n v) :
    spanByte ((data.zipIdx k).foldl
        (fun m e => m.writeU8Lossy pid (UInt64.ofNat base + UInt64.ofNat e.2) e.1) m) start v =
      (if base + k ≤ v then data[v - (base + k)]? else none).getD (spanByte m start v) := by
  induction data generalizing m k with
  | nil => simp
  | cons b data ih =>
    rw [List.length_cons] at hbase
    have hk : base + k < UInt64.size := by omega
    have haddr : UInt64.ofNat base + UInt64.ofNat k = UInt64.ofNat (base + k) := by
      rw [UInt64.ofNat_add]
    have hsame := sameTables_writeU8Lossy m pid (UInt64.ofNat (base + k)) b
    have hone := h.spanByte_writeU8Lossy hsize hm hk b hv
    rw [List.zipIdx_cons, List.foldl_cons, haddr,
      ih (h.store hsame) (hsame.size_eq.trans hm) (by omega), hone]
    -- before, at and behind the first byte
    rcases Nat.lt_trichotomy v (base + k) with hlt | heq | hgt
    · rw [if_neg (by omega), if_neg (by omega), if_neg (by omega)]
    · rw [if_neg (by omega), if_pos heq, if_pos (by omega), heq]
      simp
    · rw [if_pos (by omega), if_neg (by omega), if_pos (by omega)]
      have hsub : v - (base + k) = v - (base + (k + 1)) + 1 := by omega
      rw [hsub, List.getElem?_cons_succ]

theorem spanByte_writeBytes (h : Span m pid start n) {size : Nat} (hsize : size < UInt64.size)
    (hm : m.memory.size = size) (base : Nat) {data : List UInt8}
    (hbase : base + data.length < UInt64.size) {v : Nat} (hv : Backed start size n v) :
    spanByte (m.writeBytes pid (UInt64.ofNat base) data) start v =
      (if base ≤ v then data[v - base]? else none).getD (spanByte m start v) :=
  spanByte_copy hsize data h hm (k := 0) hbase hv

/-- One more page behind the last one. -/
theorem map_next (h : Span m pid start n) (hstart : pageBase start = start)
    (hn : n * 4096 < UInt64.size) :
    Span (MemoryService.mapLossy m pid (UInt64.ofNat (n * 4096)) (start + UInt64.ofNat n * 4096)
      ⟨true, true, true⟩) pid start (n + 1) := by
  obtain ⟨-, hps, hmapped⟩ := MemoryService.mapLossy_spec m pid (UInt64.ofNat (n * 4096))
    (start + UInt64.ofNat n * 4096) ⟨true, true, true⟩
  have halign : ∀ addr, m.alignDown addr = pageBase addr := by
    intro addr
    rw [MMU.alignDown, h.pageSize_eq]
    rfl
  have hnew : (UInt64.ofNat (n * 4096)).toNat = n * 4096 := UInt64.toNat_ofNat_of_lt' hn
  have hpage : pageBase (UInt64.ofNat (n * 4096)) = UInt64.ofNat (n * 4096) :=
    pageBase_of_mod (by omega)
  -- the loader multiplies in words, which agrees as long as the pages fit
  have hmul : UInt64.ofNat n * 4096 = UInt64.ofNat (n * 4096) := by
    rw [UInt64.ofNat_mul]
    rfl
  have hframe : pageBase (start + UInt64.ofNat (n * 4096)) = start + UInt64.ofNat (n * 4096) := by
    apply pageBase_of_mod
    have hmod : start.toNat % 4096 = 0 := frame_mod hstart
    rw [UInt64.toNat_add, hnew]
    omega
  refine ⟨hps.trans h.pageSize_eq, ?_⟩
  intro page hpaged
  have hpagemod : page.toNat % 4096 = 0 := frame_mod hpaged
  rw [hmapped, halign, halign, hpage, hmul, hframe, h.mapped_eq page hpaged]
  by_cases heq : page = UInt64.ofNat (n * 4096)
  · rw [if_pos ⟨rfl, heq⟩, if_pos (by rw [heq, hnew]; omega), heq]
  · have hne : page.toNat ≠ n * 4096 := by
      intro hnat
      apply heq
      apply UInt64.toNat_inj.1
      rw [hnew, hnat]
    rw [if_neg (fun hand => heq hand.2)]
    have hlt : page.toNat < n * 4096 ↔ page.toNat < (n + 1) * 4096 := by omega
    simp only [hlt]

end Span

/-! ## Mapping the frames -/

namespace Machine

/-- Whatever order the hash maps have, the messages on their way lead to this service. -/
def Settles (s : Machine) (m : MemoryService) : Prop := ∀ ord, s.settledMemory ord = m

/-- The service with one more page mapped. -/
def mapInto (m : MemoryService) (pid : Pid) (virt : VirtAddr) (phys : PhysAddr) : MemoryService :=
  { m with mmu := MemoryService.mapLossy m.mmu pid virt phys ⟨true, true, true⟩ }

theorem Settles.requestMap {s : Machine} {m : MemoryService} (h : Settles s m) (w : World) (pid : Pid)
    (virt : VirtAddr) (phys : PhysAddr) :
    Settles (s.requestMemory w (.mapPage pid virt phys ⟨true, true, true⟩)).2
      (mapInto m pid virt phys) := by
  intro ord
  simp only [requestMemory]
  split
  · have hsettled := h (w.order s.clock)
    rw [settledMemory] at hsettled
    simp only [settledMemory, hsettled, List.foldl_nil]
    rfl
  · have hsettled := h ord
    rw [settledMemory] at hsettled ⊢
    rw [List.foldl_append, hsettled]
    rfl

/-- The mappings of a list of frames. -/
def mapAll (pid : Pid) : Nat → List PhysAddr → MemoryService → MemoryService
  | _, [], m => m
  | i, addr :: rest, m => mapAll pid (i + 1) rest (mapInto m pid (UInt64.ofNat (i * 4096)) addr)

theorem mapAll_frame (pid : Pid) (i : Nat) (frames : List PhysAddr) (m : MemoryService) :
    (mapAll pid i frames m).mmu.memory = m.mmu.memory := by
  induction frames generalizing i m with
  | nil => rfl
  | cons addr rest ih =>
    rw [mapAll, ih]
    exact (MemoryService.mapLossy_spec m.mmu pid _ addr ⟨true, true, true⟩).1

/-- Frames counted up from the first address extend the span. -/
theorem mapAll_span {pid : Pid} {start : PhysAddr} (hstart : pageBase start = start) (count i : Nat)
    (hcount : (i + count) * 4096 ≤ UInt64.size) {m : MemoryService} (h : Span m.mmu pid start i) :
    Span (mapAll pid i ((List.range' i count).map fun j => start + UInt64.ofNat j * 4096) m).mmu pid
      start (i + count) := by
  induction count generalizing i m with
  | zero => exact h
  | succ count ih =>
    have hnext : Span (mapInto m pid (UInt64.ofNat (i * 4096)) (start + UInt64.ofNat i * 4096)).mmu pid
        start (i + 1) := h.map_next hstart (by omega)
    rw [List.range'_succ, List.map_cons, mapAll, show i + (count + 1) = i + 1 + count by omega]
    exact ih (i + 1) (by rwa [Nat.add_right_comm, Nat.add_assoc]) hnext

/-- When the last request is answered in time, all pages are mapped. -/
theorem mapFrames_timely {w : World} {pid : Pid} {frames : List PhysAddr} (hne : frames ≠ []) {i : Nat}
    {s : Machine} {m : MemoryService} (h : Settles s m)
    (htimely : w.timely (s.clock + frames.length - 1) = true) :
    (mapFrames w pid i frames s).memory = mapAll pid i frames m := by
  induction frames generalizing i s m with
  | nil => exact absurd rfl hne
  | cons addr rest ih =>
    have hrequest := h.requestMap w pid (UInt64.ofNat (i * 4096)) addr
    cases rest with
    | nil =>
      have hnow : w.timely s.clock = true := htimely
      have hsettled := hrequest HashOrder.stored
      rw [mapFrames, mapFrames, mapAll, mapAll, ← hsettled]
      simp [requestMemory, hnow, settledMemory]
    | cons addr' rest =>
      rw [mapFrames, mapAll]
      apply ih (by simp) hrequest
      have hclock : (s.requestMemory w (.mapPage pid (UInt64.ofNat (i * 4096)) addr
          ⟨true, true, true⟩)).2.clock = s.clock + 1 := by
        simp only [requestMemory]
        split <;> rfl
      rw [hclock, ← htimely]
      congr 1
      simp only [List.length_cons]
      omega

theorem mapLossy_other {m : MMU} {pid : Pid} {page virt : VirtAddr} {phys : PhysAddr}
    (hnone : m.mapped pid page = none) (hne : page ≠ m.alignDown virt) :
    (MemoryService.mapLossy m pid virt phys ⟨true, true, true⟩).mapped pid page = none := by
  obtain ⟨-, -, hmapped⟩ := MemoryService.mapLossy_spec m pid virt phys ⟨true, true, true⟩
  rw [hmapped, if_neg (fun h => hne h.2), hnone]

/-- When the last request is late, its page is not mapped. -/
theorem mapFrames_late {w : World} {pid : Pid} {frames : List PhysAddr} (hne : frames ≠ []) {i : Nat}
    {s : Machine} {m : MemoryService} (h : Settles s m) (hps : m.mmu.pageSize = PageSize.fourK)
    (hbound : (i + frames.length) * 4096 ≤ UInt64.size)
    (hlate : w.timely (s.clock + frames.length - 1) = false)
    (hnow : s.mmu.mapped pid (UInt64.ofNat ((i + frames.length - 1) * 4096)) = none)
    (hlater : m.mmu.mapped pid (UInt64.ofNat ((i + frames.length - 1) * 4096)) = none) :
    (mapFrames w pid i frames s).mmu.mapped pid
      (UInt64.ofNat ((i + frames.length - 1) * 4096)) = none := by
  induction frames generalizing i s m with
  | nil => exact absurd rfl hne
  | cons addr rest ih =>
    have hrequest := h.requestMap w pid (UInt64.ofNat (i * 4096)) addr
    cases rest with
    | nil =>
      have hclock : w.timely s.clock = false := hlate
      rw [mapFrames, mapFrames, requestMemory, hclock]
      exact hnow
    | cons addr' rest =>
      -- the request for an earlier page, in time or not, leaves the last page alone
      simp only [List.length_cons] at hbound hlate hnow hlater ⊢
      have hindex : i + (rest.length + 1 + 1) - 1 = i + 1 + (rest.length + 1) - 1 := by omega
      rw [hindex] at hnow hlater ⊢
      have hother : UInt64.ofNat ((i + 1 + (rest.length + 1) - 1) * 4096) ≠
          m.mmu.alignDown (UInt64.ofNat (i * 4096)) := by
        have hthis : (UInt64.ofNat (i * 4096)).toNat = i * 4096 :=
          UInt64.toNat_ofNat_of_lt' (by omega)
        have hlast : (UInt64.ofNat ((i + 1 + (rest.length + 1) - 1) * 4096)).toNat =
            (i + 1 + (rest.length + 1) - 1) * 4096 := UInt64.toNat_ofNat_of_lt' (by omega)
        have halign : m.mmu.alignDown (UInt64.ofNat (i * 4096)) = UInt64.ofNat (i * 4096) := by
          rw [MMU.alignDown, hps]
          exact pageBase_of_mod (by omega)
        intro heq
        have hnat := congrArg UInt64.toNat heq
        rw [halign, hthis, hlast] at hnat
        omega
      have hclock : (s.requestMemory w (.mapPage pid (UInt64.ofNat (i * 4096)) addr
          ⟨true, true, true⟩)).2.clock = s.clock + 1 := by
        simp only [requestMemory]
        split <;> rfl
      rw [mapFrames]
      have hps' : (mapInto m pid (UInt64.ofNat (i * 4096)) addr).mmu.pageSize = PageSize.fourK :=
        (MemoryService.mapLossy_spec m.mmu pid _ addr _).2.1.trans hps
      have hbound' : (i + 1 + (rest.length + 1)) * 4096 ≤ UInt64.size := by
        rwa [Nat.add_right_comm, Nat.add_assoc]
      refine ih (by simp) hrequest hps' hbound' ?_ ?_ (mapLossy_other hlater hother)
      · rw [hclock, ← hlate]
        congr 1
        simp only [List.length_cons]
        omega
      · simp only [requestMemory]
        split
        · have hsettled := h (w.order s.clock)
          rw [settledMemory] at hsettled
          simp only [hsettled]
          exact mapLossy_other hlater hother
        · exact hnow

/-! ## The request for frames -/

/-- Frames that were granted were granted in time: nothing is on its way any more. -/
theorem allocFrames_settled {w : World} {s s' : Machine} {count : Nat} {pid : Pid}
    {addrs : List PhysAddr} (h : allocFrames w s count pid = (.ok addrs, s')) :
    s'.memoryQueue = [] ∧ s'.clock = s.clock + 1 ∧ s'.mmu = (s.pendingMemory w).mmu := by
  simp only [allocFrames] at h
  split at h
  · cases h
  · next start s'' heq =>
    cases h
    simp only [requestMemory] at heq
    split at heq
    · have hstate := congrArg Prod.snd heq
      replace hstate : _ = s' := hstate
      rw [← hstate]
      exact ⟨rfl, rfl, serve_allocFrame_mmu _ _ count pid⟩
    · cases heq
  · cases h

/-- The first frame that exec is given: the first free one when the messages on their way have been
handled. -/
def loadAddress (w : World) (s : Machine) : PhysAddr :=
  (((s.settledMemory (w.order (s.clock + 1))).memoryManager.allocator.freeQueue.head?).map
    frameAddress).getD 0

theorem foldl_unmap_manager (ord : HashOrder) (pid : Pid) (virts : List VirtAddr) (m : MemoryService) :
    (virts.foldl (fun m virt => serve ord m (.unmapPage pid virt, false)) m).memoryManager =
      m.memoryManager := by
  induction virts generalizing m with
  | nil => rfl
  | cons virt virts ih =>
    rw [List.foldl_cons, ih]
    simp only [serve, Bool.false_eq_true, if_false, MemoryService.handleMessage,
      MemoryService.handleMemoryRequest, MemoryService.handleUnmapPage]
    split <;> rfl

/-- The machine when exec asks for frames: the pages are being given up. -/
def tornDown (w : World) (s : Machine) (pid : Pid) : Machine :=
  (s.mmu.getPageEntries (w.order s.clock) pid).foldl
    (fun s entry => s.sendMemory (.unmapPage pid entry.1)) s.advance

theorem tornDown_pending (w : World) (s : Machine) (pid : Pid) :
    (tornDown w s pid).pendingMemory w =
      (unmappedPages w s pid).foldl
        (fun m virt => serve (w.order (s.clock + 1)) m (.unmapPage pid virt, false))
        (s.settledMemory (w.order (s.clock + 1))) := by
  rw [tornDown,
    foldl_sendMemory (fun entry : VirtAddr × PhysAddr × PageFlags => .unmapPage pid entry.1)]
  simp only [pendingMemory, advance, List.foldl_append, settledMemory, unmappedPages, List.foldl_map]

/-- What exec has when it starts to copy: nothing of the old pages, and its frames in a row. -/
structure Granted (w : World) (s : Machine) (pid : Pid) (n : Nat) (frames : List PhysAddr)
    (s' : Machine) : Prop where
  queue_eq : s'.memoryQueue = []
  clock_eq : s'.clock = s.clock + 2
  memory_eq : s'.mmu.memory = (s.settledMemory (w.order (s.clock + 1))).mmu.memory
  pageSize_eq : s'.mmu.pageSize = PageSize.fourK
  pageless : ∀ page, s'.mmu.mapped pid page = none
  frames_eq : frames = (List.range n).map fun i => loadAddress w s + UInt64.ofNat i * 4096
  aligned : pageBase (loadAddress w s) = loadAddress w s
  fits : n * 4096 ≤ s.mmu.memory.size

/-- No message on its way maps a page for the process. -/
def NoLatePages (w : World) (s : Machine) (pid : Pid) : Prop :=
  ∀ page, ((s.settledMemory (w.order (s.clock + 1))).mmu.mapped pid page).isSome →
    (s.mmu.mapped pid page).isSome

theorem regular_settled {size : UInt64} {swapImage : Nat → UInt8} {s : Machine}
    (hreach : s.ComesFrom (bootMemory size swapImage)) (ord : HashOrder) :
    RegularService size (s.settledMemory ord) :=
  (Touched.foldl_serve ord s.memoryQueue hreach).regular

/-- The frames that are granted are the first free ones. -/
theorem grantedFrames_first {w : World} {s : Machine} {size : UInt64} {count : Nat} {pid : Pid}
    (hfit : FramesFit size (s.pendingMemory w).memoryManager)
    (hlen : (s.grantedFrames w count pid).length = count) :
    count ≤ (s.pendingMemory w).memoryManager.allocator.freeQueue.length ∧
      (0 < count → ((s.grantedFrames w count pid).head?.map Frame.address) =
        (s.pendingMemory w).memoryManager.allocator.freeQueue.head?.map frameAddress) := by
  have henough := count_le_of_granted hfit.exact hlen
  refine ⟨henough, ?_⟩
  intro hpos
  obtain ⟨granted, manager, halloc, hgrant⟩ :=
    PhysicalMemoryManager.allocateFrames_grant hfit.exact pid henough
  rw [grantedFrames, halloc]
  have hnumbers := congrArg List.head? hgrant.numbers
  rw [List.head?_map, List.head?_take, if_neg (by omega)] at hnumbers
  rw [← hnumbers, Option.map_map]
  cases granted with
  | nil => rfl
  | cons f rest =>
    have hat := (hgrant.owned f List.mem_cons_self).1
    have haddress := hgrant.exact.address_eq f.number f hat
    rw [hgrant.frameSize_eq, hfit.frameSize_eq] at haddress
    simp only [List.head?_cons, Option.map_some, Function.comp_apply, haddress, frameAddress]

theorem granted_of_allocFrames {w : World} {s s' : Machine} {size : UInt64} {swapImage : Nat → UInt8}
    (hreach : s.ComesFrom (bootMemory size swapImage)) {pid : Pid} (hlate : NoLatePages w s pid)
    {n : Nat} {frames : List PhysAddr}
    (h : allocFrames w (tornDown w s pid) n pid = (.ok frames, s')) : Granted w s pid n frames s' := by
  have hregular := regular_settled hreach (w.order (s.clock + 1))
  have hpending := tornDown_pending w s pid
  obtain ⟨hqueue, hclock, hmmu⟩ := allocFrames_settled h
  obtain ⟨hmem, hmapped⟩ := foldl_unmap (w.order (s.clock + 1)) pid (unmappedPages w s pid)
    (s.settledMemory (w.order (s.clock + 1)))
  have hmanager := foldl_unmap_manager (w.order (s.clock + 1)) pid (unmappedPages w s pid)
    (s.settledMemory (w.order (s.clock + 1)))
  rw [← hpending] at hmem hmapped hmanager
  obtain ⟨hlen, -, haddrs⟩ := allocFrames_ok h
  have hfit : FramesFit size ((tornDown w s pid).pendingMemory w).memoryManager := by
    rw [hmanager]
    exact hregular.history.fit
  obtain ⟨henough, hhead⟩ := grantedFrames_first hfit hlen
  have hclock' : (tornDown w s pid).clock = s.clock + 1 := by
    rw [tornDown,
      foldl_sendMemory (fun entry : VirtAddr × PhysAddr × PageFlags => .unmapPage pid entry.1)]
    rfl
  have hsize : s.mmu.memory.size = size.toNat := hreach.regular.size_eq
  refine ⟨hqueue, by rw [hclock, hclock'], by rw [hmmu, hmem], ?_, ?_, ?_, ?_, ?_⟩
  · have htorn : (tornDown w s pid).ComesFrom (bootMemory size swapImage) := by
      rw [tornDown,
        foldl_sendMemory (fun entry : VirtAddr × PhysAddr × PageFlags => .unmapPage pid entry.1)]
      exact hreach
    rw [hmmu]
    exact (regular_settled htorn (w.order (tornDown w s pid).clock)).pageSize_eq
  · intro page
    rw [hmmu, hmapped]
    split
    · rfl
    · next hkept =>
      -- a page that is left was mapped at the call, so it was given up
      by_contra hleft
      have hsome := Option.isSome_iff_ne_none.2 hleft
      obtain ⟨entry, hentry⟩ := Option.isSome_iff_exists.1 hsome
      have hpage := (hregular.entry_ok pid page entry hentry).1
      refine hkept ⟨rfl, List.mem_map.2 ⟨page, (mem_unmappedPages w s pid page).2 (hlate page hsome), ?_⟩⟩
      rw [hregular.alignDown_eq, hpage]
  · rcases Nat.eq_zero_or_pos n with rfl | hpos
    · exact haddrs
    · rw [haddrs, hhead hpos, hmanager]
      rfl
  · rw [loadAddress]
    cases (s.settledMemory (w.order (s.clock + 1))).memoryManager.allocator.freeQueue.head? with
    | none => rfl
    | some k =>
      apply pageBase_of_mod
      rw [Option.map_some, Option.getD_some, frameAddress, UInt64.toNat_ofNat']
      omega
  · rw [hmanager] at henough hfit
    rw [← hfit.exact.freeCount_eq] at henough
    have htotal := Nat.le_trans henough (Nat.le.intro hfit.exact.count_add)
    rw [hsize]
    exact Nat.le_trans (Nat.mul_le_mul_right 4096 htotal) hfit.total_le

/-! ## What is found in the memory of the process -/

/-- Image and arguments, the frames they are copied to and what these held. -/
structure Layout where
  code : List UInt8
  first : List UInt8
  second : List UInt8
  start : PhysAddr
  size : Nat
  old : Nat → UInt8

namespace Layout

/-- The pages that the image needs. -/
def pages (l : Layout) : Nat := (l.code.length + 4095) / 4096

/-- The last byte copied to an address: the second argument goes over the first one, and both go over
the image. -/
def copied (l : Layout) (v : Nat) : Option UInt8 :=
  ((if 0x200 ≤ v then l.second[v - 0x200]? else none).or
    (if 0x100 ≤ v then l.first[v - 0x100]? else none)).or l.code[v]?

theorem copied_second (l : Layout) {j : Nat} (h : j < l.second.length) :
    l.copied (0x200 + j) = some l.second[j] := by
  rw [copied, if_pos (Nat.le_add_right _ _), Nat.add_sub_cancel_left, List.getElem?_eq_getElem h]
  rfl

/-- On the image something has been copied. -/
theorem copied_isSome (l : Layout) {v : Nat} (h : v < l.code.length) : ∃ b, l.copied v = some b := by
  have hcode : l.code[v]?.isSome = true := by simp [h]
  apply Option.isSome_iff_exists.1
  rw [copied, Option.isSome_or, hcode, Bool.or_true]

/-- The byte found at an address, `0` where there is no memory. -/
def byteAt (l : Layout) (v : Nat) : UInt8 :=
  if Backed l.start l.size l.pages v then
    (l.copied v).getD (l.old (l.start + UInt64.ofNat v).toNat)
  else 0

/-- The image and the second argument have memory behind them, no argument goes over a different byte
of the image, and the bytes from `0x100` to the first zero are the first argument. -/
structure Intact (l : Layout) (path : String) : Prop where
  image : ∀ v < l.code.length, Backed l.start l.size l.pages v ∧ l.copied v = l.code[v]?
  second : ∀ j < l.second.length, Backed l.start l.size l.pages (0x200 + j)
  first : fromUtf8Lossy (((List.range 256).map fun j => l.byteAt (0x100 + j)).takeWhile (· != 0)) =
    path

end Layout

/-- Image and arguments can be read back. -/
structure Delivered (s : Machine) (pid : Pid) (code : List UInt8) (path data : String) : Prop where
  first : s.readStringVirt pid 0x100 = path
  second : s.readBytesVirt pid 0x200 (textBytes data).length = textBytes data
  image : ∀ v (h : v < code.length), s.mmu.readU8 pid (UInt64.ofNat v) = .ok code[v]

/-- A machine in which the layout is in place. -/
structure Placed (s : Machine) (pid : Pid) (l : Layout) : Prop where
  span : Span s.mmu pid l.start l.pages
  size_eq : s.mmu.memory.size = l.size
  size_lt : l.size < UInt64.size
  byte_eq : ∀ v, Backed l.start l.size l.pages v →
    spanByte s.mmu l.start v = (l.copied v).getD (l.old (l.start + UInt64.ofNat v).toNat)

namespace Placed

variable {s : Machine} {pid : Pid} {l : Layout}

theorem readBytesVirt_eq (h : Placed s pid l) {base len : Nat} (hlen : base + len ≤ UInt64.size) :
    s.readBytesVirt pid (UInt64.ofNat base) len =
      (List.range len).map fun j => l.byteAt (base + j) := by
  apply List.map_congr_left
  intro j hj
  have hlt : base + j < UInt64.size := by
    have := List.mem_range.1 hj
    omega
  have hread := h.span.readU8_eq h.size_lt h.size_eq hlt
  rw [← UInt64.ofNat_add, Layout.byteAt]
  split
  · next b hok =>
    obtain ⟨hback, hbyte⟩ := (hread b).1 hok
    rw [if_pos hback, ← h.byte_eq _ hback, hbyte]
  · next e herror =>
    rw [if_neg]
    intro hback
    rw [(hread _).2 ⟨hback, rfl⟩] at herror
    cases herror

theorem delivered_iff (h : Placed s pid l) {path data : String}
    (hsecond : l.second = textBytes data) (hnul : 0 ∉ textBytes data)
    (hlen : 0x200 + l.second.length < UInt64.size) (hcode : l.code.length ≤ l.pages * 4096)
    (hpages : l.pages * 4096 ≤ UInt64.size) :
    Delivered s pid l.code path data ↔ l.Intact path := by
  have hfirst : s.readStringVirt pid 0x100 = path ↔ fromUtf8Lossy (((List.range 256).map
      fun j => l.byteAt (0x100 + j)).takeWhile (· != 0)) = path := by
    rw [readStringVirt, show (0x100 : VirtAddr) = UInt64.ofNat 0x100 by rfl,
      h.readBytesVirt_eq (by decide)]
  have hsecond' : s.readBytesVirt pid 0x200 (textBytes data).length = textBytes data ↔
      ∀ j < l.second.length, Backed l.start l.size l.pages (0x200 + j) := by
    rw [show (0x200 : VirtAddr) = UInt64.ofNat 0x200 by rfl, ← hsecond,
      h.readBytesVirt_eq (Nat.le_of_lt hlen)]
    constructor
    · intro heq j hj
      -- an address without memory reads as zero, which the argument does not contain
      by_contra hback
      have hbyte : l.byteAt (0x200 + j) = l.second[j] := by
        have hget := congrArg (fun bytes => bytes[j]?) heq
        simpa [hj] using hget
      rw [Layout.byteAt, if_neg hback] at hbyte
      rw [← hsecond, hbyte] at hnul
      exact hnul (List.getElem_mem hj)
    · intro hback
      apply List.ext_getElem (by simp)
      intro j _ hj
      rw [List.getElem_map, List.getElem_range, Layout.byteAt, if_pos (hback j hj), l.copied_second hj]
      rfl
  have himage : (∀ v (hv : v < l.code.length), s.mmu.readU8 pid (UInt64.ofNat v) = .ok l.code[v]) ↔
      ∀ v < l.code.length, Backed l.start l.size l.pages v ∧ l.copied v = l.code[v]? := by
    have hone : ∀ v (hv : v < l.code.length), s.mmu.readU8 pid (UInt64.ofNat v) = .ok l.code[v] ↔
        Backed l.start l.size l.pages v ∧ l.copied v = l.code[v]? := by
      intro v hv
      obtain ⟨b, hb⟩ := l.copied_isSome hv
      rw [h.span.readU8_eq h.size_lt h.size_eq (Nat.lt_of_lt_of_le hv (hcode.trans hpages)), hb,
        List.getElem?_eq_getElem hv]
      apply and_congr_right
      intro hback
      rw [h.byte_eq v hback, hb, Option.some_inj]
      rfl
    exact forall_congr' fun v => forall_congr' fun hv => hone v hv
  constructor
  · rintro ⟨h1, h2, h3⟩
    exact ⟨himage.1 h3, hsecond'.1 h2, hfirst.1 h1⟩
  · rintro ⟨h3, h2, h1⟩
    exact ⟨hfirst.2 h1, hsecond'.2 h2, himage.2 h3⟩

end Placed

/-! ## Exec -/

/-- What exec copies where. -/
def execLayout (w : World) (s : Machine) (code : List UInt8) (path data : String) : Layout where
  code := code
  first := textBytes path
  second := textBytes data
  start := loadAddress w s
  size := s.mmu.memory.size
  old := (s.settledMemory (w.order (s.clock + 1))).mmu.memory.data

theorem le_pages (l : Layout) : l.code.length ≤ l.pages * 4096 := by
  rw [Layout.pages]
  omega

/-- The three copies put the layout in place. -/
theorem placed_of_loadImage {s : Machine} {pid : Pid} {l : Layout} {path data : String}
    (hfirst : l.first = textBytes path) (hsecond : l.second = textBytes data)
    (hspan : Span s.mmu pid l.start l.pages) (hsize : s.mmu.memory.size = l.size)
    (hlt : l.size < UInt64.size) (hpages : l.pages * 4096 ≤ l.size)
    (hold : s.mmu.memory.data = l.old) (hpath : 0x100 + (textBytes path).length < UInt64.size)
    (hdata : 0x200 + (textBytes data).length < UInt64.size) :
    Placed (loadImage s pid l.code [path, data]) pid l := by
  have hcode : 0 + l.code.length < UInt64.size := by
    have hle := le_pages l
    omega
  have hsame1 := sameTables_writeBytes s.mmu pid 0 l.code
  have hsame2 := hsame1.trans (sameTables_writeBytes (s.mmu.writeBytes pid 0 l.code) pid 0x100
    (textBytes path))
  have hsame3 := hsame2.trans (sameTables_writeBytes ((s.mmu.writeBytes pid 0 l.code).writeBytes pid
    0x100 (textBytes path)) pid 0x200 (textBytes data))
  refine ⟨hspan.store hsame3, hsame3.size_eq.trans hsize, hlt, ?_⟩
  intro v hv
  have hcopy1 := hspan.spanByte_writeBytes hlt hsize 0 hcode hv
  have hcopy2 := (hspan.store hsame1).spanByte_writeBytes hlt (hsame1.size_eq.trans hsize) 0x100
    hpath hv
  have hcopy3 := (hspan.store hsame2).spanByte_writeBytes hlt (hsame2.size_eq.trans hsize) 0x200
    hdata hv
  have hbytes : spanByte s.mmu l.start v = l.old (l.start + UInt64.ofNat v).toNat := by
    rw [spanByte, hold]
  rw [Layout.copied, hfirst, hsecond, Option.getD_or, Option.getD_or, ← hbytes]
  rw [if_pos (Nat.zero_le v)] at hcopy1
  exact hcopy3.trans (congrArg _ (hcopy2.trans (congrArg _ hcopy1)))

theorem Delivered.congr {s s' : Machine} (h : s'.mmu = s.mmu) (pid : Pid) (code : List UInt8)
    (path data : String) : Delivered s' pid code path data ↔ Delivered s pid code path data := by
  have hbytes : ∀ vaddr len, s'.readBytesVirt pid vaddr len = s.readBytesVirt pid vaddr len := by
    intro vaddr len
    rw [readBytesVirt, h]
    rfl
  constructor
  · rintro ⟨hfirst, hsecond, himage⟩
    rw [readStringVirt, hbytes] at hfirst
    rw [hbytes] at hsecond
    rw [h] at himage
    exact ⟨hfirst, hsecond, himage⟩
  · rintro ⟨hfirst, hsecond, himage⟩
    refine ⟨?_, ?_, ?_⟩
    · rw [readStringVirt, hbytes]
      exact hfirst
    · rw [hbytes]
      exact hsecond
    · rw [h]
      exact himage

/-- With a late last page, the image is not there. -/
theorem not_delivered_late {s : Machine} {size : UInt64} (hregular : RegularService size s.memory)
    {pid : Pid} {code : List UInt8} (hcode : code ≠ []) {path data : String}
    (hnone : s.mmu.mapped pid (UInt64.ofNat (((code.length + 4095) / 4096 - 1) * 4096)) = none) :
    ¬Delivered s pid code path data := by
  intro hdelivered
  have hpos := List.length_pos_iff.2 hcode
  have hlt : ((code.length + 4095) / 4096 - 1) * 4096 < code.length := by omega
  have hread := hdelivered.image _ hlt
  obtain ⟨paddr, htrans, -⟩ := (MMU.readU8_eq_ok_iff _ _ _ _).1 hread
  obtain ⟨entry, hentry, -, -⟩ := (MMU.translate_read_eq_ok_iff _ _ _ _).1 htrans
  have halign : s.mmu.alignDown (UInt64.ofNat (((code.length + 4095) / 4096 - 1) * 4096)) =
      UInt64.ofNat (((code.length + 4095) / 4096 - 1) * 4096) := by
    rw [Machine.mmu, hregular.alignDown_eq]
    apply pageBase_of_mod
    rw [UInt64.toNat_ofNat']
    omega
  rw [halign, hnone] at hentry
  cases hentry

/-- Exec delivers image and arguments exactly when its last mapping request is answered in time and
the layout is intact. -/
theorem exec_delivers_iff {w : World} {s s' : Machine} {size : UInt64} {swapImage : Nat → UInt8}
    (hreach : s.ComesFrom (bootMemory size swapImage)) {pid : Pid} (hlate : NoLatePages w s pid)
    {executable path data : String} {code : List UInt8}
    (hpath : 0x100 + (textBytes path).length < UInt64.size)
    (hdata : 0x200 + (textBytes data).length < UInt64.size) (hnul : 0 ∉ textBytes data)
    (himage : programImage w s executable [path, data] = some code)
    (h : execImpl w s pid executable [path, data] = (.ok (), s')) :
    Delivered s' pid code path data ↔
      (code ≠ [] → w.timely (s.clock + 1 + (code.length + 4095) / 4096) = true) ∧
        (execLayout w s code path data).Intact path := by
  have hregular := (Touched.trans hreach (touches_execImpl w s pid executable [path, data])).regular
  rw [h] at hregular
  simp only [execImpl, himage] at h
  split at h
  · cases h
  split at h
  · cases h
  next frames s1 halloc =>
  have hgranted := granted_of_allocFrames hreach hlate halloc
  have hsize : s.mmu.memory.size < UInt64.size := by
    rw [Machine.mmu, hreach.regular.size_eq]
    exact size.toNat_lt_size
  have hsettles : Settles s1 s1.memory := by
    intro ord
    rw [settledMemory, hgranted.queue_eq]
    rfl
  have hlength : frames.length = (code.length + 4095) / 4096 := by
    rw [hgranted.frames_eq, List.length_map, List.length_range]
  have hspan : Span s1.mmu pid (loadAddress w s) 0 := by
    refine ⟨hgranted.pageSize_eq, ?_⟩
    intro page _
    rw [hgranted.pageless]
    simp
  have hmmu : s'.mmu = (loadImage (mapFrames w pid 0 frames s1) pid code [path, data]).mmu := by
    cases h
    rfl
  have hbound := Nat.le_of_lt (Nat.lt_of_le_of_lt hgranted.fits hsize)
  -- the copies, once all pages are there
  have hplaced : Span (mapFrames w pid 0 frames s1).mmu pid (loadAddress w s)
        ((code.length + 4095) / 4096) →
      (mapFrames w pid 0 frames s1).mmu.memory = s1.mmu.memory →
      (Delivered s' pid code path data ↔ (execLayout w s code path data).Intact path) := by
    intro hspan' hmemory
    have hmem := hmemory.trans hgranted.memory_eq
    have hsame : (s.settledMemory (w.order (s.clock + 1))).mmu.memory.size = s.mmu.memory.size := by
      rw [Machine.mmu, hreach.regular.size_eq, (regular_settled hreach _).size_eq]
    have hplace := placed_of_loadImage (l := execLayout w s code path data) rfl rfl hspan'
      (by rw [hmem]; exact hsame) hsize hgranted.fits (by rw [hmem]; rfl) hpath hdata
    rw [Delivered.congr hmmu]
    exact hplace.delivered_iff rfl hnul hdata (le_pages _) hbound
  rcases eq_or_ne code [] with rfl | hcode
  · have hframes : frames = [] := List.eq_nil_of_length_eq_zero hlength
    rw [hframes, mapFrames] at hplaced
    rw [hplaced hspan rfl, and_iff_right (fun hne => absurd rfl hne)]
  have hne : frames ≠ [] := by
    intro hnil
    rw [hnil, List.length_nil] at hlength
    have hpos := List.length_pos_iff.2 hcode
    omega
  have hlast : s1.clock + frames.length - 1 = s.clock + 1 + (code.length + 4095) / 4096 := by
    rw [hgranted.clock_eq, hlength]
    omega
  cases htimely : w.timely (s.clock + 1 + (code.length + 4095) / 4096) with
  | true =>
    have hmapped : (mapFrames w pid 0 frames s1).memory = mapAll pid 0 frames s1.memory :=
      mapFrames_timely hne hsettles (by rw [hlast, htimely])
    have hall := mapAll_span hgranted.aligned ((code.length + 4095) / 4096) 0
      (by rw [Nat.zero_add]; exact hbound) hspan
    rw [← List.range_eq_range', ← hgranted.frames_eq, ← hmapped, Nat.zero_add] at hall
    have hmemory := mapAll_frame pid 0 frames s1.memory
    rw [← hmapped] at hmemory
    rw [hplaced hall hmemory, and_iff_right (fun _ => rfl)]
  | false =>
    refine iff_of_false ?_ (fun hboth => absurd (hboth.1 hcode) (by simp))
    have hpageless : ∀ page, s1.memory.mmu.mapped pid page = none := hgranted.pageless
    have hnone : (mapFrames w pid 0 frames s1).mmu.mapped pid
        (UInt64.ofNat ((0 + frames.length - 1) * 4096)) = none :=
      mapFrames_late hne hsettles hgranted.pageSize_eq (by rw [Nat.zero_add, hlength]; exact hbound)
        (by rw [hlast, htimely]) (hpageless _) (hpageless _)
    rw [Nat.zero_add, hlength] at hnone
    apply not_delivered_late hregular hcode
    have hsame : SameTables (mapFrames w pid 0 frames s1).mmu
        (loadImage (mapFrames w pid 0 frames s1) pid code [path, data]).mmu :=
      ((sameTables_writeBytes _ pid 0 code).trans (sameTables_writeBytes _ pid 0x100 _)).trans
        (sameTables_writeBytes _ pid 0x200 _)
    rw [hmmu, hsame.mapped_eq]
    exact hnone

/-- A machine with two frames and the process that boot makes. -/
def freshMachine (program : List UInt8) : Machine :=
  boot (World.calm program) (bootMemory 8192 fun _ => 0)

theorem freshMachine_comesFrom (program : List UInt8) :
    (freshMachine program).ComesFrom (bootMemory 8192 fun _ => 0) :=
  touches_forkImpl (World.calm program) (Machine.new (bootMemory 8192 fun _ => 0)) 0

theorem exec_delivers_fresh :
    Delivered ((freshMachine haltCode).execImpl (World.calm haltCode) 1 "halt" ["x", "y"]).2 1 haltCode
      "x" "y" := by
  have hok : ((freshMachine haltCode).execImpl (World.calm haltCode) 1 "halt" ["x", "y"]).1 =
      .ok () := by decide +kernel
  refine (exec_delivers_iff (freshMachine_comesFrom haltCode) (fun page hpage => hpage)
    (by decide +kernel) (by decide +kernel) (by decide +kernel) rfl (Prod.ext hok rfl)).2 ⟨fun _ => rfl, ?_⟩
  exact ⟨by decide +kernel, by decide +kernel, by decide +kernel⟩

/-- A program of 33 instructions. -/
def longCode : List UInt8 := (List.replicate 33 (mov 0 1)).flatten

/-- An image of 264 bytes loses the opcode of its last instruction to the first argument. -/
theorem exec_image_overwritten :
    ((freshMachine longCode).execImpl (World.calm longCode) 1 "p" ["x", "y"]).1 = .ok () ∧
      ¬Delivered ((freshMachine longCode).execImpl (World.calm longCode) 1 "p" ["x", "y"]).2 1 longCode
        "x" "y" := by
  refine ⟨by decide +kernel, ?_⟩
  intro hdelivered
  have hfound : ((freshMachine longCode).execImpl (World.calm longCode) 1 "p"
      ["x", "y"]).2.mmu.readU8 1 (UInt64.ofNat 256) = .ok 0x78 := by decide +kernel
  rw [hdelivered.image 256 (by decide +kernel)] at hfound
  exact absurd hfound (by decide +kernel)

end Machine

end GenshinOs.Process
