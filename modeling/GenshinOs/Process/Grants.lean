import GenshinOs.Process.Service

/-!
# Frames for a program

The loader asks for several frames at once, is told the address of the first and counts on from there.
The frames it was really given are the first ones of a queue whose order depends on everything that
was allocated and freed before. The two agree exactly when these frames have consecutive numbers:
`allocFrames_exact_iff`.
-/

set_option autoImplicit false

namespace GenshinOs.Process

open GenshinOs.Lib GenshinOs.Hardware GenshinOs.Memory

/-- Managers that any history of allocations and frees can lead to. -/
inductive FrameHistory (size : UInt64) : PhysicalMemoryManager → Prop
  | new : FrameHistory size (PhysicalMemoryManager.new size.toNat 4096)
  | allocate {m : PhysicalMemoryManager} (pid : Pid) (count : Nat) :
      FrameHistory size m → FrameHistory size (m.allocateFrames pid count).2
  | free {m : PhysicalMemoryManager} (pid : Pid) (frameNum : Nat) :
      FrameHistory size m → FrameHistory size (m.freeFrame pid frameNum).2

/-- The allocator is exact, over frames of 4096 bytes that fit into the memory. -/
structure FramesFit (size : UInt64) (m : PhysicalMemoryManager) : Prop where
  exact : m.Exact
  frameSize_eq : m.allocator.frameSize = 4096
  total_le : m.allocator.totalFrames * 4096 ≤ size.toNat

theorem FrameHistory.fit {size : UInt64} {m : PhysicalMemoryManager} (h : FrameHistory size m) :
    FramesFit size m := by
  induction h with
  | new => exact ⟨FrameAllocator.new_exact size.toNat 4096, rfl, Nat.div_mul_le_self size.toNat 4096⟩
  | allocate pid count _ ih =>
    have hkeeps := PhysicalMemoryManager.allocateFrames_keeps ih.exact pid count
    exact ⟨hkeeps.exact, hkeeps.frameSize_eq.trans ih.frameSize_eq,
      by rw [hkeeps.totalFrames_eq]; exact ih.total_le⟩
  | @free m pid frameNum _ ih =>
    obtain ⟨htotal, hsize⟩ := m.freeFrame_static pid frameNum
    exact ⟨PhysicalMemoryManager.freeFrame_exact ih.exact pid frameNum, hsize.trans ih.frameSize_eq,
      by rw [htotal]; exact ih.total_le⟩

/-! ## Consecutive addresses -/

/-- Each number is the successor of the one before it. -/
def Consecutive (numbers : List Nat) : Prop := numbers.IsChain fun a b => b = a + 1

instance (numbers : List Nat) : Decidable (Consecutive numbers) :=
  inferInstanceAs (Decidable (numbers.IsChain _))

/-- The address of a frame number. -/
def frameAddress (number : Nat) : PhysAddr := UInt64.ofNat (number * 4096)

theorem frameAddress_succ (number : Nat) : frameAddress (number + 1) = frameAddress number + 4096 := by
  rw [frameAddress, Nat.add_mul, UInt64.ofNat_add]
  rfl

theorem frameAddress_inj {a b : Nat} (ha : a * 4096 < 2 ^ 64) (hb : b * 4096 < 2 ^ 64)
    (h : frameAddress a = frameAddress b) : a = b := by
  have htoNat := congrArg UInt64.toNat h
  rw [frameAddress, frameAddress, UInt64.toNat_ofNat_of_lt' ha, UInt64.toNat_ofNat_of_lt' hb] at htoNat
  omega

/-- Addresses counted up from the first one. -/
theorem counted_succ (start : PhysAddr) (i : Nat) :
    start + UInt64.ofNat (i + 1) * 4096 = start + UInt64.ofNat i * 4096 + 4096 := by
  rw [UInt64.ofNat_add, UInt64.add_mul, ← UInt64.add_assoc]
  rfl

/-- Counting on from the first address gives the addresses of consecutive frames, and of no others. -/
theorem counted_eq_iff {numbers : List Nat} (first : Nat) (hfirst : numbers.head? = some first)
    (hbound : ∀ n ∈ numbers, (n + 1) * 4096 < 2 ^ 64) :
    (List.range numbers.length).map (fun i => frameAddress first + UInt64.ofNat i * 4096) =
        numbers.map frameAddress ↔ Consecutive numbers := by
  have hmap : (List.range numbers.length).map (fun i => frameAddress first + UInt64.ofNat i * 4096) =
      numbers.map frameAddress ↔ ∀ (i : Nat) (h : i < numbers.length),
        frameAddress first + UInt64.ofNat i * 4096 = frameAddress numbers[i] := by
    constructor
    · intro heq i h
      have hi := congrArg (fun l => l[i]?) heq
      simpa [h] using hi
    · intro heq
      apply List.ext_getElem (by simp)
      intro i h _
      simpa using heq i (by simpa using h)
  have hzero : ∀ h : 0 < numbers.length, numbers[0] = first := by
    intro h
    rw [List.head?_eq_getElem?, List.getElem?_eq_getElem h] at hfirst
    exact Option.some.inj hfirst
  rw [hmap, Consecutive, List.isChain_iff_getElem]
  constructor
  · intro heq i hi
    -- two neighbours: the next address is both the next one counted and the next one given
    have hnow := heq i (by omega)
    have hnext := heq (i + 1) hi
    rw [counted_succ, hnow, ← frameAddress_succ] at hnext
    have hlt := hbound numbers[i] (List.getElem_mem _)
    have hlt' : numbers[i + 1] * 4096 < 2 ^ 64 :=
      Nat.lt_of_le_of_lt (Nat.mul_le_mul_right 4096 (Nat.le_succ _)) (hbound _ (List.getElem_mem _))
    exact (frameAddress_inj hlt hlt' hnext).symm
  · intro hchain i
    induction i with
    | zero =>
      intro h
      rw [hzero h]
      simp
    | succ i ih =>
      intro h
      rw [counted_succ, ih (by omega), ← frameAddress_succ, hchain i h]

/-! ## The loader's request -/

namespace Machine

variable (w : World) (s : Machine)

/-- The memory service when it gets to the next request: everything before it in the channel is
handled. -/
def pendingMemory : MemoryService := s.memoryQueue.foldl (serve (w.order s.clock)) s.memory

/-- The frames that the memory service hands out for a request. -/
def grantedFrames (count : Nat) (pid : Pid) : List Frame :=
  ((s.pendingMemory w).memoryManager.allocateFrames pid count).1

/-- The addresses are those of the frames handed out, in order; these frames belong to the process
now, and they lie in the memory. -/
def GrantedExactly (size : UInt64) (count : Nat) (pid : Pid) (addrs : List PhysAddr) (s' : Machine) :
    Prop :=
  addrs = (s.grantedFrames w count pid).map Frame.address ∧
    (s.grantedFrames w count pid).length = count ∧
    ∀ frame ∈ s.grantedFrames w count pid,
      s'.memory.memoryManager.allocator.frames[frame.number]? = some frame ∧
      frame.owner = some pid ∧ frame.number ∉ s'.memory.memoryManager.allocator.freeQueue ∧
      frame.address.toNat + 4096 ≤ size.toNat

variable {w s}

/-- A request that succeeds was answered in time, with the first of enough frames. -/
theorem allocFrames_ok {count : Nat} {pid : Pid} {addrs : List PhysAddr} {s' : Machine}
    (h : allocFrames w s count pid = (.ok addrs, s')) :
    (s.grantedFrames w count pid).length = count ∧
      s'.memory.memoryManager = ((s.pendingMemory w).memoryManager.allocateFrames pid count).2 ∧
      addrs = (List.range count).map fun i =>
        (((s.grantedFrames w count pid).head?.map Frame.address).getD 0) + UInt64.ofNat i * 4096 := by
  simp only [allocFrames, requestMemory] at h
  split at h
  · cases h
  · next start s'' heq =>
    split at heq
    · simp only [MemoryService.handleEnvelope, MemoryService.handleMemoryRequestWithResponse,
        MemoryService.handleAllocFrameWithResponse] at heq
      by_cases hlen : (s.grantedFrames w count pid).length = count
      · have hlen' : ((List.foldl (serve (w.order s.clock)) s.memory
            s.memoryQueue).memoryManager.allocateFrames pid count).1.length = count := hlen
        simp only [hlen', ne_eq, not_true_eq_false, if_false, List.head?_cons, Prod.mk.injEq,
          Option.some.injEq, Except.ok.injEq, ResponseData.physicalAddr.injEq] at heq
        obtain ⟨hstart, hs'⟩ := heq
        cases h
        refine ⟨hlen, by rw [← hs']; rfl, ?_⟩
        rw [← hstart]
        rfl
      · -- too few frames: the first answer is an error
        have hlen' : ((List.foldl (serve (w.order s.clock)) s.memory
            s.memoryQueue).memoryManager.allocateFrames pid count).1.length ≠ count := hlen
        simp only [hlen', ne_eq, not_false_eq_true, if_true, List.cons_append, List.head?_cons,
          Prod.mk.injEq, Option.some.injEq, reduceCtorEq, false_and] at heq
    · cases heq
  · cases h

/-- When all frames are granted, the queue had as many. -/
theorem count_le_of_granted (hx : (s.pendingMemory w).memoryManager.Exact) {count : Nat} {pid : Pid}
    (hlen : (s.grantedFrames w count pid).length = count) :
    count ≤ (s.pendingMemory w).memoryManager.allocator.freeQueue.length := by
  by_contra hshort
  have hnone := PhysicalMemoryManager.allocateLoop_short pid count [] hx (Nat.not_le.1 hshort)
  rw [grantedFrames, PhysicalMemoryManager.allocateFrames, hnone, List.length_nil] at hlen
  omega

/-- The loader's addresses are those of the frames it was given exactly when the frames at the front
of the free queue have consecutive numbers. -/
theorem allocFrames_exact_iff (size : UInt64)
    (hreach : FrameHistory size (s.pendingMemory w).memoryManager) {count : Nat} (hcount : 1 ≤ count)
    {pid : Pid} {addrs : List PhysAddr} {s' : Machine}
    (h : allocFrames w s count pid = (.ok addrs, s')) :
    GrantedExactly w s size count pid addrs s' ↔
      Consecutive ((s.pendingMemory w).memoryManager.allocator.freeQueue.take count) := by
  obtain ⟨hlen, hmanager, haddrs⟩ := allocFrames_ok h
  have hfit := hreach.fit
  have henough := count_le_of_granted hfit.exact hlen
  obtain ⟨granted, manager, halloc, hgrant⟩ :=
    PhysicalMemoryManager.allocateFrames_grant hfit.exact pid henough
  have hgranted : s.grantedFrames w count pid = granted := by rw [grantedFrames, halloc]
  rw [halloc] at hmanager
  rw [hgranted] at hlen haddrs
  -- what the frames are, whatever their order
  have haddress : ∀ f ∈ granted, f.address = frameAddress f.number := by
    intro f hf
    rw [hgrant.exact.address_eq f.number f (hgrant.owned f hf).1, hgrant.frameSize_eq,
      hfit.frameSize_eq]
    rfl
  have hnumber : ∀ f ∈ granted, (f.number + 1) * 4096 ≤ size.toNat := by
    intro f hf
    have hlt := (List.getElem?_eq_some_iff.1 (hgrant.owned f hf).1).1
    rw [hgrant.exact.length_eq, hgrant.totalFrames_eq] at hlt
    exact Nat.le_trans (Nat.mul_le_mul_right 4096 hlt) hfit.total_le
  have hnumbers : granted.map Frame.address =
      (granted.map Frame.number).map frameAddress := by
    rw [List.map_map]
    exact List.map_congr_left haddress
  have howned : ∀ frame ∈ granted,
      s'.memory.memoryManager.allocator.frames[frame.number]? = some frame ∧
      frame.owner = some pid ∧ frame.number ∉ s'.memory.memoryManager.allocator.freeQueue ∧
      frame.address.toNat + 4096 ≤ size.toNat := by
    intro f hf
    obtain ⟨hat, hallocated, howner⟩ := hgrant.owned f hf
    have hle := hnumber f hf
    rw [hmanager]
    refine ⟨hat, howner, hgrant.exact.not_mem_queue hat hallocated, ?_⟩
    have hlt : f.number * 4096 < UInt64.size := by
      have hsize := size.toNat_lt_size
      omega
    rw [haddress f hf, frameAddress, UInt64.toNat_ofNat_of_lt' hlt]
    omega
  rw [GrantedExactly, hgranted, and_iff_left ⟨hlen, howned⟩, haddrs, hnumbers]
  cases granted with
  | nil =>
    rw [List.length_nil] at hlen
    omega
  | cons f rest =>
    have hfirst := haddress f List.mem_cons_self
    have hbound : ∀ n ∈ (f :: rest).map Frame.number, (n + 1) * 4096 < UInt64.size := by
      intro n hn
      obtain ⟨g, hg, rfl⟩ := List.mem_map.1 hn
      exact Nat.lt_of_le_of_lt (hnumber g hg) size.toNat_lt_size
    rw [← hgrant.numbers, ← counted_eq_iff f.number rfl hbound, List.length_map, hlen]
    simp only [List.head?_cons, Option.map_some, Option.getD_some, hfirst]

theorem allocFrames_exact_fresh :
    GrantedExactly (World.calm []) (Machine.new (bootMemory 12288 fun _ => 0)) 12288 2 1 [0, 4096]
      (allocFrames (World.calm []) (Machine.new (bootMemory 12288 fun _ => 0)) 2 1).2 :=
  (allocFrames_exact_iff 12288 .new (by decide) rfl).2 (by decide)

/-- Three frames, of which the first was given out and freed again behind the second. -/
def fragmentedMemory : MemoryService :=
  (((bootMemory 12288 fun _ => 0).handleMessage (.allocFrame 1 1)).handleMessage
    (.allocFrame 1 2)).handleMessage (.freeFrame 0)

/-- Two frames are granted, the third and the first of the memory; the loader takes the third and one
beyond the memory. -/
theorem fragmented_grant :
    FrameHistory 12288 ((Machine.new fragmentedMemory).pendingMemory (World.calm [])).memoryManager ∧
      (allocFrames (World.calm []) (Machine.new fragmentedMemory) 2 3).1 = .ok [8192, 12288] ∧
      ¬GrantedExactly (World.calm []) (Machine.new fragmentedMemory) 12288 2 3 [8192, 12288]
        (allocFrames (World.calm []) (Machine.new fragmentedMemory) 2 3).2 := by
  refine ⟨.free 0 0 (.allocate 2 1 (.allocate 1 1 .new)), by decide, ?_⟩
  intro h
  exact absurd h.1 (by decide)

end Machine

end GenshinOs.Process
