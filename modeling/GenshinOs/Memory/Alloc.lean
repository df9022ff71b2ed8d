import GenshinOs.Lib.HashMap
import GenshinOs.Messaging

/-!
# Physical frames

The frame allocator and the per-process frame lists over it (`src/services/memory/alloc.rs`). The
allocator serves frames from the front of a queue and puts freed frames at the back.
`FrameAllocator.Exact` is its invariant: the queue holds exactly the frames that are not allocated,
each once, and the two counters are the true numbers.
-/

set_option autoImplicit false

namespace GenshinOs.Memory

open GenshinOs.Lib

/-- A physical frame. -/
structure Frame where
  number : Nat
  address : PhysAddr
  size : Nat
  allocated : Bool
  owner : Option Pid
  deriving DecidableEq, Repr

/-- A frame that is free. -/
def Frame.new (number : Nat) (address : PhysAddr) (size : Nat) : Frame :=
  ⟨number, address, size, false, none⟩

/-- A frame that a process has. -/
def Frame.allocate (f : Frame) (pid : Pid) : Frame := { f with allocated := true, owner := some pid }

/-- A frame that is given back. -/
def Frame.free (f : Frame) : Frame := { f with allocated := false, owner := none }

/-- The frame allocator. -/
structure FrameAllocator where
  frames : List Frame
  freeQueue : List Nat
  totalFrames : Nat
  frameSize : Nat
  freeCount : Nat
  allocatedCount : Nat
  deriving DecidableEq, Repr

namespace FrameAllocator

/-- As many frames as fit into the memory, all of them free. -/
def new (memorySize frameSize : Nat) : FrameAllocator :=
  let totalFrames := memorySize / frameSize
  { frames := (List.range totalFrames).map fun i =>
      Frame.new i (UInt64.ofNat (i * frameSize)) frameSize
    freeQueue := List.range totalFrames
    totalFrames := totalFrames
    frameSize := frameSize
    freeCount := totalFrames
    allocatedCount := 0 }

/-- Take the frame at the front of the queue. The index into `frames` is in range by `Exact`; out
of range the code would stop with a panic, and the model answers `none`. -/
def allocate (a : FrameAllocator) (pid : Pid) : Option Frame × FrameAllocator :=
  match a.freeQueue with
  | [] => (none, a)
  | frameNum :: rest =>
    match a.frames[frameNum]? with
    | none => (none, a)
    | some frame =>
      (some (frame.allocate pid),
        { a with
          frames := a.frames.set frameNum (frame.allocate pid)
          freeQueue := rest
          freeCount := a.freeCount - 1
          allocatedCount := a.allocatedCount + 1 })

/-- Give a frame back. A frame that is free, or does not exist, is refused. -/
def free (a : FrameAllocator) (frameNum : Nat) : Bool × FrameAllocator :=
  if frameNum ≥ a.totalFrames then (false, a)
  else
    match a.frames[frameNum]? with
    | none => (false, a)
    | some frame =>
      if frame.allocated = false then (false, a)
      else
        (true,
          { a with
            frames := a.frames.set frameNum frame.free
            freeQueue := a.freeQueue ++ [frameNum]
            freeCount := a.freeCount + 1
            allocatedCount := a.allocatedCount - 1 })

/-- The frame with this number. -/
def getFrame (a : FrameAllocator) (frameNum : Nat) : Option Frame :=
  if frameNum < a.totalFrames then a.frames[frameNum]? else none

/-- Find frames owned by a process. -/
def framesByOwner (a : FrameAllocator) (pid : Pid) : List Frame :=
  a.frames.filter fun f => f.owner == some pid

/-- Free all frames owned by a process. The loop treats each frame on its own: those of the process
are freed and join the queue in the order of their numbers. -/
def freeByOwner (a : FrameAllocator) (pid : Pid) : Nat × FrameAllocator :=
  let owned := a.framesByOwner pid
  (owned.length,
    { a with
      frames := a.frames.map fun f => if f.owner == some pid then f.free else f
      freeQueue := a.freeQueue ++ owned.map Frame.number
      freeCount := a.freeCount + owned.length
      allocatedCount := a.allocatedCount - owned.length })

/-- Ownership map: every frame number with its owner, `0` for a free frame. -/
def frameOwners (a : FrameAllocator) : List (Nat × Nat) :=
  a.frames.map fun f => (f.number, f.owner.getD 0)

/-- Frames sit at their own number and address, and ownership follows allocation. -/
structure Layout (a : FrameAllocator) : Prop where
  length_eq : a.frames.length = a.totalFrames
  number_eq : ∀ (i : Nat) (f : Frame), a.frames[i]? = some f → f.number = i
  address_eq : ∀ (i : Nat) (f : Frame), a.frames[i]? = some f →
    f.address = UInt64.ofNat (i * a.frameSize)
  owner_iff : ∀ f ∈ a.frames, f.owner.isSome = f.allocated

/-- The queue holds exactly the free frames, each once, and the counters are right. -/
structure Exact (a : FrameAllocator) : Prop extends Layout a where
  queue_nodup : a.freeQueue.Nodup
  mem_queue_iff : ∀ n, n ∈ a.freeQueue ↔ ∃ f, a.frames[n]? = some f ∧ f.allocated = false
  freeCount_eq : a.freeCount = a.freeQueue.length
  count_add : a.freeCount + a.allocatedCount = a.totalFrames

theorem new_layout (memorySize frameSize : Nat) : (new memorySize frameSize).Layout where
  length_eq := by simp [new]
  number_eq i f h := by
    simp only [new, List.getElem?_map, Option.map_eq_some_iff] at h
    obtain ⟨j, hj, rfl⟩ := h
    have := (List.getElem?_eq_some_iff.1 hj).2
    simp only [List.getElem_range] at this
    simp [Frame.new, this]
  address_eq i f h := by
    simp only [new, List.getElem?_map, Option.map_eq_some_iff] at h
    obtain ⟨j, hj, rfl⟩ := h
    have := (List.getElem?_eq_some_iff.1 hj).2
    simp only [List.getElem_range] at this
    simp [Frame.new, new, this]
  owner_iff f h := by
    simp only [new, List.mem_map] at h
    obtain ⟨j, -, rfl⟩ := h
    rfl

theorem new_exact (memorySize frameSize : Nat) : (new memorySize frameSize).Exact where
  toLayout := new_layout memorySize frameSize
  queue_nodup := List.nodup_range
  mem_queue_iff n := by
    simp only [new, List.mem_range, List.getElem?_map]
    constructor
    · intro h
      exact ⟨Frame.new n (UInt64.ofNat (n * frameSize)) frameSize, by simp [h], rfl⟩
    · rintro ⟨f, hf, -⟩
      obtain ⟨j, hj, -⟩ := Option.map_eq_some_iff.1 hf
      obtain ⟨hlt, -⟩ := List.getElem?_eq_some_iff.1 hj
      simpa using hlt
  freeCount_eq := by simp [new]
  count_add := by simp [new]

/-- Reading the frames after one of them is replaced. -/
theorem getElem?_set_frame {frames : List Frame} {n : Nat} {old : Frame}
    (hold : frames[n]? = some old) (f : Frame) (i : Nat) :
    (frames.set n f)[i]? = if n = i then some f else frames[i]? := by
  obtain ⟨hlt, -⟩ := List.getElem?_eq_some_iff.1 hold
  rw [List.getElem?_set]
  by_cases hi : n = i
  · subst hi
    simp [hlt]
  · simp [hi]

/-- Replacing a frame by one with the same number and address keeps the layout, whatever happens to
the queue and the counters. -/
theorem Layout.set {a a' : FrameAllocator} (hx : a.Layout) {n : Nat} {old f : Frame}
    (hold : a.frames[n]? = some old) (hnum : f.number = old.number)
    (haddr : f.address = old.address) (hown : f.owner.isSome = f.allocated)
    (hframes : a'.frames = a.frames.set n f) (htotal : a'.totalFrames = a.totalFrames)
    (hsize : a'.frameSize = a.frameSize) : a'.Layout where
  length_eq := by rw [hframes, htotal, List.length_set, hx.length_eq]
  number_eq i g hg := by
    rw [hframes, getElem?_set_frame hold] at hg
    split at hg
    · next hi =>
      subst hi
      cases hg
      rw [hnum]
      exact hx.number_eq n old hold
    · exact hx.number_eq i g hg
  address_eq i g hg := by
    rw [hframes, getElem?_set_frame hold] at hg
    rw [hsize]
    split at hg
    · next hi =>
      subst hi
      cases hg
      rw [haddr]
      exact hx.address_eq n old hold
    · exact hx.address_eq i g hg
  owner_iff g hg := by
    rw [hframes] at hg
    rcases List.mem_or_eq_of_mem_set hg with hg | rfl
    · exact hx.owner_iff g hg
    · exact hown

theorem Exact.not_mem_queue {a : FrameAllocator} (hx : a.Exact) {n : Nat} {old : Frame}
    (hold : a.frames[n]? = some old) (hal : old.allocated = true) : n ∉ a.freeQueue := by
  intro hmem
  obtain ⟨f, hf, hfree⟩ := (hx.mem_queue_iff n).1 hmem
  rw [hold] at hf
  cases hf
  rw [hal] at hfree
  exact Bool.noConfusion hfree

/-- Numbers in the queue are frame numbers. -/
theorem Exact.lt_of_mem_queue {a : FrameAllocator} (hx : a.Exact) {n : Nat}
    (hn : n ∈ a.freeQueue) : n < a.totalFrames := by
  obtain ⟨f, hf, -⟩ := (hx.mem_queue_iff n).1 hn
  rw [← hx.length_eq]
  exact (List.getElem?_eq_some_iff.1 hf).1

/-- An allocated frame is counted. -/
theorem Exact.allocatedCount_pos {a : FrameAllocator} (hx : a.Exact) {n : Nat} {old : Frame}
    (hold : a.frames[n]? = some old) (hal : old.allocated = true) : 1 ≤ a.allocatedCount := by
  -- the queue together with `n` fits into the frame numbers
  have hsub : (n :: a.freeQueue) ⊆ List.range a.totalFrames := by
    intro m hm
    rw [List.mem_range]
    rcases List.mem_cons.1 hm with rfl | hm
    · rw [← hx.length_eq]
      exact (List.getElem?_eq_some_iff.1 hold).1
    · exact hx.lt_of_mem_queue hm
  have hnd : (n :: a.freeQueue).Nodup :=
    List.nodup_cons.2 ⟨hx.not_mem_queue hold hal, hx.queue_nodup⟩
  have hle := (List.subperm_of_subset hnd hsub).length_le
  simp only [List.length_cons, List.length_range] at hle
  have h1 := hx.freeCount_eq
  have h2 := hx.count_add
  omega

/-- What a successful allocation does: the frame at the front of the queue becomes owned. -/
theorem allocate_some {a a' : FrameAllocator} {pid : Pid} {frame : Frame}
    (h : a.allocate pid = (some frame, a')) :
    ∃ frameNum rest old, a.freeQueue = frameNum :: rest ∧ a.frames[frameNum]? = some old ∧
      frame = old.allocate pid ∧
      a' = { a with
        frames := a.frames.set frameNum (old.allocate pid)
        freeQueue := rest
        freeCount := a.freeCount - 1
        allocatedCount := a.allocatedCount + 1 } := by
  cases hq : a.freeQueue with
  | nil => simp [allocate, hq] at h
  | cons frameNum rest =>
    cases hf : a.frames[frameNum]? with
    | none => simp [allocate, hq, hf] at h
    | some old =>
      simp only [allocate, hq, hf, Prod.mk.injEq, Option.some.injEq] at h
      exact ⟨frameNum, rest, old, rfl, hf, h.1.symm, h.2.symm⟩

/-- On an exact allocator an allocation fails only when the queue is empty. -/
theorem allocate_none {a a' : FrameAllocator} (hx : a.Exact) {pid : Pid}
    (h : a.allocate pid = (none, a')) : a.freeQueue = [] ∧ a' = a := by
  cases hq : a.freeQueue with
  | nil =>
    simp only [allocate, hq, Prod.mk.injEq] at h
    exact ⟨rfl, h.2.symm⟩
  | cons frameNum rest =>
    obtain ⟨f, hf, -⟩ := (hx.mem_queue_iff frameNum).1 (by simp [hq])
    simp [allocate, hq, hf] at h

theorem allocate_exact {a a' : FrameAllocator} (hx : a.Exact) {pid : Pid} {frame : Frame}
    (h : a.allocate pid = (some frame, a')) : a'.Exact := by
  obtain ⟨n, rest, old, hq, hold, -, rfl⟩ := allocate_some h
  have hnd := hx.queue_nodup
  rw [hq, List.nodup_cons] at hnd
  have hlen := hx.freeCount_eq
  rw [hq, List.length_cons] at hlen
  have hcount := hx.count_add
  refine ⟨hx.toLayout.set (f := old.allocate pid) hold rfl rfl rfl rfl rfl rfl, hnd.2, ?_, ?_, ?_⟩
  · intro m
    -- the only frame that changes is `n`, and `n` leaves the queue
    have hm := hx.mem_queue_iff m
    rw [hq, List.mem_cons] at hm
    rw [getElem?_set_frame hold]
    by_cases hmn : n = m
    · subst hmn
      simp [hnd.1, Frame.allocate]
    · have hne : m ≠ n := fun h => hmn h.symm
      simp only [hne, false_or] at hm
      simpa [hmn] using hm
  · show a.freeCount - 1 = rest.length
    omega
  · show a.freeCount - 1 + (a.allocatedCount + 1) = a.totalFrames
    omega

/-- What a free does: nothing, or an allocated frame joins the back of the queue. -/
theorem free_cases (a : FrameAllocator) (n : Nat) :
    a.free n = (false, a) ∨
      ∃ old, a.frames[n]? = some old ∧ old.allocated = true ∧
        a.free n = (true, { a with
          frames := a.frames.set n old.free
          freeQueue := a.freeQueue ++ [n]
          freeCount := a.freeCount + 1
          allocatedCount := a.allocatedCount - 1 }) := by
  rcases Nat.lt_or_ge n a.totalFrames with hn | hn
  · cases hf : a.frames[n]? with
    | none => exact Or.inl (by simp [free, hf])
    | some old =>
      cases hal : old.allocated with
      | false => exact Or.inl (by simp [free, hf, hal])
      | true => exact Or.inr ⟨old, rfl, hal, by simp [free, Nat.not_le.2 hn, hf, hal]⟩
  · exact Or.inl (by simp [free, hn])

theorem free_exact {a : FrameAllocator} (hx : a.Exact) (n : Nat) : (a.free n).2.Exact := by
  rcases a.free_cases n with h | ⟨old, hold, hal, h⟩
  · rw [h]
    exact hx
  · rw [h]
    have hpos := hx.allocatedCount_pos hold hal
    have hnq := hx.not_mem_queue hold hal
    have hcount := hx.count_add
    refine ⟨hx.toLayout.set (f := old.free) hold rfl rfl rfl rfl rfl rfl, ?_, ?_, ?_, ?_⟩
    · rw [List.nodup_append]
      refine ⟨hx.queue_nodup, List.nodup_singleton n, ?_⟩
      rintro x hx' y hy rfl
      rw [List.mem_singleton] at hy
      subst hy
      exact hnq hx'
    · intro m
      rw [List.mem_append, List.mem_singleton, hx.mem_queue_iff, getElem?_set_frame hold]
      by_cases hmn : n = m
      · subst hmn
        simp [hold, hal, Frame.free]
      · have hne : m ≠ n := fun h => hmn h.symm
        simp [hmn, hne]
    · show a.freeCount + 1 = (a.freeQueue ++ [n]).length
      simp [hx.freeCount_eq]
    · show a.freeCount + 1 + (a.allocatedCount - 1) = a.totalFrames
      omega

/-- The frames of a process, by their numbers. -/
theorem Layout.mem_framesByOwner {a : FrameAllocator} (hx : a.Layout) (pid : Pid) (n : Nat) :
    n ∈ (a.framesByOwner pid).map Frame.number ↔
      ∃ f, a.frames[n]? = some f ∧ f.owner = some pid := by
  simp only [framesByOwner, List.mem_map, List.mem_filter, beq_iff_eq]
  constructor
  · rintro ⟨f, ⟨hmem, howner⟩, rfl⟩
    obtain ⟨i, hi⟩ := List.mem_iff_getElem?.1 hmem
    have hnum := hx.number_eq i f hi
    exact ⟨f, by rw [hnum]; exact hi, howner⟩
  · rintro ⟨f, hf, howner⟩
    exact ⟨f, ⟨List.mem_of_getElem? hf, howner⟩, hx.number_eq n f hf⟩

/-- No two frames have the same number. -/
theorem Layout.numbers_nodup {a : FrameAllocator} (hx : a.Layout) :
    (a.frames.map Frame.number).Nodup := by
  have hrange : a.frames.map Frame.number = List.range a.frames.length := by
    apply List.ext_getElem?
    intro i
    rw [List.getElem?_map]
    cases hf : a.frames[i]? with
    | none => simpa using hf
    | some f =>
      have hlt := (List.getElem?_eq_some_iff.1 hf).1
      rw [Option.map_some, hx.number_eq i f hf, List.getElem?_range hlt]
  rw [hrange]
  exact List.nodup_range

theorem Layout.framesByOwner_nodup {a : FrameAllocator} (hx : a.Layout) (pid : Pid) :
    ((a.framesByOwner pid).map Frame.number).Nodup :=
  hx.numbers_nodup.sublist (List.filter_sublist.map Frame.number)

theorem freeByOwner_exact {a : FrameAllocator} (hx : a.Exact) (pid : Pid) :
    (a.freeByOwner pid).2.Exact := by
  -- the frames of the process were not in the queue
  have hnodup : (a.freeQueue ++ (a.framesByOwner pid).map Frame.number).Nodup := by
    rw [List.nodup_append]
    refine ⟨hx.queue_nodup, hx.framesByOwner_nodup pid, ?_⟩
    rintro n hn k hk rfl
    obtain ⟨f, hf, howner⟩ := (hx.mem_framesByOwner pid n).1 hk
    have hal := hx.owner_iff f (List.mem_of_getElem? hf)
    rw [howner] at hal
    exact hx.not_mem_queue hf hal.symm hn
  have hsub : (a.freeQueue ++ (a.framesByOwner pid).map Frame.number) ⊆
      List.range a.totalFrames := by
    intro n hn
    rw [List.mem_range]
    rcases List.mem_append.1 hn with hn | hn
    · exact hx.lt_of_mem_queue hn
    · obtain ⟨f, hf, -⟩ := (hx.mem_framesByOwner pid n).1 hn
      rw [← hx.length_eq]
      exact (List.getElem?_eq_some_iff.1 hf).1
  have hle := (List.subperm_of_subset hnodup hsub).length_le
  simp only [List.length_append, List.length_map, List.length_range] at hle
  have hfree := hx.freeCount_eq
  have hcount := hx.count_add
  have hframes : ∀ (i : Nat) (f : Frame), (a.freeByOwner pid).2.frames[i]? = some f →
      ∃ old, a.frames[i]? = some old ∧ f = if old.owner == some pid then old.free else old := by
    intro i f hf
    simp only [freeByOwner, List.getElem?_map, Option.map_eq_some_iff] at hf
    obtain ⟨old, hold, rfl⟩ := hf
    exact ⟨old, hold, rfl⟩
  refine ⟨⟨by simp [freeByOwner, hx.length_eq], ?_, ?_, ?_⟩, hnodup, ?_, ?_, ?_⟩
  · intro i f hf
    obtain ⟨old, hold, rfl⟩ := hframes i f hf
    rw [← hx.number_eq i old hold]
    split <;> rfl
  · intro i f hf
    obtain ⟨old, hold, rfl⟩ := hframes i f hf
    have haddr := hx.address_eq i old hold
    split <;> exact haddr
  · intro f hf
    simp only [freeByOwner, List.mem_map] at hf
    obtain ⟨old, hold, rfl⟩ := hf
    split
    · rfl
    · exact hx.owner_iff old hold
  · intro n
    show n ∈ a.freeQueue ++ (a.framesByOwner pid).map Frame.number ↔ _
    rw [List.mem_append, hx.mem_queue_iff, hx.mem_framesByOwner]
    constructor
    · rintro (⟨f, hf, hal⟩ | ⟨f, hf, howner⟩)
      · refine ⟨if f.owner == some pid then f.free else f, by simp [freeByOwner, hf], ?_⟩
        split
        · rfl
        · exact hal
      · exact ⟨f.free, by simp [freeByOwner, hf, howner], rfl⟩
    · rintro ⟨f, hf, hal⟩
      obtain ⟨old, hold, rfl⟩ := hframes n f hf
      split at hal
      · next howner => exact Or.inr ⟨old, hold, by simpa using howner⟩
      · exact Or.inl ⟨old, hold, hal⟩
  · show a.freeCount + _ = (a.freeQueue ++ _).length
    rw [List.length_append, List.length_map, hfree]
  · show a.freeCount + (a.framesByOwner pid).length +
      (a.allocatedCount - (a.framesByOwner pid).length) = a.totalFrames
    omega

end FrameAllocator

/-! ## Frames of a process -/

/-- The allocator together with the frame numbers each process was given. -/
structure PhysicalMemoryManager where
  allocator : FrameAllocator
  processFrames : HashMap Pid (List Nat)

namespace PhysicalMemoryManager

/-- An allocator with all frames free, and no lists. -/
def new (memorySize frameSize : Nat) : PhysicalMemoryManager :=
  ⟨FrameAllocator.new memorySize frameSize, ∅⟩

/-- Free a frame: it leaves the frame list of the given process, if it is there, and goes back to
the allocator. -/
def freeFrame (m : PhysicalMemoryManager) (pid : Pid) (frameNum : Nat) :
    Bool × PhysicalMemoryManager :=
  let result := m.allocator.free frameNum
  (result.1, ⟨result.2, HashMap.adjust m.processFrames pid fun frames => frames.erase frameNum⟩)

/-- The allocation loop: when the allocator runs dry, the frames taken so far are given back. -/
def allocateLoop (pid : Pid) : Nat → List Frame → PhysicalMemoryManager →
    List Frame × PhysicalMemoryManager
  | 0, frames, m => (frames, m)
  | k + 1, frames, m =>
    match m.allocator.allocate pid with
    | (some frame, allocator) =>
      allocateLoop pid k (frames ++ [frame])
        ⟨allocator, m.processFrames.insert pid
          ((m.processFrames.lookup pid).getD [] ++ [frame.number])⟩
    | (none, allocator) =>
      ([], frames.foldl (fun m frame => (m.freeFrame pid frame.number).2)
        { m with allocator := allocator })

/-- As many of these frames as there are. -/
def allocateFrames (m : PhysicalMemoryManager) (pid : Pid) (count : Nat) :
    List Frame × PhysicalMemoryManager :=
  allocateLoop pid count [] m

/-- Free all frames for a process. -/
def freeProcessFrames (m : PhysicalMemoryManager) (pid : Pid) : Nat × PhysicalMemoryManager :=
  let result := m.allocator.freeByOwner pid
  (result.1, ⟨result.2, m.processFrames.erase pid⟩)

/-- Frames of a process, through its list of numbers. -/
def getProcessFrames (m : PhysicalMemoryManager) (pid : Pid) : List Frame :=
  match m.processFrames.lookup pid with
  | some nums => nums.filterMap m.allocator.getFrame
  | none => []

/-- Memory of `n` frames has the frames it started with and an exact free queue. -/
def Exact (m : PhysicalMemoryManager) : Prop := m.allocator.Exact

theorem freeFrame_exact {m : PhysicalMemoryManager} (hx : m.Exact) (pid : Pid) (n : Nat) :
    (m.freeFrame pid n).2.Exact :=
  FrameAllocator.free_exact hx n

theorem freeFrame_queue (m : PhysicalMemoryManager) (pid : Pid) (n : Nat) {k : Nat}
    (hk : k ∈ (m.freeFrame pid n).2.allocator.freeQueue) : k ∈ m.allocator.freeQueue ∨ k = n := by
  have hfree : (m.freeFrame pid n).2.allocator = (m.allocator.free n).2 := rfl
  rw [hfree] at hk
  rcases m.allocator.free_cases n with h | ⟨old, -, -, h⟩
  · rw [h] at hk
    exact Or.inl hk
  · rw [h] at hk
    simpa using hk

theorem freeFrame_static (m : PhysicalMemoryManager) (pid : Pid) (n : Nat) :
    (m.freeFrame pid n).2.allocator.totalFrames = m.allocator.totalFrames ∧
      (m.freeFrame pid n).2.allocator.frameSize = m.allocator.frameSize := by
  have hfree : (m.freeFrame pid n).2.allocator = (m.allocator.free n).2 := rfl
  rw [hfree]
  rcases m.allocator.free_cases n with h | ⟨old, -, -, h⟩
  · rw [h]
    exact ⟨rfl, rfl⟩
  · rw [h]
    exact ⟨rfl, rfl⟩

/-- What one can rely on across a change of the manager: the allocator stays exact over the same
frames, and no frame outside `allowed` becomes free. -/
structure Keeps (allowed : Nat → Prop) (m m' : PhysicalMemoryManager) : Prop where
  exact : m'.Exact
  totalFrames_eq : m'.allocator.totalFrames = m.allocator.totalFrames
  frameSize_eq : m'.allocator.frameSize = m.allocator.frameSize
  queue_sub : ∀ n ∈ m'.allocator.freeQueue, n ∈ m.allocator.freeQueue ∨ allowed n

theorem keeps_freeFrames {pid : Pid} (frames : List Frame) {m : PhysicalMemoryManager}
    (hx : m.Exact) :
    Keeps (fun n => ∃ f ∈ frames, f.number = n) m
      (frames.foldl (fun m frame => (m.freeFrame pid frame.number).2) m) := by
  induction frames generalizing m with
  | nil => exact ⟨hx, rfl, rfl, fun n hn => Or.inl hn⟩
  | cons frame frames ih =>
    have hone := freeFrame_exact hx pid frame.number
    obtain ⟨ht, hs⟩ := m.freeFrame_static pid frame.number
    obtain ⟨hexact, htotal, hsize, hsub⟩ := ih hone
    refine ⟨hexact, htotal.trans ht, hsize.trans hs, fun n hn => ?_⟩
    rcases hsub n hn with hn | ⟨f, hf, hfn⟩
    · rcases m.freeFrame_queue pid frame.number hn with hn | rfl
      · exact Or.inl hn
      · exact Or.inr ⟨frame, List.mem_cons_self, rfl⟩
    · exact Or.inr ⟨f, List.mem_cons_of_mem _ hf, hfn⟩

/-- The allocation loop frees nothing that was not free or taken before by the loop itself. -/
theorem allocateLoop_keeps (pid : Pid) (k : Nat) (frames : List Frame)
    {m : PhysicalMemoryManager} (hx : m.Exact) :
    Keeps (fun n => ∃ f ∈ frames, f.number = n) m (allocateLoop pid k frames m).2 := by
  induction k generalizing frames m with
  | zero => exact ⟨hx, rfl, rfl, fun n hn => Or.inl hn⟩
  | succ k ih =>
    cases halloc : m.allocator.allocate pid with
    | mk result allocator =>
      cases result with
      | none =>
        obtain ⟨-, rfl⟩ := FrameAllocator.allocate_none hx halloc
        simp only [allocateLoop, halloc]
        exact keeps_freeFrames frames hx
      | some frame =>
        obtain ⟨n, rest, old, hq, hold, rfl, rfl⟩ := FrameAllocator.allocate_some halloc
        have hexact := FrameAllocator.allocate_exact hx halloc
        have hnum : (old.allocate pid).number = n := hx.number_eq n old hold
        simp only [allocateLoop, halloc]
        obtain ⟨hex, htotal, hsize, hsub⟩ := ih (frames ++ [old.allocate pid])
          (m := ⟨_, m.processFrames.insert pid
            ((m.processFrames.lookup pid).getD [] ++ [(old.allocate pid).number])⟩) hexact
        refine ⟨hex, htotal, hsize, fun i hi => ?_⟩
        rcases hsub i hi with hi | ⟨f, hf, rfl⟩
        · exact Or.inl (by rw [hq]; exact List.mem_cons_of_mem n hi)
        · rcases List.mem_append.1 hf with hf | hf
          · exact Or.inr ⟨f, hf, rfl⟩
          · rw [List.mem_singleton] at hf
            subst hf
            exact Or.inl (by rw [hq, hnum]; exact List.mem_cons_self)

/-- Allocating frames makes no frame free. -/
theorem allocateFrames_keeps {m : PhysicalMemoryManager} (hx : m.Exact) (pid : Pid)
    (count : Nat) : Keeps (fun _ => False) m (m.allocateFrames pid count).2 := by
  obtain ⟨hex, htotal, hsize, hsub⟩ := allocateLoop_keeps pid count [] hx
  refine ⟨hex, htotal, hsize, fun n hn => ?_⟩
  rcases hsub n hn with hn | ⟨f, hf, -⟩
  · exact Or.inl hn
  · exact absurd hf List.not_mem_nil

/-- Allocating one frame: the front of the queue, or nothing from an empty queue. -/
theorem allocateFrames_one {m : PhysicalMemoryManager} (hx : m.Exact) (pid : Pid) :
    (m.allocator.freeQueue = [] ∧ m.allocateFrames pid 1 = ([], m)) ∨
      ∃ frame m', m.allocateFrames pid 1 = ([frame], m') ∧
        frame.number ∈ m.allocator.freeQueue ∧ frame.number ∉ m'.allocator.freeQueue ∧
        frame.address = UInt64.ofNat (frame.number * m.allocator.frameSize) ∧
        Keeps (fun _ => False) m m' := by
  cases halloc : m.allocator.allocate pid with
  | mk result allocator =>
    cases result with
    | none =>
      obtain ⟨hq, rfl⟩ := FrameAllocator.allocate_none hx halloc
      refine Or.inl ⟨hq, ?_⟩
      simp [allocateFrames, allocateLoop, halloc]
    | some frame =>
      -- the frame is at the front of the queue, under its own number
      have hkeeps := allocateFrames_keeps hx pid 1
      obtain ⟨n, rest, old, hq, hold, rfl, rfl⟩ := FrameAllocator.allocate_some halloc
      have hnum : old.number = n := hx.number_eq n old hold
      have hnd := hx.queue_nodup
      rw [hq, List.nodup_cons] at hnd
      have hfst : (m.allocateFrames pid 1).1 = [old.allocate pid] := by
        simp [allocateFrames, allocateLoop, halloc]
      have hqueue : (m.allocateFrames pid 1).2.allocator.freeQueue = rest := by
        simp [allocateFrames, allocateLoop, halloc]
      refine Or.inr ⟨old.allocate pid, (m.allocateFrames pid 1).2, Prod.ext hfst rfl, ?_, ?_, ?_,
        hkeeps⟩
      · rw [hq]
        show old.number ∈ n :: rest
        rw [hnum]
        exact List.mem_cons_self
      · rw [hqueue]
        show old.number ∉ rest
        rw [hnum]
        exact hnd.1
      · show old.address = UInt64.ofNat (old.number * m.allocator.frameSize)
        rw [hnum]
        exact hx.address_eq n old hold

/-- The frames that a request for `k` frames is given: the first `k` of the queue, each owned by the
process afterwards; the other frames are as before. -/
structure Grant (pid : Pid) (k : Nat) (m : PhysicalMemoryManager) (granted : List Frame)
    (m' : PhysicalMemoryManager) : Prop where
  exact : m'.Exact
  totalFrames_eq : m'.allocator.totalFrames = m.allocator.totalFrames
  frameSize_eq : m'.allocator.frameSize = m.allocator.frameSize
  numbers : granted.map Frame.number = m.allocator.freeQueue.take k
  queue : m'.allocator.freeQueue = m.allocator.freeQueue.drop k
  owned : ∀ f ∈ granted, m'.allocator.frames[f.number]? = some f ∧ f.allocated = true ∧
    f.owner = some pid
  others : ∀ n, n ∉ m.allocator.freeQueue.take k →
    m'.allocator.frames[n]? = m.allocator.frames[n]?

/-- With enough free frames the loop hands them out in the order of the queue. -/
theorem allocateLoop_grant (pid : Pid) (k : Nat) (acc : List Frame) {m : PhysicalMemoryManager}
    (hx : m.Exact) (hk : k ≤ m.allocator.freeQueue.length) :
    ∃ granted m', allocateLoop pid k acc m = (acc ++ granted, m') ∧ Grant pid k m granted m' := by
  induction k generalizing acc m with
  | zero => exact ⟨[], m, by simp [allocateLoop], hx, rfl, rfl, rfl, rfl, by simp, fun _ _ => rfl⟩
  | succ k ih =>
    cases hq : m.allocator.freeQueue with
    | nil => simp [hq] at hk
    | cons n rest =>
      obtain ⟨old, hold, -⟩ := (hx.mem_queue_iff n).1 (by simp [hq])
      have hnum : (old.allocate pid).number = n := hx.number_eq n old hold
      have halloc : m.allocator.allocate pid = (some (old.allocate pid), { m.allocator with
          frames := m.allocator.frames.set n (old.allocate pid)
          freeQueue := rest
          freeCount := m.allocator.freeCount - 1
          allocatedCount := m.allocator.allocatedCount + 1 }) := by
        simp only [FrameAllocator.allocate, hq, hold]
      have hexact := FrameAllocator.allocate_exact hx halloc
      have hnd := hx.queue_nodup
      rw [hq, List.nodup_cons] at hnd
      rw [hq, List.length_cons] at hk
      obtain ⟨granted, m', hloop, hgrant⟩ := ih (acc ++ [old.allocate pid])
        (m := ⟨_, m.processFrames.insert pid
          ((m.processFrames.lookup pid).getD [] ++ [(old.allocate pid).number])⟩) hexact
        (Nat.le_of_succ_le_succ hk)
      have hfirst : n ∉ rest.take k := fun hmem => hnd.1 (List.mem_of_mem_take hmem)
      refine ⟨old.allocate pid :: granted, m', ?_, hgrant.exact, hgrant.totalFrames_eq,
        hgrant.frameSize_eq, ?_, ?_, ?_, ?_⟩
      · simp only [allocateLoop, halloc, hloop, List.append_assoc, List.singleton_append]
      · rw [List.map_cons, hnum, hgrant.numbers, hq, List.take_succ_cons]
      · rw [hgrant.queue, hq, List.drop_succ_cons]
      · intro f hf
        rcases List.mem_cons.1 hf with rfl | hf
        · refine ⟨?_, rfl, rfl⟩
          -- the frames taken later are others
          rw [hnum, hgrant.others n hfirst, FrameAllocator.getElem?_set_frame hold, if_pos rfl]
        · exact hgrant.owned f hf
      · intro i hi
        rw [hq, List.take_succ_cons, List.mem_cons, not_or] at hi
        rw [hgrant.others i hi.2, FrameAllocator.getElem?_set_frame hold, if_neg (Ne.symm hi.1)]

theorem allocateFrames_grant {m : PhysicalMemoryManager} (hx : m.Exact) (pid : Pid) {count : Nat}
    (hk : count ≤ m.allocator.freeQueue.length) :
    ∃ granted m', m.allocateFrames pid count = (granted, m') ∧ Grant pid count m granted m' := by
  obtain ⟨granted, m', hloop, hgrant⟩ := allocateLoop_grant pid count [] hx hk
  exact ⟨granted, m', hloop, hgrant⟩

/-- With too few free frames nothing is handed out. -/
theorem allocateLoop_short (pid : Pid) (k : Nat) (acc : List Frame) {m : PhysicalMemoryManager}
    (hx : m.Exact) (hk : m.allocator.freeQueue.length < k) : (allocateLoop pid k acc m).1 = [] := by
  induction k generalizing acc m with
  | zero => exact absurd hk (Nat.not_lt_zero _)
  | succ k ih =>
    cases halloc : m.allocator.allocate pid with
    | mk result allocator =>
      cases result with
      | none => simp only [allocateLoop, halloc]
      | some frame =>
        have hexact := FrameAllocator.allocate_exact hx halloc
        obtain ⟨n, rest, old, hq, -, -, rfl⟩ := FrameAllocator.allocate_some halloc
        simp only [allocateLoop, halloc]
        rw [hq, List.length_cons] at hk
        exact ih (acc ++ [frame]) hexact (Nat.lt_of_succ_lt_succ hk)

end PhysicalMemoryManager

end GenshinOs.Memory
