import GenshinOs.Memory.Owners
import GenshinOs.Memory.Answers
import Mathlib.Algebra.Order.Group.Multiset

/-!
# Frame lists

The manager stores twice who owns a frame: in the frame itself and in the list of its process. A
request for several frames is all or nothing for both, also when a list has numbers that are not
its own: what the loop took is given back, and the lists are the same up to their order.

The two records agree as long as every frame is freed under the process that owns it. The service
frees on request under the process number `0`, and evicts under the process whose page it found, so
a run keeps them in agreement when these are the owners.
-/

set_option autoImplicit false

namespace GenshinOs.Memory

open GenshinOs.Lib GenshinOs.Hardware

namespace PhysicalMemoryManager

variable {m : PhysicalMemoryManager}

/-- The frame list of a process, empty when there is none. -/
def frameList (m : PhysicalMemoryManager) (pid : Pid) : List Nat :=
  (m.processFrames.lookup pid).getD []

/-- The frame with the given number is free. -/
def IsFree (m : PhysicalMemoryManager) (n : Nat) : Prop :=
  ∃ f, m.allocator.frames[n]? = some f ∧ f.allocated = false

/-- The owner of a frame. -/
def ownerOf (m : PhysicalMemoryManager) (n : Nat) : Option Pid :=
  m.allocator.frames[n]?.bind Frame.owner

theorem frameList_freeFrame (pid : Pid) (n : Nat) (q : Pid) :
    (m.freeFrame pid n).2.frameList q =
      if q = pid then (m.frameList q).erase n else m.frameList q := by
  simp only [frameList, freeFrame, HashMap.lookup_adjust]
  rcases eq_or_ne q pid with rfl | hne
  · cases m.processFrames.lookup q <;> simp
  · simp [hne]

/-- The frames after one of them is freed. -/
theorem frames_freeFrame (hx : m.Exact) (pid : Pid) (n i : Nat) :
    (m.freeFrame pid n).2.allocator.frames[i]? =
      if i = n then (m.allocator.frames[i]?).map Frame.free else m.allocator.frames[i]? := by
  have hfree : (m.freeFrame pid n).2.allocator = (m.allocator.free n).2 := rfl
  rw [hfree]
  rcases m.allocator.free_cases n with h | ⟨old, hold, -, h⟩
  · -- the frame was free already, or does not exist
    rw [h]
    rcases eq_or_ne i n with rfl | hne
    · rw [if_pos rfl]
      cases hf : m.allocator.frames[i]? with
      | none => rfl
      | some f =>
        have hlt : i < m.allocator.totalFrames := by
          rw [← hx.length_eq]
          exact (List.getElem?_eq_some_iff.1 hf).1
        have hal : f.allocated = false := by
          by_contra hal
          simp [FrameAllocator.free, Nat.not_le.2 hlt, hf, hal] at h
        have howner : f.owner = none := by
          have := hx.owner_iff f (List.mem_of_getElem? hf)
          rw [hal] at this
          simpa using this
        simp [Frame.free, ← hal, ← howner]
    · rw [if_neg hne]
  · rw [h]
    simp only [FrameAllocator.getElem?_set_frame hold]
    rcases eq_or_ne i n with rfl | hne
    · simp [hold]
    · simp [hne, hne.symm]

/-! ## Giving frames back -/

/-- Free the frames one after the other, as a request that failed does. -/
def giveBack (m : PhysicalMemoryManager) (pid : Pid) (frames : List Frame) :
    PhysicalMemoryManager :=
  frames.foldl (fun m frame => (m.freeFrame pid frame.number).2) m

theorem frames_giveBack (hx : m.Exact) (pid : Pid) (frames : List Frame) (i : Nat) :
    (m.giveBack pid frames).allocator.frames[i]? =
      if i ∈ frames.map Frame.number then (m.allocator.frames[i]?).map Frame.free
      else m.allocator.frames[i]? := by
  induction frames generalizing m with
  | nil => simp [giveBack]
  | cons frame frames ih =>
    have hrest := ih (freeFrame_exact hx pid frame.number)
    rw [giveBack] at hrest
    rw [giveBack, List.foldl_cons, hrest, frames_freeFrame hx, List.map_cons]
    rcases eq_or_ne i frame.number with rfl | hne
    · -- freeing a frame twice is freeing it once
      cases m.allocator.frames[frame.number]? <;> simp [Frame.free]
    · simp [hne]

theorem frameList_giveBack (pid : Pid) (frames : List Frame) (q : Pid) :
    Multiset.ofList ((m.giveBack pid frames).frameList q) =
      if q = pid then Multiset.ofList (m.frameList q) - Multiset.ofList (frames.map Frame.number)
      else Multiset.ofList (m.frameList q) := by
  induction frames generalizing m with
  | nil => simp [giveBack]
  | cons frame frames ih =>
    have hrest := ih (m := (m.freeFrame pid frame.number).2)
    rw [giveBack] at hrest
    rw [giveBack, List.foldl_cons, hrest, frameList_freeFrame]
    split
    · rw [List.map_cons, ← Multiset.cons_coe, Multiset.sub_cons, Multiset.coe_erase]
    · rfl

/-! ## A request for frames -/

/-- A loop can be cut after any number of rounds that the queue can serve. -/
theorem allocateLoop_add (pid : Pid) (j k : Nat) (acc : List Frame) (hx : m.Exact)
    (hj : j ≤ m.allocator.freeQueue.length) :
    allocateLoop pid (j + k) acc m =
      allocateLoop pid k (allocateLoop pid j acc m).1 (allocateLoop pid j acc m).2 := by
  induction j generalizing acc m with
  | zero => rw [Nat.zero_add, allocateLoop]
  | succ j ih =>
    rw [Nat.succ_add]
    cases halloc : m.allocator.allocate pid with
    | mk result allocator =>
      cases result with
      | none =>
        obtain ⟨hq, -⟩ := FrameAllocator.allocate_none hx halloc
        rw [hq] at hj
        exact absurd hj (Nat.not_succ_le_zero j)
      | some frame =>
        have hexact := FrameAllocator.allocate_exact hx halloc
        obtain ⟨n, rest, old, hq, -, -, rfl⟩ := FrameAllocator.allocate_some halloc
        rw [hq, List.length_cons] at hj
        simp only [allocateLoop, halloc]
        exact ih (acc ++ [frame]) hexact (Nat.le_of_succ_le_succ hj)

/-- The frames that were handed out are at the end of the list of the process. -/
theorem frameList_allocateLoop (pid : Pid) (k : Nat) (acc : List Frame) (hx : m.Exact)
    (hk : k ≤ m.allocator.freeQueue.length) (q : Pid) :
    (allocateLoop pid k acc m).2.frameList q =
      if q = pid then m.frameList q ++ m.allocator.freeQueue.take k else m.frameList q := by
  induction k generalizing acc m with
  | zero => simp [allocateLoop]
  | succ k ih =>
    cases halloc : m.allocator.allocate pid with
    | mk result allocator =>
      cases result with
      | none =>
        obtain ⟨hq, -⟩ := FrameAllocator.allocate_none hx halloc
        rw [hq] at hk
        exact absurd hk (Nat.not_succ_le_zero k)
      | some frame =>
        have hexact := FrameAllocator.allocate_exact hx halloc
        obtain ⟨n, rest, old, hq, hold, rfl, rfl⟩ := FrameAllocator.allocate_some halloc
        have hnum : (old.allocate pid).number = n := hx.number_eq n old hold
        rw [hq, List.length_cons] at hk
        simp only [allocateLoop, halloc]
        rw [ih (acc ++ [old.allocate pid])
          (m := ⟨_, m.processFrames.insert pid
            ((m.processFrames.lookup pid).getD [] ++ [(old.allocate pid).number])⟩) hexact
          (Nat.le_of_succ_le_succ hk)]
        simp only [frameList, HashMap.lookup_insert_eq, hnum, hq, List.take_succ_cons]
        rcases eq_or_ne q pid with rfl | hne
        · simp
        · simp [hne]

/-- A request that the queue cannot serve takes all of it and gives it back. -/
theorem allocateFrames_short (hx : m.Exact) (pid : Pid) {count : Nat}
    (hshort : m.allocator.freeQueue.length < count) :
    ∃ granted m', Grant pid m.allocator.freeQueue.length m granted m' ∧
      (∀ q, m'.frameList q =
        if q = pid then m.frameList q ++ m.allocator.freeQueue else m.frameList q) ∧
      m.allocateFrames pid count = ([], m'.giveBack pid granted) := by
  obtain ⟨granted, m', hloop, hgrant⟩ := allocateLoop_grant pid _ [] hx (Nat.le_refl _)
  have hlists := frameList_allocateLoop pid _ [] hx (Nat.le_refl _)
  rw [hloop, List.take_length] at hlists
  refine ⟨granted, m', hgrant, hlists, ?_⟩
  obtain ⟨k, hk⟩ := Nat.exists_eq_add_of_lt hshort
  have hdry : m'.allocator.freeQueue = [] := by
    rw [hgrant.queue]
    exact List.drop_length
  have hnone : m'.allocator.allocate pid = (none, m'.allocator) := by
    simp [FrameAllocator.allocate, hdry]
  rw [allocateFrames, hk, Nat.add_assoc, allocateLoop_add pid _ _ _ hx (Nat.le_refl _), hloop]
  simp only [allocateLoop, hnone, List.nil_append]
  rfl

/-- All the frames that were asked for were handed out. -/
structure Granted (m : PhysicalMemoryManager) (pid : Pid) (count : Nat) (frames : List Frame)
    (m' : PhysicalMemoryManager) : Prop where
  length_eq : frames.length = count
  nodup : (frames.map Frame.number).Nodup
  free : ∀ f ∈ frames, m.IsFree f.number
  owned : ∀ f ∈ frames, m'.ownerOf f.number = some pid
  others : ∀ n, n ∉ frames.map Frame.number → m'.ownerOf n = m.ownerOf n
  lists : ∀ q, m'.frameList q =
    if q = pid then m.frameList q ++ frames.map Frame.number else m.frameList q

/-- Nothing was handed out, and the manager is as before up to the order of the lists. -/
structure Refused (m : PhysicalMemoryManager) (frames : List Frame) (m' : PhysicalMemoryManager) :
    Prop where
  nil : frames = []
  free : ∀ n, m'.IsFree n ↔ m.IsFree n
  owners : ∀ n, m'.ownerOf n = m.ownerOf n
  lists : ∀ q, Multiset.ofList (m'.frameList q) = Multiset.ofList (m.frameList q)

theorem granted_of_grant {pid : Pid} {count : Nat} {frames : List Frame}
    {m' : PhysicalMemoryManager} (hx : m.Exact) (hk : count ≤ m.allocator.freeQueue.length)
    (heq : m.allocateFrames pid count = (frames, m')) (hgrant : Grant pid count m frames m') :
    m.Granted pid count frames m' where
  length_eq := by
    have hlen := congrArg List.length hgrant.numbers
    rwa [List.length_map, List.length_take, Nat.min_eq_left hk] at hlen
  nodup := by
    rw [hgrant.numbers]
    exact hx.queue_nodup.sublist (List.take_sublist count _)
  free f hf := by
    have hmem : f.number ∈ m.allocator.freeQueue.take count := by
      rw [← hgrant.numbers]
      exact List.mem_map_of_mem hf
    exact (hx.mem_queue_iff f.number).1 (List.mem_of_mem_take hmem)
  owned f hf := by
    obtain ⟨hat, -, howner⟩ := hgrant.owned f hf
    rw [ownerOf, hat]
    exact howner
  others n hn := by
    rw [hgrant.numbers] at hn
    rw [ownerOf, ownerOf, hgrant.others n hn]
  lists q := by
    have hlists := frameList_allocateLoop pid count [] hx hk q
    rw [← allocateFrames, heq] at hlists
    rw [hlists, hgrant.numbers]

/-- A free frame is free and has no owner. -/
def Idle (m : PhysicalMemoryManager) (n : Nat) : Prop :=
  ∃ f, m.allocator.frames[n]? = some f ∧ f.allocated = false ∧ f.owner = none

theorem idle_of_mem_queue (hx : m.Exact) {n : Nat} (hn : n ∈ m.allocator.freeQueue) : m.Idle n := by
  obtain ⟨f, hf, hal⟩ := (hx.mem_queue_iff n).1 hn
  have howner := hx.owner_iff f (List.mem_of_getElem? hf)
  rw [hal] at howner
  exact ⟨f, hf, hal, by simpa using howner⟩

theorem Idle.isFree {n : Nat} (h : m.Idle n) : m.IsFree n := by
  obtain ⟨f, hf, hal, -⟩ := h
  exact ⟨f, hf, hal⟩

theorem Idle.ownerOf_eq {n : Nat} (h : m.Idle n) : m.ownerOf n = none := by
  obtain ⟨f, hf, -, howner⟩ := h
  rw [ownerOf, hf]
  exact howner

theorem refused_of_short {pid : Pid} {count : Nat} (hx : m.Exact)
    (hshort : m.allocator.freeQueue.length < count) :
    m.Refused (m.allocateFrames pid count).1 (m.allocateFrames pid count).2 := by
  obtain ⟨granted, m', hgrant, hlists, heq⟩ := allocateFrames_short hx pid hshort
  have hnumbers : granted.map Frame.number = m.allocator.freeQueue := by
    rw [hgrant.numbers, List.take_length]
  rw [heq]
  -- a frame of the queue is given back, and the others were never taken
  have hidle : ∀ n ∈ m.allocator.freeQueue, (m'.giveBack pid granted).Idle n := by
    intro n hn
    rw [← hnumbers] at hn
    obtain ⟨f, hf, rfl⟩ := List.mem_map.1 hn
    refine ⟨f.free, ?_, rfl, rfl⟩
    rw [frames_giveBack hgrant.exact, if_pos hn, (hgrant.owned f hf).1]
    rfl
  have hother : ∀ n : Nat, n ∉ m.allocator.freeQueue →
      (m'.giveBack pid granted).allocator.frames[n]? = m.allocator.frames[n]? := by
    intro n hn
    rw [frames_giveBack hgrant.exact, hnumbers, if_neg hn,
      hgrant.others n (by rw [List.take_length]; exact hn)]
  refine ⟨rfl, ?_, ?_, ?_⟩
  · intro n
    by_cases hn : n ∈ m.allocator.freeQueue
    · exact iff_of_true (hidle n hn).isFree (idle_of_mem_queue hx hn).isFree
    · rw [IsFree, IsFree, hother n hn]
  · intro n
    by_cases hn : n ∈ m.allocator.freeQueue
    · rw [(hidle n hn).ownerOf_eq, (idle_of_mem_queue hx hn).ownerOf_eq]
    · rw [ownerOf, ownerOf, hother n hn]
  · intro q
    rw [frameList_giveBack, hlists, hnumbers]
    split
    · rw [← Multiset.coe_add, add_tsub_cancel_right]
    · rfl

/-- A request for frames is all or nothing. -/
theorem allocateFrames_all_or_nothing (hx : m.Exact) (pid : Pid) (count : Nat) :
    m.Granted pid count (m.allocateFrames pid count).1 (m.allocateFrames pid count).2 ∨
      m.Refused (m.allocateFrames pid count).1 (m.allocateFrames pid count).2 := by
  rcases Nat.lt_or_ge m.allocator.freeQueue.length count with hshort | henough
  · exact Or.inr (refused_of_short hx hshort)
  · obtain ⟨granted, m', heq, hgrant⟩ := allocateFrames_grant hx pid henough
    rw [heq]
    exact Or.inl (granted_of_grant hx henough heq hgrant)

/-! ## Histories of the manager -/

/-- An operation on the manager. -/
inductive FrameOp where
  | allocateFrames (pid : Pid) (count : Nat)
  | freeFrame (pid : Pid) (frameNum : Nat)
  | freeProcessFrames (pid : Pid)
  deriving DecidableEq, Repr

/-- An operation on the frames. -/
def perform (m : PhysicalMemoryManager) : FrameOp → PhysicalMemoryManager
  | .allocateFrames pid count => (m.allocateFrames pid count).2
  | .freeFrame pid frameNum => (m.freeFrame pid frameNum).2
  | .freeProcessFrames pid => (m.freeProcessFrames pid).2

theorem perform_exact (hx : m.Exact) (op : FrameOp) : (m.perform op).Exact := by
  cases op with
  | allocateFrames pid count => exact (allocateFrames_keeps hx pid count).exact
  | freeFrame pid frameNum => exact freeFrame_exact hx pid frameNum
  | freeProcessFrames pid => exact FrameAllocator.freeByOwner_exact hx pid

/-- The manager after any operations on a fresh one. -/
def after (memorySize frameSize : Nat) (ops : List FrameOp) : PhysicalMemoryManager :=
  ops.foldl perform (new memorySize frameSize)

theorem after_exact (memorySize frameSize : Nat) (ops : List FrameOp) :
    (after memorySize frameSize ops).Exact := by
  have hfold : ∀ m : PhysicalMemoryManager, m.Exact → (ops.foldl perform m).Exact := by
    induction ops with
    | nil => exact fun m hx => hx
    | cons op ops ih => exact fun m hx => ih _ (perform_exact hx op)
  exact hfold _ (FrameAllocator.new_exact memorySize frameSize)

/-- After any history, a request hands out exactly the frames it asks for, or nothing and leaves
the manager as it was. -/
theorem allocation_all_or_nothing (memorySize frameSize : Nat) (ops : List FrameOp) (pid : Pid)
    (count : Nat) :
    (after memorySize frameSize ops).Granted pid count
        ((after memorySize frameSize ops).allocateFrames pid count).1
        ((after memorySize frameSize ops).allocateFrames pid count).2 ∨
      (after memorySize frameSize ops).Refused
        ((after memorySize frameSize ops).allocateFrames pid count).1
        ((after memorySize frameSize ops).allocateFrames pid count).2 :=
  allocateFrames_all_or_nothing (after_exact memorySize frameSize ops) pid count

-- A frame that was freed under another process is a stale number in the list of its owner. The
-- request that fails then takes it out from the wrong place, which only changes the order.
example :
    let m := after 8192 4096 [.allocateFrames 1 2, .freeFrame 2 0]
    m.frameList 1 = [0, 1] ∧ ((m.allocateFrames 1 2).2.frameList 1) = [1, 0] := by decide

/-! ## Agreement of the two records -/

/-- The frames listed for a process are the frames it owns, each once. -/
def Agrees (m : PhysicalMemoryManager) (pid : Pid) : Prop :=
  ((m.getProcessFrames pid).map Frame.number).Nodup ∧
    ∀ n, n ∈ (m.getProcessFrames pid).map Frame.number ↔
      n ∈ (m.allocator.framesByOwner pid).map Frame.number

/-- Nobody but the given process owns the frame. -/
def OwnedAtMost (m : PhysicalMemoryManager) (pid : Pid) (n : Nat) : Prop :=
  m.ownerOf n = none ∨ m.ownerOf n = some pid

instance (m : PhysicalMemoryManager) (pid : Pid) (n : Nat) : Decidable (m.OwnedAtMost pid n) :=
  inferInstanceAs (Decidable (_ ∨ _))

/-- The allocator is exact, and the lists have the frames of their processes. -/
structure Indexed (m : PhysicalMemoryManager) : Prop where
  exact : m.Exact
  nodup : ∀ pid, (m.frameList pid).Nodup
  mem_iff : ∀ pid n, n ∈ m.frameList pid ↔ m.ownerOf n = some pid

theorem Indexed.new (memorySize frameSize : Nat) : (new memorySize frameSize).Indexed where
  exact := FrameAllocator.new_exact memorySize frameSize
  nodup _ := List.nodup_nil
  mem_iff pid n := by
    refine iff_of_false (List.not_mem_nil) ?_
    intro howner
    obtain ⟨f, hf, hf'⟩ := Option.bind_eq_some_iff.1 howner
    simp only [PhysicalMemoryManager.new, FrameAllocator.new, List.getElem?_map,
      Option.map_eq_some_iff] at hf
    obtain ⟨i, -, rfl⟩ := hf
    cases hf'

theorem ownerOf_eq_some {pid : Pid} {n : Nat} :
    m.ownerOf n = some pid ↔ ∃ f, m.allocator.frames[n]? = some f ∧ f.owner = some pid :=
  Option.bind_eq_some_iff

/-- The frames found through the list have the numbers of the list. -/
theorem numbers_getProcessFrames (hx : m.Exact) (pid : Pid)
    (hrange : ∀ n ∈ m.frameList pid, (m.allocator.getFrame n).isSome) :
    (m.getProcessFrames pid).map Frame.number = m.frameList pid := by
  have hlist : ∀ nums : List Nat, (∀ n ∈ nums, (m.allocator.getFrame n).isSome) →
      (nums.filterMap m.allocator.getFrame).map Frame.number = nums := by
    intro nums
    induction nums with
    | nil => exact fun _ => rfl
    | cons n nums ih =>
      intro hall
      obtain ⟨f, hf⟩ := Option.isSome_iff_exists.1 (hall n List.mem_cons_self)
      have hnum : f.number = n := by
        simp only [FrameAllocator.getFrame] at hf
        split at hf
        · exact hx.number_eq n f hf
        · cases hf
      rw [List.filterMap_cons_some hf, List.map_cons, hnum,
        ih fun k hk => hall k (List.mem_cons_of_mem n hk)]
  rw [getProcessFrames]
  rw [frameList] at hrange ⊢
  cases hlookup : m.processFrames.lookup pid with
  | none => rfl
  | some nums =>
    rw [hlookup] at hrange
    exact hlist nums hrange

theorem Indexed.agrees (h : m.Indexed) (pid : Pid) : m.Agrees pid := by
  have hrange : ∀ n ∈ m.frameList pid, (m.allocator.getFrame n).isSome := by
    intro n hn
    obtain ⟨f, hf, -⟩ := ownerOf_eq_some.1 ((h.mem_iff pid n).1 hn)
    have hlt : n < m.allocator.totalFrames := by
      rw [← h.exact.length_eq]
      exact (List.getElem?_eq_some_iff.1 hf).1
    simp [FrameAllocator.getFrame, hlt, hf]
  rw [Agrees, numbers_getProcessFrames h.exact pid hrange]
  refine ⟨h.nodup pid, fun n => ?_⟩
  rw [h.mem_iff, h.exact.mem_framesByOwner, ownerOf_eq_some]

/-- Requests for frames keep the agreement. -/
theorem Indexed.allocateFrames (h : m.Indexed) (pid : Pid) (count : Nat) :
    (m.allocateFrames pid count).2.Indexed := by
  have hx := (allocateFrames_keeps h.exact pid count).exact
  rcases allocateFrames_all_or_nothing h.exact pid count with hall | hnone
  · -- what is handed out had no owner, so it was in no list
    have hfree : ∀ n ∈ (m.allocateFrames pid count).1.map Frame.number, m.ownerOf n = none := by
      intro n hn
      obtain ⟨f, hf, rfl⟩ := List.mem_map.1 hn
      obtain ⟨g, hg, hal⟩ := hall.free f hf
      exact (idle_of_mem_queue h.exact ((h.exact.mem_queue_iff _).2 ⟨g, hg, hal⟩)).ownerOf_eq
    have hnew : ∀ n ∈ (m.allocateFrames pid count).1.map Frame.number,
        (m.allocateFrames pid count).2.ownerOf n = some pid := by
      intro n hn
      obtain ⟨f, hf, rfl⟩ := List.mem_map.1 hn
      exact hall.owned f hf
    have hout : ∀ q, ∀ n ∈ (m.allocateFrames pid count).1.map Frame.number, n ∉ m.frameList q := by
      intro q n hn hmem
      have howner := (h.mem_iff q n).1 hmem
      rw [hfree n hn] at howner
      cases howner
    refine ⟨hx, fun q => ?_, fun q n => ?_⟩
    · rw [hall.lists]
      split
      · rw [List.nodup_append]
        refine ⟨h.nodup q, hall.nodup, ?_⟩
        rintro n hn k hk rfl
        exact hout q n hk hn
      · exact h.nodup q
    · rw [hall.lists]
      by_cases hn : n ∈ (m.allocateFrames pid count).1.map Frame.number
      · rw [hnew n hn]
        split
        · next heq =>
          rw [heq]
          exact iff_of_true (List.mem_append_right _ hn) rfl
        · next hne =>
          exact iff_of_false (hout q n hn) fun heq => hne (Option.some.inj heq).symm
      · rw [hall.others n hn, ← h.mem_iff]
        split
        · simp only [List.mem_append, hn, or_false]
        · rfl
  · refine ⟨hx, fun q => ?_, fun q n => ?_⟩
    · have hperm := Multiset.coe_eq_coe.1 (hnone.lists q)
      exact hperm.nodup_iff.2 (h.nodup q)
    · have hperm := Multiset.coe_eq_coe.1 (hnone.lists q)
      rw [hperm.mem_iff, hnone.owners, h.mem_iff]

theorem ownerOf_freeFrame (hx : m.Exact) (pid : Pid) (n i : Nat) :
    (m.freeFrame pid n).2.ownerOf i = if i = n then none else m.ownerOf i := by
  rw [ownerOf, ownerOf, frames_freeFrame hx]
  split
  · cases m.allocator.frames[i]? <;> rfl
  · rfl

/-- Freeing keeps the agreement when nobody else owns the frame. -/
theorem Indexed.freeFrame (h : m.Indexed) {pid : Pid} {n : Nat} (hown : m.OwnedAtMost pid n) :
    (m.freeFrame pid n).2.Indexed := by
  refine ⟨freeFrame_exact h.exact pid n, fun q => ?_, fun q i => ?_⟩
  · rw [frameList_freeFrame]
    split
    · exact (h.nodup q).erase n
    · exact h.nodup q
  · rw [frameList_freeFrame, ownerOf_freeFrame h.exact]
    split
    · rw [(h.nodup q).mem_erase_iff, h.mem_iff]
      split
      · next hi => simp [hi]
      · next hi => simp [hi]
    · next hne =>
      rw [h.mem_iff]
      split
      · next hi =>
        rw [hi]
        rcases hown with hnone | hsome
        · simp [hnone]
        · rw [hsome]
          exact iff_of_false (fun heq => hne (Option.some.inj heq).symm) nofun
      · rfl

end PhysicalMemoryManager

/-! ## Runs of the service -/

/-- A fault that finds no free frame evicts a page whose frame nobody else owns. -/
def EvictsOwn (s : MemoryService) (ord : HashOrder) (pid : Pid) : Prop :=
  s.memoryManager.allocator.freeQueue = [] → s.swapManager.HasSlot →
    ∀ vpid vaddr vframe, s.findVictimPage ord pid = some (vpid, vaddr, vframe) →
      s.memoryManager.OwnedAtMost vpid (vframe.toNat / 4096)

/-- Every frame that the request frees belongs to nobody, or to the process under whose number it
is freed: `0` for a request, the process of the page for an eviction. -/
def FreesOwn (s : MemoryService) (e : MemoryEvent) : Prop :=
  match e.req with
  | .freeFrame paddr => s.memoryManager.OwnedAtMost 0 (paddr.toNat / 4096)
  | .pageFaultHandler pid _ _ => e.answered = true → EvictsOwn s e.ord pid
  | _ => True

open PhysicalMemoryManager

section

variable {s : MemoryService}

/-- An eviction frees the frame of the victim and asks for one again. -/
theorem evictAndInstall_manager (s : MemoryService) (ord : HashOrder) (pid : Pid) (page : VirtAddr) :
    (s.evictAndInstall ord pid page).service.memoryManager = s.memoryManager ∨
      ∃ vpid vaddr vframe, s.findVictimPage ord pid = some (vpid, vaddr, vframe) ∧
        s.swapManager.HasSlot ∧
        (s.evictAndInstall ord pid page).service.memoryManager =
          ((s.memoryManager.freeFrame vpid (vframe.toNat / 4096)).2.allocateFrames pid 1).2 := by
  rw [MemoryService.evictAndInstall]
  cases hvictim : s.findVictimPage ord pid with
  | none => exact Or.inl rfl
  | some victim =>
    obtain ⟨vpid, vaddr, vframe⟩ := victim
    rcases s.swapManager.allocateSlot_cases vpid (vaddr.toNat / 4096) with
      ⟨-, halloc⟩ | ⟨old, slot, swap, hnext, halloc, hnumber, hdisk⟩
    · simp only [halloc]
      exact Or.inl rfl
    · have hwrite := swap.swapOut_iff slot.number (MemoryService.pageData s.mmu vpid vaddr)
      simp only [halloc]
      rcases hout : swap.swapOut slot.number (MemoryService.pageData s.mmu vpid vaddr) with
        ⟨e | u, swap'⟩
      · exact Or.inl rfl
      · -- the write succeeded, so the slot is on the disk
        have hback : swap.Backed slot.number := by
          rw [← hwrite, hout]
        have hslot : s.swapManager.HasSlot := by
          refine ⟨old, hnext, ?_⟩
          rw [SwapManager.Backed, hdisk, hnumber] at hback
          exact hback
        refine Or.inr ⟨vpid, vaddr, vframe, rfl, hslot, ?_⟩
        simp only [MemoryService.releaseVictim, MemoryService.insertSwapped]
        rcases hframes : (s.memoryManager.freeFrame vpid (vframe.toNat / 4096)).2.allocateFrames
          pid 1 with ⟨_ | ⟨frame, frames⟩, manager⟩
        · rfl
        · rfl

theorem indexed_allocateOrEvict (h : s.memoryManager.Indexed) {ord : HashOrder} {pid : Pid}
    (hown : EvictsOwn s ord pid) (page : VirtAddr) :
    (s.allocateOrEvict ord pid page).service.memoryManager.Indexed := by
  rcases allocateFrames_one h.exact pid with ⟨hqueue, heq⟩ | ⟨frame, manager, heq, -⟩
  · simp only [MemoryService.allocateOrEvict, heq]
    rcases evictAndInstall_manager s ord pid page with hsame | ⟨vpid, vaddr, vframe, hv, hslot, hnew⟩
    · rw [hsame]
      exact h
    · rw [hnew]
      exact (h.freeFrame (hown hqueue hslot vpid vaddr vframe hv)).allocateFrames pid 1
  · have hnew := h.allocateFrames pid 1
    rw [heq] at hnew
    simp only [MemoryService.allocateOrEvict, heq, MemoryService.installFrame_eq]
    exact hnew

theorem indexed_pageFaultWithResponse (h : s.memoryManager.Indexed) {ord : HashOrder} {pid : Pid}
    (hown : EvictsOwn s ord pid) (addr : VirtAddr) (access : AccessType) :
    (s.handlePageFaultWithResponse ord pid addr access).service.memoryManager.Indexed := by
  rw [MemoryService.handlePageFaultWithResponse]
  cases s.swappedSlot pid (pageBase addr) with
  | none => exact indexed_allocateOrEvict h hown (pageBase addr)
  | some slot =>
    cases hread : s.swapManager.swapIn slot with
    | error e =>
      simp only [hread]
      exact h
    | ok data =>
      rcases allocateFrames_one h.exact pid with ⟨-, heq⟩ | ⟨frame, manager, heq, -⟩
      · simp only [hread, heq]
        exact indexed_allocateOrEvict h hown (pageBase addr)
      · have hnew := h.allocateFrames pid 1
        rw [heq] at hnew
        simp only [hread, heq]
        exact hnew

theorem indexed_pageFault (h : s.memoryManager.Indexed) (pid : Pid) (addr : VirtAddr)
    (access : AccessType) : (s.handlePageFault pid addr access).service.memoryManager.Indexed := by
  have hnew := h.allocateFrames pid 1
  rw [MemoryService.handlePageFault]
  split
  · exact h
  · split
    · exact h
    · split
      · next heq =>
        rw [heq] at hnew
        split <;> exact hnew
      · next heq =>
        rw [heq] at hnew
        rw [handleMapPage_rest]
        exact hnew

theorem indexed_request (h : s.memoryManager.Indexed) {ord : HashOrder} {req : MemoryRequest}
    (hown : FreesOwn s ⟨ord, req, false⟩) :
    (s.handleMemoryRequest req).service.memoryManager.Indexed := by
  cases req with
  | allocFrame count pid => exact h.allocateFrames pid count
  | freeFrame paddr => exact h.freeFrame hown
  | mapPage pid virt phys prot =>
    rw [MemoryService.handleMemoryRequest, handleMapPage_rest]
    exact h
  | unmapPage pid virt =>
    simp only [MemoryService.handleMemoryRequest, MemoryService.handleUnmapPage]
    split <;> exact h
  | pageFaultHandler pid addr access => exact indexed_pageFault h pid addr access
  | swapOut pid virt =>
    simp only [MemoryService.handleMemoryRequest, MemoryService.handleSwapOut]
    split
    · exact h
    · split <;> exact h
  | swapIn pid virt =>
    simp only [MemoryService.handleMemoryRequest, MemoryService.handleSwapIn]
    split <;> exact h
  | getStats => exact h
  | getFrameMap => exact h

theorem indexed_requestWithResponse (h : s.memoryManager.Indexed) {ord : HashOrder}
    {req : MemoryRequest} (hown : FreesOwn s ⟨ord, req, true⟩) :
    (s.handleMemoryRequestWithResponse ord req).service.memoryManager.Indexed := by
  -- only allocations, frees and faults touch the lists
  cases req with
  | allocFrame count pid =>
    have hnew := h.allocateFrames pid count
    simp only [MemoryService.handleMemoryRequestWithResponse,
      MemoryService.handleAllocFrameWithResponse]
    split <;> exact hnew
  | freeFrame paddr =>
    have hnew := h.freeFrame hown
    simp only [MemoryService.handleMemoryRequestWithResponse,
      MemoryService.handleFreeFrameWithResponse]
    split <;> exact hnew
  | mapPage pid virt phys prot => exact h
  | unmapPage pid virt =>
    simp only [MemoryService.handleMemoryRequestWithResponse,
      MemoryService.handleUnmapPageWithResponse]
    split <;> exact h
  | pageFaultHandler pid addr access =>
    exact indexed_pageFaultWithResponse h (hown rfl) addr access
  | swapOut pid virt =>
    simp only [MemoryService.handleMemoryRequestWithResponse,
      MemoryService.handleSwapOutWithResponse]
    split
    · exact h
    · split
      · exact h
      · split <;> exact h
  | swapIn pid virt =>
    simp only [MemoryService.handleMemoryRequestWithResponse,
      MemoryService.handleSwapInWithResponse]
    split
    · exact h
    · split
      · exact h
      · split
        · exact h
        · split <;> exact h
  | getStats => exact h
  | getFrameMap => exact h

theorem indexed_take (h : s.memoryManager.Indexed) {e : MemoryEvent} (hown : FreesOwn s e) :
    (s.take e).memoryManager.Indexed := by
  obtain ⟨ord, req, answered⟩ := e
  cases answered with
  | true =>
    rw [MemoryService.take, if_pos rfl, handleEnvelope_service]
    exact indexed_requestWithResponse h hown
  | false => exact indexed_request h hown

end

/-- In a run whose requests only free frames under the number of their owner, the frame list of
every process has exactly the frames it owns, in every state. -/
theorem frame_lists_agree (memory : PhysicalMemory) (mmu : MMU) (swapDisk : VirtualDisk)
    (events : List MemoryEvent)
    (h : ∀ t ∈ (runTrace memoryTransition (MemoryService.new memory mmu swapDisk) events).2,
      FreesOwn t.pre t.act) :
    (∀ pid, (runTrace memoryTransition (MemoryService.new memory mmu swapDisk)
      events).1.memoryManager.Agrees pid) ∧
    ∀ t ∈ (runTrace memoryTransition (MemoryService.new memory mmu swapDisk) events).2,
      ∀ pid, t.pre.memoryManager.Agrees pid ∧ t.post.memoryManager.Agrees pid := by
  have hstart : (MemoryService.new memory mmu swapDisk).memoryManager.Indexed :=
    Indexed.new memory.size 4096
  obtain ⟨hend, hall⟩ := memoryTrace_invariant (I := fun s => s.memoryManager.Indexed) hstart events
    fun t ht hpre => indexed_take hpre (h t ht)
  exact ⟨fun pid => hend.agrees pid, fun t ht pid =>
    ⟨(hall t ht).1.agrees pid, (hall t ht).2.agrees pid⟩⟩

/-- Process 5 is given a frame. One of process 0 is given out and freed again. -/
def ownedAndFreed : List MemoryEvent :=
  [⟨HashOrder.stored, .allocFrame 1 5, true⟩, ⟨HashOrder.stored, .allocFrame 1 0, true⟩,
    ⟨HashOrder.stored, .freeFrame 0x1000, true⟩]

/-- The frame of process 5 stays in its list. -/
theorem frame_lists_agree_owned :
    (runTrace memoryTransition (bootMemory 8192 fun _ => 0) ownedAndFreed).1.memoryManager.ownerOf 0 =
        some 5 ∧
      ∀ pid, (runTrace memoryTransition (bootMemory 8192 fun _ => 0)
        ownedAndFreed).1.memoryManager.Agrees pid := by
  have hown : ∀ t ∈ (runTrace memoryTransition (bootMemory 8192 fun _ => 0) ownedAndFreed).2,
      FreesOwn t.pre t.act := by
    simp only [ownedAndFreed, runTrace, memoryTransition, List.singleton_append, List.forall_mem_cons]
    refine ⟨trivial, trivial, ?_, fun _ h => absurd h List.not_mem_nil⟩
    show PhysicalMemoryManager.OwnedAtMost _ 0 1
    decide +kernel
  exact ⟨by decide +kernel, (frame_lists_agree _ _ _ _ hown).1⟩

/-- A frame freed on request stays in the list of the process that owned it. -/
theorem freed_frame_still_listed :
    ¬ (runTrace memoryTransition (bootMemory 8192 fun _ => 0)
      [⟨HashOrder.stored, .allocFrame 1 5, true⟩,
        ⟨HashOrder.stored, .freeFrame 0, true⟩]).1.memoryManager.Agrees 5 := by
  rintro ⟨-, hmem⟩
  have hlisted := (hmem 0).1 (by decide +kernel)
  revert hlisted
  decide +kernel

end GenshinOs.Memory
