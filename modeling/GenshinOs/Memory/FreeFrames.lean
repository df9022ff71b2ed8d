import GenshinOs.Memory.Alloc

/-!
# Free frames

The frame allocator with the checks that the machine makes: an index outside of the frames and a counter
below zero stop the program (`none`), and the loop that frees the frames of a process is taken frame by
frame. On an exact allocator no check fails and the operations are those of the model without checks
(`serveChecked_eq`). So after every sequence of operations the queue has each free frame once, and the
counters are the numbers of free and of allocated frames (`free_list_exact`).
-/

set_option autoImplicit false

namespace GenshinOs.Memory

namespace FrameAllocator

/-! ## Operations with checks -/

/-- A counter is lowered, and not below zero. -/
def lower : Nat → Option Nat
  | 0 => none
  | n + 1 => some n

/-- A frame is taken; `none` where the code would panic. -/
def allocateChecked (a : FrameAllocator) (pid : Pid) : Option (Option Frame × FrameAllocator) :=
  match a.freeQueue with
  | [] => some (none, a)
  | frameNum :: rest => do
    let frame ← a.frames[frameNum]?
    let freeCount ← lower a.freeCount
    return (some (frame.allocate pid),
      { a with
        frames := a.frames.set frameNum (frame.allocate pid)
        freeQueue := rest
        freeCount := freeCount
        allocatedCount := a.allocatedCount + 1 })

/-- A frame is given back; `none` where the code would panic. -/
def freeChecked (a : FrameAllocator) (frameNum : Nat) : Option (Bool × FrameAllocator) :=
  if frameNum ≥ a.totalFrames then some (false, a)
  else do
    let frame ← a.frames[frameNum]?
    if frame.allocated = false then return (false, a)
    else
      let allocatedCount ← lower a.allocatedCount
      return (true,
        { a with
          frames := a.frames.set frameNum frame.free
          freeQueue := a.freeQueue ++ [frameNum]
          freeCount := a.freeCount + 1
          allocatedCount := allocatedCount })

/-- What the loop over the frames of a process changes besides the frames. -/
structure Tally where
  freeQueue : List Nat
  freeCount : Nat
  allocatedCount : Nat
  freed : Nat

/-- The loop over the frames, from one of them on. -/
def freeOwned (pid : Pid) : List Frame → Tally → Option (List Frame × Tally)
  | [], t => some ([], t)
  | frame :: rest, t =>
    if frame.owner == some pid then do
      let allocatedCount ← lower t.allocatedCount
      let (frames, t') ← freeOwned pid rest
        ⟨t.freeQueue ++ [frame.number], t.freeCount + 1, allocatedCount, t.freed + 1⟩
      return (frame.free :: frames, t')
    else do
      let (frames, t') ← freeOwned pid rest t
      return (frame :: frames, t')

/-- All frames of a process are given back; `none` where the code would panic. -/
def freeByOwnerChecked (a : FrameAllocator) (pid : Pid) : Option (Nat × FrameAllocator) := do
  let (frames, t) ← freeOwned pid a.frames ⟨a.freeQueue, a.freeCount, a.allocatedCount, 0⟩
  return (t.freed,
    { a with
      frames := frames
      freeQueue := t.freeQueue
      freeCount := t.freeCount
      allocatedCount := t.allocatedCount })

/-- Operations on the allocator. -/
inductive Request where
  | allocate (pid : Pid)
  | free (frameNum : Nat)
  | freeByOwner (pid : Pid)

/-- The allocator after an operation, if no check fails. -/
def serveChecked (a : FrameAllocator) : Request → Option FrameAllocator
  | .allocate pid => (a.allocateChecked pid).map Prod.snd
  | .free frameNum => (a.freeChecked frameNum).map Prod.snd
  | .freeByOwner pid => (a.freeByOwnerChecked pid).map Prod.snd

/-- A request of the interface. -/
def serve (a : FrameAllocator) : Request → FrameAllocator
  | .allocate pid => (a.allocate pid).2
  | .free frameNum => (a.free frameNum).2
  | .freeByOwner pid => (a.freeByOwner pid).2

/-! ## No check fails -/

theorem lower_eq {n : Nat} (h : 1 ≤ n) : lower n = some (n - 1) := by
  cases n with
  | zero => exact absurd h (by decide)
  | succ n => rfl

section checks

variable {a : FrameAllocator}

theorem allocateChecked_eq (hx : a.Exact) (pid : Pid) : a.allocateChecked pid = some (a.allocate pid) := by
  rw [allocateChecked, allocate]
  cases hq : a.freeQueue with
  | nil => rfl
  | cons frameNum rest =>
    obtain ⟨frame, hframe, -⟩ := (hx.mem_queue_iff frameNum).1 (by rw [hq]; exact List.mem_cons_self)
    -- the front of the queue is counted
    have hcount := hx.freeCount_eq
    rw [hq, List.length_cons] at hcount
    simp only [hframe, lower_eq (show 1 ≤ a.freeCount by omega)]
    rfl

theorem freeChecked_eq (hx : a.Exact) (frameNum : Nat) :
    a.freeChecked frameNum = some (a.free frameNum) := by
  rw [freeChecked, free]
  split
  · rfl
  · next hlt =>
    obtain ⟨frame, hframe⟩ : ∃ frame, a.frames[frameNum]? = some frame := by
      rw [ge_iff_le, Nat.not_le, ← hx.length_eq] at hlt
      exact ⟨_, List.getElem?_eq_getElem hlt⟩
    simp only [hframe, Option.bind_eq_bind, Option.bind_some]
    by_cases hfree : frame.allocated = false
    · rw [if_pos hfree, if_pos hfree]
      rfl
    · rw [if_neg hfree, if_neg hfree,
        lower_eq (hx.allocatedCount_pos hframe (eq_true_of_ne_false hfree))]
      rfl

/-- The loop frees the frames of the process, all of which are counted. -/
theorem freeOwned_eq (pid : Pid) {frames : List Frame} {t : Tally}
    (h : (frames.filter fun f => f.owner == some pid).length ≤ t.allocatedCount) :
    freeOwned pid frames t = some (frames.map fun f => if f.owner == some pid then f.free else f,
      ⟨t.freeQueue ++ (frames.filter fun f => f.owner == some pid).map Frame.number,
        t.freeCount + (frames.filter fun f => f.owner == some pid).length,
        t.allocatedCount - (frames.filter fun f => f.owner == some pid).length,
        t.freed + (frames.filter fun f => f.owner == some pid).length⟩) := by
  induction frames generalizing t with
  | nil => simp [freeOwned]
  | cons frame rest ih =>
    rw [freeOwned, List.map_cons]
    by_cases howner : (frame.owner == some pid) = true
    · have hfilter : (frame :: rest).filter (fun f => f.owner == some pid) =
          frame :: rest.filter fun f => f.owner == some pid := List.filter_cons_of_pos howner
      rw [hfilter, List.length_cons] at h
      rw [if_pos howner, if_pos howner, lower_eq (by omega), hfilter]
      simp only [Option.bind_eq_bind, Option.bind_some]
      rw [ih (by show _ ≤ t.allocatedCount - 1; omega)]
      -- one frame more, put in the queue before the others
      have hadd : ∀ n k : Nat, n + 1 + k = n + (k + 1) := by omega
      have hsub : ∀ n k : Nat, n - 1 - k = n - (k + 1) := by omega
      simp [hadd, hsub]
    · have hfilter : (frame :: rest).filter (fun f => f.owner == some pid) =
          rest.filter fun f => f.owner == some pid := List.filter_cons_of_neg howner
      rw [hfilter] at h
      rw [if_neg howner, if_neg howner, ih h, hfilter]
      rfl

theorem freeByOwnerChecked_eq (hx : a.Exact) (pid : Pid) :
    a.freeByOwnerChecked pid = some (a.freeByOwner pid) := by
  -- the sum of the counters is the same afterwards, so nothing was lost at zero
  have hafter : a.freeCount + (a.framesByOwner pid).length +
      (a.allocatedCount - (a.framesByOwner pid).length) = a.totalFrames :=
    (freeByOwner_exact hx pid).count_add
  have hbefore := hx.count_add
  have hcounted : (a.framesByOwner pid).length ≤ a.allocatedCount := by omega
  have hloop := @freeOwned_eq pid a.frames ⟨a.freeQueue, a.freeCount, a.allocatedCount, 0⟩ hcounted
  rw [freeByOwnerChecked, hloop]
  simp only [Option.bind_eq_bind, Option.bind_some, Nat.zero_add]
  rfl

/-- On an exact allocator the checks do not matter. -/
theorem serveChecked_eq (hx : a.Exact) (req : Request) : a.serveChecked req = some (a.serve req) := by
  cases req with
  | allocate pid =>
    rw [serveChecked, allocateChecked_eq hx]
    rfl
  | free frameNum =>
    rw [serveChecked, freeChecked_eq hx]
    rfl
  | freeByOwner pid =>
    rw [serveChecked, freeByOwnerChecked_eq hx]
    rfl

theorem Exact.serve (hx : a.Exact) (req : Request) : (a.serve req).Exact := by
  cases req with
  | allocate pid =>
    cases halloc : a.allocate pid with
    | mk result a' =>
      rw [FrameAllocator.serve, halloc]
      cases result with
      | none =>
        rw [(allocate_none hx halloc).2]
        exact hx
      | some frame => exact allocate_exact hx halloc
  | free frameNum => exact free_exact hx frameNum
  | freeByOwner pid => exact freeByOwner_exact hx pid

end checks

/-! ## Counts -/

/-- What the queue, the owners and the counters say about the frames. -/
structure FreeListExact (a : FrameAllocator) : Prop where
  queue_free : ∀ n, (∃ f, a.frames[n]? = some f ∧ f.allocated = false) → a.freeQueue.count n = 1
  queue_other : ∀ n, (∀ f, a.frames[n]? = some f → f.allocated = true) → n ∉ a.freeQueue
  owned : ∀ f ∈ a.frames, (∃ pid, f.owner = some pid) ↔ f.allocated = true
  freeCount_eq : a.freeCount = a.frames.countP fun f => !f.allocated
  allocatedCount_eq : a.allocatedCount = a.frames.countP fun f => f.allocated
  count_add : a.freeCount + a.allocatedCount = a.totalFrames
  exhausted : ∀ pid, (a.allocate pid).1 = none → ∀ f ∈ a.frames, f.allocated = true

section counts

variable {a : FrameAllocator}

/-- The free frames by their numbers are what the queue has. -/
theorem Exact.queue_perm (hx : a.Exact) :
    a.freeQueue.Perm ((a.frames.filter fun f => !f.allocated).map Frame.number) := by
  have hnodup : ((a.frames.filter fun f => !f.allocated).map Frame.number).Nodup :=
    hx.numbers_nodup.sublist (List.filter_sublist.map Frame.number)
  refine (List.perm_ext_iff_of_nodup hx.queue_nodup hnodup).2 fun n => ?_
  rw [hx.mem_queue_iff]
  simp only [List.mem_map, List.mem_filter, Bool.not_eq_true']
  constructor
  · rintro ⟨f, hf, hfree⟩
    exact ⟨f, ⟨List.mem_of_getElem? hf, hfree⟩, hx.number_eq n f hf⟩
  · rintro ⟨f, ⟨hmem, hfree⟩, rfl⟩
    obtain ⟨i, hi⟩ := List.mem_iff_getElem?.1 hmem
    exact ⟨f, by rw [hx.number_eq i f hi]; exact hi, hfree⟩

theorem Exact.freeListExact (hx : a.Exact) : a.FreeListExact := by
  have hfree : a.freeCount = a.frames.countP fun f => !f.allocated := by
    rw [hx.freeCount_eq, hx.queue_perm.length_eq, List.length_map, List.countP_eq_length_filter]
  have htotal : a.frames.length =
      a.frames.countP (fun f => f.allocated) + a.frames.countP fun f => !f.allocated := by
    rw [List.length_eq_countP_add_countP fun f : Frame => f.allocated]
    simp
  have hcount := hx.count_add
  rw [hx.length_eq] at htotal
  refine ⟨?_, ?_, ?_, hfree, by omega, hcount, ?_⟩
  · intro n hn
    exact List.count_eq_one_of_mem hx.queue_nodup ((hx.mem_queue_iff n).2 hn)
  · intro n hn hmem
    obtain ⟨f, hf, hal⟩ := (hx.mem_queue_iff n).1 hmem
    rw [hn f hf] at hal
    cases hal
  · intro f hf
    rw [← hx.owner_iff f hf, Option.isSome_iff_exists]
  · intro pid hnone f hf
    have hempty := (@allocate_none a (a.allocate pid).2 hx pid (Prod.ext hnone rfl)).1
    -- no frame is left in the queue
    have hzero : a.frames.countP (fun f => !f.allocated) = 0 := by
      rw [← hfree, hx.freeCount_eq, hempty]
      rfl
    simpa using List.countP_eq_zero.1 hzero f hf

end counts

/-- After every sequence of operations, none of which is stopped by a check, the free list is exact. -/
theorem free_list_exact (memorySize frameSize : Nat) (reqs : List Request) :
    ∃ a, reqs.foldlM serveChecked (new memorySize frameSize) = some a ∧ a.FreeListExact := by
  have hrun : ∀ a : FrameAllocator, a.Exact → ∃ a', reqs.foldlM serveChecked a = some a' ∧ a'.Exact := by
    induction reqs with
    | nil => exact fun a hx => ⟨a, rfl, hx⟩
    | cons req reqs ih =>
      intro a hx
      obtain ⟨a', hrest, hx'⟩ := ih (a.serve req) (hx.serve req)
      refine ⟨a', ?_, hx'⟩
      rw [List.foldlM_cons, serveChecked_eq hx]
      exact hrest
  obtain ⟨a, ha, hx⟩ := hrun _ (new_exact memorySize frameSize)
  exact ⟨a, ha, hx.freeListExact⟩

end FrameAllocator

end GenshinOs.Memory
