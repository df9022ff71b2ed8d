import GenshinOs.Lib.Trace
import GenshinOs.Process.Ipc

/-!
# Reference counts of shared memory

A shared memory region keeps the number of its attached processes beside the map of them
(`SharedMemoryRegion` and `IPCManager` in `src/services/process/ipc.rs`). A detach lowers the count only
if the process was attached. An attach raises it in any case, also when the process was attached before,
and no detach takes this back.

So the count is never below the number of attached processes (`Covered`). Over all requests it is equal to
it, and the clean-up removes what it should, exactly when no process attaches to a region twice
(`shared_memory_counts`).
-/

set_option autoImplicit false

namespace GenshinOs.Process

open GenshinOs.Lib

namespace SharedMemoryRegion

/-- The process is attached. -/
def isAttached (r : SharedMemoryRegion) (pid : Pid) : Bool := (r.attached.lookup pid).isSome

/-- The processes that are attached. -/
def attachedPids (r : SharedMemoryRegion) : List Pid := r.attached.keys

/-- Nobody is attached any more, and the region is to go. -/
def canDelete (r : SharedMemoryRegion) : Bool := r.markedForDeletion && r.refCount == 0

/-- The region is to go. -/
def markForDeletion (r : SharedMemoryRegion) : SharedMemoryRegion := { r with markedForDeletion := true }

/-- The count is the number of attached processes. -/
def Exact (r : SharedMemoryRegion) : Prop := r.refCount = r.attachedPids.length

/-- The count is not below the number of attached processes. -/
def Covered (r : SharedMemoryRegion) : Prop := r.attachedPids.length ≤ r.refCount

theorem length_attach (r : SharedMemoryRegion) (pid : Pid) (vaddr : VirtAddr) :
    (r.attach pid vaddr).attachedPids.length =
      r.attachedPids.length + if r.isAttached pid = true then 0 else 1 :=
  HashMap.length_keys_insert r.attached pid vaddr

theorem attachedPids_pos {r : SharedMemoryRegion} {pid : Pid} (h : r.isAttached pid = true) :
    0 < r.attachedPids.length :=
  List.length_pos_of_mem (AList.mem_keys.1 (AList.lookup_isSome.1 h))

/-- A detach removes the process and one from the count, or nothing from either. -/
theorem length_detach (r : SharedMemoryRegion) (pid : Pid) :
    (r.detach pid).2.attachedPids.length =
        r.attachedPids.length - (if r.isAttached pid = true then 1 else 0) ∧
      (r.detach pid).2.refCount = r.refCount - if r.isAttached pid = true then 1 else 0 := by
  rw [detach]
  by_cases hpid : (r.attached.lookup pid).isSome = true
  · have hlength := HashMap.length_keys_erase r.attached pid
    rw [if_pos hpid] at hlength
    rw [if_pos hpid, isAttached, if_pos hpid]
    exact ⟨hlength, rfl⟩
  · rw [if_neg hpid, isAttached, if_neg hpid]
    exact ⟨rfl, rfl⟩

theorem Covered.attach {r : SharedMemoryRegion} (h : r.Covered) (pid : Pid) (vaddr : VirtAddr) :
    (r.attach pid vaddr).Covered := by
  have hlength := length_attach r pid vaddr
  have hcount : (r.attach pid vaddr).refCount = r.refCount + 1 := rfl
  rw [Covered] at h ⊢
  split at hlength
  · omega
  · omega

theorem Covered.detach {r : SharedMemoryRegion} (h : r.Covered) (pid : Pid) :
    (r.detach pid).2.Covered := by
  obtain ⟨hlength, hcount⟩ := length_detach r pid
  rw [Covered] at h ⊢
  omega

/-- An attach keeps the count exact if and only if the process is new. -/
theorem exact_attach_iff {r : SharedMemoryRegion} (h : r.Exact) (pid : Pid) (vaddr : VirtAddr) :
    (r.attach pid vaddr).Exact ↔ r.isAttached pid = false := by
  have hlength := length_attach r pid vaddr
  have hcount : (r.attach pid vaddr).refCount = r.refCount + 1 := rfl
  rw [Exact] at h ⊢
  cases hpid : r.isAttached pid with
  | true =>
    rw [hpid, if_pos rfl] at hlength
    refine iff_of_false ?_ Bool.true_eq_false_eq_False.elim
    omega
  | false =>
    rw [hpid, if_neg Bool.false_ne_true] at hlength
    refine iff_of_true ?_ rfl
    omega

theorem Exact.detach {r : SharedMemoryRegion} (h : r.Exact) (pid : Pid) : (r.detach pid).2.Exact := by
  obtain ⟨hlength, hcount⟩ := length_detach r pid
  rw [Exact] at h ⊢
  rw [hlength, hcount, h]

/-- With an exact count, a region can be deleted when it is marked and nobody is attached. -/
theorem Exact.canDelete_iff {r : SharedMemoryRegion} (h : r.Exact) :
    r.canDelete = true ↔ r.markedForDeletion = true ∧ r.attachedPids = [] := by
  rw [canDelete, Bool.and_eq_true, beq_iff_eq, h, List.length_eq_zero_iff]

end SharedMemoryRegion

namespace IPCManager

/-- Mark a region; it stays until it is left by all. -/
def markSharedMemoryForDeletion (m : IPCManager) (shmid : Nat) : Except IPCError IPCManager :=
  match m.sharedMemory.lookup shmid with
  | none => .error (.notFound shmid)
  | some region => .ok { m with sharedMemory := m.sharedMemory.insert shmid region.markForDeletion }

/-- Remove the regions that can be deleted. The identifiers come in hash order. -/
def cleanupSharedMemory (m : IPCManager) (ord : HashOrder) : List Nat × IPCManager :=
  let toRemove :=
    ((HashMap.iter ord m.sharedMemory).filter fun entry => entry.2.canDelete).map Prod.fst
  (toRemove,
    { m with sharedMemory := toRemove.foldl (fun regions shmid => regions.erase shmid) m.sharedMemory })

theorem mem_cleanupSharedMemory {m : IPCManager} {ord : HashOrder} {shmid : Nat} :
    shmid ∈ (m.cleanupSharedMemory ord).1 ↔
      ∃ region, m.sharedMemory.lookup shmid = some region ∧ region.canDelete = true := by
  simp only [cleanupSharedMemory, List.mem_map, List.mem_filter]
  constructor
  · rintro ⟨⟨key, region⟩, ⟨hentry, hdelete⟩, rfl⟩
    exact ⟨region, (HashMap.mem_iter ord m.sharedMemory key region).1 hentry, hdelete⟩
  · rintro ⟨region, hlookup, hdelete⟩
    exact ⟨(shmid, region), ⟨(HashMap.mem_iter ord m.sharedMemory shmid region).2 hlookup, hdelete⟩, rfl⟩

theorem lookup_cleanupSharedMemory (m : IPCManager) (ord : HashOrder) (shmid : Nat) :
    (m.cleanupSharedMemory ord).2.sharedMemory.lookup shmid =
      if shmid ∈ (m.cleanupSharedMemory ord).1 then none else m.sharedMemory.lookup shmid :=
  HashMap.lookup_foldl_erase m.sharedMemory _ shmid

end IPCManager

/-! ## Requests -/

/-- What is asked of the manager about shared memory. -/
inductive SharedRequest where
  | create (creatorPid : Pid) (size : Nat) (physicalAddr : PhysAddr) (prot : MemProt)
  | attach (shmid : Nat) (pid : Pid) (vaddr : VirtAddr)
  | detach (shmid : Nat) (pid : Pid)
  | markForDeletion (shmid : Nat)
  | cleanup (ord : HashOrder)

namespace IPCManager

/-- The manager after a request; one that fails changes nothing. -/
def serve (m : IPCManager) : SharedRequest → IPCManager
  | .create creatorPid size physicalAddr prot =>
    (m.createSharedMemory creatorPid size physicalAddr prot).2
  | .attach shmid pid vaddr =>
    match m.attachSharedMemory shmid pid vaddr with
    | .ok m' => m'
    | .error _ => m
  | .detach shmid pid =>
    match m.detachSharedMemory shmid pid with
    | .ok detached => detached.2
    | .error _ => m
  | .markForDeletion shmid =>
    match m.markSharedMemoryForDeletion shmid with
    | .ok m' => m'
    | .error _ => m
  | .cleanup ord => (m.cleanupSharedMemory ord).2

/-- A request as a transition. -/
def serveTraced (m : IPCManager) (req : SharedRequest) :
    IPCManager × List (Transition IPCManager SharedRequest) := (m.serve req, [⟨m, req, m.serve req⟩])

/-- The process is attached to the region that it asks to be attached to. -/
def Reattaches (m : IPCManager) : SharedRequest → Prop
  | .attach shmid pid _ =>
    ∃ region, m.sharedMemory.lookup shmid = some region ∧ region.isAttached pid = true
  | _ => False

/-- The count of every region is the number of its attached processes. -/
def CountsExactly (m : IPCManager) : Prop :=
  ∀ shmid region, m.sharedMemory.lookup shmid = some region → region.Exact

/-- A clean-up removes the regions that are marked and have no attached process, and no other. -/
def CleansExactly (m : IPCManager) : SharedRequest → Prop
  | .cleanup ord =>
    ∀ shmid, (shmid ∈ (m.cleanupSharedMemory ord).1 ↔ ∃ region, m.sharedMemory.lookup shmid = some region ∧
        region.markedForDeletion = true ∧ region.attachedPids = []) ∧
      (m.cleanupSharedMemory ord).2.sharedMemory.lookup shmid =
        if shmid ∈ (m.cleanupSharedMemory ord).1 then none else m.sharedMemory.lookup shmid
  | _ => True

/-- Where a detach lowers the count, it is not zero. -/
def Decrementable (m : IPCManager) : SharedRequest → Prop
  | .detach shmid pid =>
    ∀ region, m.sharedMemory.lookup shmid = some region → region.isAttached pid = true →
      0 < region.refCount
  | _ => True

/-- A region after a request is new, or comes from one that was there before. -/
theorem serve_lookup {m : IPCManager} {req : SharedRequest} {shmid : Nat} {region : SharedMemoryRegion}
    (h : (m.serve req).sharedMemory.lookup shmid = some region) :
    m.sharedMemory.lookup shmid = some region ∨
      (∃ creatorPid size physicalAddr prot,
        region = SharedMemoryRegion.new m.nextShmid creatorPid size physicalAddr prot) ∨
      ∃ old, m.sharedMemory.lookup shmid = some old ∧
        ((∃ pid vaddr, req = .attach shmid pid vaddr ∧ region = old.attach pid vaddr) ∨
          (∃ pid, req = .detach shmid pid ∧ region = (old.detach pid).2) ∨
          req = .markForDeletion shmid ∧ region = old.markForDeletion) := by
  -- a request changes one region, if it is there; a clean-up removes some
  cases req with
  | create creatorPid size physicalAddr prot =>
    rcases HashMap.lookup_of_insert h with ⟨-, rfl⟩ | hsame
    · exact Or.inr (Or.inl ⟨creatorPid, size, physicalAddr, prot, rfl⟩)
    · exact Or.inl hsame
  | attach target pid vaddr =>
    have hchange : (m.serve (.attach target pid vaddr)).sharedMemory =
        (m.sharedMemory.lookup target).elim m.sharedMemory fun old =>
          m.sharedMemory.insert target (old.attach pid vaddr) := by
      rw [serve, attachSharedMemory]
      cases m.sharedMemory.lookup target <;> rfl
    rw [hchange] at h
    rcases HashMap.lookup_of_changed h with hsame | ⟨rfl, old, hold, rfl⟩
    · exact Or.inl hsame
    · exact Or.inr (Or.inr ⟨old, hold, Or.inl ⟨pid, vaddr, rfl, rfl⟩⟩)
  | detach target pid =>
    have hchange : (m.serve (.detach target pid)).sharedMemory =
        (m.sharedMemory.lookup target).elim m.sharedMemory fun old =>
          m.sharedMemory.insert target (old.detach pid).2 := by
      rw [serve, detachSharedMemory]
      cases m.sharedMemory.lookup target <;> rfl
    rw [hchange] at h
    rcases HashMap.lookup_of_changed h with hsame | ⟨rfl, old, hold, rfl⟩
    · exact Or.inl hsame
    · exact Or.inr (Or.inr ⟨old, hold, Or.inr (Or.inl ⟨pid, rfl, rfl⟩)⟩)
  | markForDeletion target =>
    have hchange : (m.serve (.markForDeletion target)).sharedMemory =
        (m.sharedMemory.lookup target).elim m.sharedMemory fun old =>
          m.sharedMemory.insert target old.markForDeletion := by
      rw [serve, markSharedMemoryForDeletion]
      cases m.sharedMemory.lookup target <;> rfl
    rw [hchange] at h
    rcases HashMap.lookup_of_changed h with hsame | ⟨rfl, old, hold, rfl⟩
    · exact Or.inl hsame
    · exact Or.inr (Or.inr ⟨old, hold, Or.inr (Or.inr ⟨rfl, rfl⟩)⟩)
  | cleanup ord =>
    rw [serve, lookup_cleanupSharedMemory] at h
    split at h
    · cases h
    · exact Or.inl h

/-- Counts stay at or above the number of attached processes, whatever is asked. -/
theorem covered_serve {m : IPCManager}
    (h : ∀ shmid region, m.sharedMemory.lookup shmid = some region → region.Covered) (req : SharedRequest) :
    ∀ shmid region, (m.serve req).sharedMemory.lookup shmid = some region → region.Covered := by
  intro shmid region hregion
  rcases serve_lookup hregion with hsame | ⟨_, _, _, _, rfl⟩ | ⟨old, hold, hnew⟩
  · exact h shmid region hsame
  · exact Nat.le_refl 0
  · rcases hnew with ⟨pid, vaddr, -, rfl⟩ | ⟨pid, -, rfl⟩ | ⟨-, rfl⟩
    · exact (h shmid old hold).attach pid vaddr
    · exact (h shmid old hold).detach pid
    · exact h shmid old hold

/-- Counts stay exact exactly when nobody attaches twice. -/
theorem countsExactly_serve_iff {m : IPCManager} (h : m.CountsExactly) (req : SharedRequest) :
    (m.serve req).CountsExactly ↔ ¬m.Reattaches req := by
  constructor
  · rintro hexact hagain
    cases req with
    | attach shmid pid vaddr =>
      obtain ⟨region, hregion, hpid⟩ := hagain
      -- the region that is attached to again
      have hnew : (m.serve (.attach shmid pid vaddr)).sharedMemory.lookup shmid =
          some (region.attach pid vaddr) := by
        simp only [serve, attachSharedMemory, hregion, HashMap.lookup_insert_eq, if_true]
      have hfresh := (SharedMemoryRegion.exact_attach_iff (h shmid region hregion) pid vaddr).1
        (hexact shmid _ hnew)
      rw [hpid] at hfresh
      cases hfresh
    | _ => exact hagain
  · intro hfresh shmid region hregion
    rcases serve_lookup hregion with hsame | ⟨_, _, _, _, rfl⟩ | ⟨old, hold, hnew⟩
    · exact h shmid region hsame
    · rfl
    · rcases hnew with ⟨pid, vaddr, rfl, rfl⟩ | ⟨pid, -, rfl⟩ | ⟨-, rfl⟩
      · apply (SharedMemoryRegion.exact_attach_iff (h shmid old hold) pid vaddr).2
        apply Bool.eq_false_iff.2
        intro hpid
        exact hfresh ⟨old, hold, hpid⟩
      · exact (h shmid old hold).detach pid
      · exact h shmid old hold

theorem CountsExactly.cleansExactly {m : IPCManager} (h : m.CountsExactly) (req : SharedRequest) :
    m.CleansExactly req := by
  cases req with
  | cleanup ord =>
    intro shmid
    refine ⟨?_, lookup_cleanupSharedMemory m ord shmid⟩
    rw [mem_cleanupSharedMemory]
    constructor
    · rintro ⟨region, hregion, hdelete⟩
      exact ⟨region, hregion, (h shmid region hregion).canDelete_iff.1 hdelete⟩
    · rintro ⟨region, hregion, hunused⟩
      exact ⟨region, hregion, (h shmid region hregion).canDelete_iff.2 hunused⟩
  | _ => trivial

/-- Over any requests, counts are exact and clean-ups remove what they should, exactly when no process
attaches to a region that it is attached to. No count ever goes below zero. -/
theorem shared_memory_counts (reqs : List SharedRequest) :
    ((∀ t ∈ (runTrace serveTraced new reqs).2, ¬t.pre.Reattaches t.act) ↔
      ∀ t ∈ (runTrace serveTraced new reqs).2, t.post.CountsExactly ∧ t.pre.CleansExactly t.act) ∧
    ∀ t ∈ (runTrace serveTraced new reqs).2, t.pre.Decrementable t.act := by
  obtain ⟨hchain, hstep⟩ := @runTrace_single _ _ serveTraced serve (fun _ _ => rfl) new reqs
  constructor
  · apply hchain.forall_iff (I := CountsExactly)
    · intro shmid region hregion
      cases hregion
    · intro t ht hexact
      have hiff := countsExactly_serve_iff hexact t.act
      rw [← hstep t ht] at hiff
      refine ⟨?_, hiff.2⟩
      constructor
      · exact fun hfresh => ⟨hiff.2 hfresh, hexact.cleansExactly t.act⟩
      · exact fun hgood => hiff.1 hgood.1
  · -- the counts cover the attached processes all along
    obtain ⟨-, hcovered⟩ := hchain.invariant
      (I := fun m => ∀ shmid region, m.sharedMemory.lookup shmid = some region → region.Covered)
      (fun _ _ hregion => by cases hregion)
      (fun t ht hpre => by
        rw [hstep t ht]
        exact covered_serve hpre t.act)
    intro t ht
    have hpre := (hcovered t ht).1
    cases hact : t.act with
    | detach shmid pid =>
      intro region hregion hpid
      exact Nat.lt_of_lt_of_le (SharedMemoryRegion.attachedPids_pos hpid) (hpre shmid region hregion)
    | _ => trivial

/-- Process 7 attaches twice to region 1 and detaches once; the region is marked and cleaned up. -/
def attachedTwice : List SharedRequest :=
  [.create 1 4096 0x1000 .readOnly, .attach 1 7 0x5000, .attach 1 7 0x5000, .detach 1 7,
    .markForDeletion 1, .cleanup HashOrder.stored]

theorem attached_twice_leaks :
    (¬∀ t ∈ (runTrace serveTraced new attachedTwice).2, t.post.CountsExactly) ∧
      ¬∀ t ∈ (runTrace serveTraced new attachedTwice).2, t.pre.CleansExactly t.act := by
  constructor
  · intro hall
    have hexact := hall
      ⟨(attachedTwice.take 3).foldl serve new, .detach 1 7, (attachedTwice.take 4).foldl serve new⟩
      (by simp [runTrace, serveTraced, attachedTwice])
    -- nobody is attached, and the count is one
    have hregion : (((attachedTwice.take 4).foldl serve new).sharedMemory.lookup 1).map
        (fun region => (region.refCount, region.attachedPids)) = some (1, []) := by decide
    obtain ⟨region, hlookup, hfields⟩ := Option.map_eq_some_iff.1 hregion
    obtain ⟨hcount, hpids⟩ := Prod.mk.inj hfields
    have heq := hexact 1 region hlookup
    rw [SharedMemoryRegion.Exact, hcount, hpids] at heq
    cases heq
  · intro hall
    have hcleans := hall
      ⟨(attachedTwice.take 5).foldl serve new, .cleanup HashOrder.stored,
        attachedTwice.foldl serve new⟩ (by simp [runTrace, serveTraced, attachedTwice])
    have hregion : (((attachedTwice.take 5).foldl serve new).sharedMemory.lookup 1).map
        (fun region => (region.markedForDeletion, region.attachedPids)) = some (true, []) := by decide
    obtain ⟨region, hlookup, hfields⟩ := Option.map_eq_some_iff.1 hregion
    obtain ⟨hmarked, hpids⟩ := Prod.mk.inj hfields
    -- the region is marked and unused, but nothing is removed
    have hmem := (hcleans 1).1.2 ⟨region, hlookup, hmarked, hpids⟩
    have hnone : (((attachedTwice.take 5).foldl serve new).cleanupSharedMemory HashOrder.stored).1 = [] := by
      decide
    rw [hnone] at hmem
    cases hmem

end IPCManager

end GenshinOs.Process
