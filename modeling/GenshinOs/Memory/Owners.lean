import GenshinOs.Memory.Alloc

/-!
# Owners of frames

Which process a frame belongs to, and what the operations of the manager do to that: freeing takes one
frame away from its owner, whoever it is; a request for frames hands out the front of the queue, or
leaves all owners as they were when there are too few.
-/

set_option autoImplicit false

namespace GenshinOs.Memory

open GenshinOs.Lib

namespace PhysicalMemoryManager

variable {m : PhysicalMemoryManager} {pid : Pid} {n : Nat}

/-- The frame with the given number belongs to a process. -/
def Owns (m : PhysicalMemoryManager) (pid : Pid) (n : Nat) : Prop :=
  ∃ f, m.allocator.frames[n]? = some f ∧ f.owner = some pid

/-- A free frame belongs to nobody. -/
theorem not_owns_free (hx : m.Exact) (hn : n ∈ m.allocator.freeQueue) : ¬m.Owns pid n := by
  rintro ⟨f, hf, howner⟩
  obtain ⟨g, hg, hfree⟩ := (hx.mem_queue_iff n).1 hn
  rw [hf] at hg
  cases hg
  have hallocated := hx.owner_iff f (List.mem_of_getElem? hf)
  rw [howner, hfree] at hallocated
  cases hallocated

theorem owns_freeFrame (hx : m.Exact) (releaser : Pid) (k : Nat) :
    (m.freeFrame releaser k).2.Owns pid n ↔ m.Owns pid n ∧ n ≠ k := by
  have hfree : (m.freeFrame releaser k).2.allocator = (m.allocator.free k).2 := rfl
  simp only [Owns, hfree]
  rcases m.allocator.free_cases k with h | ⟨old, hold, -, h⟩
  · -- nothing is freed: the frame had no owner
    have hidle : ¬m.Owns pid k := by
      rintro ⟨f, hf, howner⟩
      have hallocated := hx.owner_iff f (List.mem_of_getElem? hf)
      rw [howner] at hallocated
      have hlt : k < m.allocator.totalFrames := by
        rw [← hx.length_eq]
        exact (List.getElem?_eq_some_iff.1 hf).1
      simp [FrameAllocator.free, Nat.not_le.2 hlt, hf, ← hallocated] at h
    rw [h]
    constructor
    · rintro ⟨f, hf, howner⟩
      refine ⟨⟨f, hf, howner⟩, ?_⟩
      rintro rfl
      exact hidle ⟨f, hf, howner⟩
    · exact fun hand => hand.1
  · simp only [h, FrameAllocator.getElem?_set_frame hold]
    rcases eq_or_ne k n with rfl | hne
    · simp [Frame.free]
    · simp [hne, hne.symm]

theorem owns_freeFrames (hx : m.Exact) (releaser : Pid) (frames : List Frame) :
    (frames.foldl (fun m frame => (m.freeFrame releaser frame.number).2) m).Owns pid n ↔
      m.Owns pid n ∧ ∀ f ∈ frames, n ≠ f.number := by
  induction frames generalizing m with
  | nil => simp
  | cons frame frames ih =>
    rw [List.foldl_cons, ih (freeFrame_exact hx releaser frame.number), owns_freeFrame hx,
      List.forall_mem_cons, and_assoc]

/-- The frames that the loop took so far are given back. -/
theorem owns_allocateLoop_short (applicant : Pid) (k : Nat) (acc : List Frame) (hx : m.Exact)
    (hk : m.allocator.freeQueue.length < k) :
    (allocateLoop applicant k acc m).2.Owns pid n ↔ m.Owns pid n ∧ ∀ f ∈ acc, n ≠ f.number := by
  induction k generalizing acc m with
  | zero => exact absurd hk (Nat.not_lt_zero _)
  | succ k ih =>
    cases halloc : m.allocator.allocate applicant with
    | mk result allocator =>
      cases result with
      | none =>
        obtain ⟨-, rfl⟩ := FrameAllocator.allocate_none hx halloc
        simp only [allocateLoop, halloc]
        exact owns_freeFrames hx applicant acc
      | some frame =>
        have hexact := FrameAllocator.allocate_exact hx halloc
        obtain ⟨front, rest, old, hq, hold, rfl, rfl⟩ := FrameAllocator.allocate_some halloc
        have hnumber : (old.allocate applicant).number = front := hx.number_eq front old hold
        have hfront : ¬m.Owns pid front := not_owns_free hx (by rw [hq]; exact List.mem_cons_self)
        rw [hq, List.length_cons] at hk
        simp only [allocateLoop, halloc]
        have hrest := ih (acc ++ [old.allocate applicant])
          (m := ⟨_, m.processFrames.insert applicant
            ((m.processFrames.lookup applicant).getD [] ++ [(old.allocate applicant).number])⟩) hexact
          (Nat.lt_of_succ_lt_succ hk)
        rw [hrest]
        simp only [Owns, FrameAllocator.getElem?_set_frame hold, List.forall_mem_append,
          List.forall_mem_singleton, hnumber]
        -- the frame at the front had no owner, and is given back
        rcases eq_or_ne n front with rfl | hne
        · constructor
          · rintro ⟨-, -, habsurd⟩
            exact absurd rfl habsurd
          · rintro ⟨howns, -⟩
            exact absurd howns hfront
        · simp [hne, hne.symm]

/-- A request for frames: all of them, or nothing changes. -/
theorem owns_allocateFrames (hx : m.Exact) (applicant : Pid) (count : Nat) :
    (m.allocateFrames applicant count).2.Owns pid n ↔
      if count ≤ m.allocator.freeQueue.length ∧ n ∈ m.allocator.freeQueue.take count
        then pid = applicant else m.Owns pid n := by
  rcases Nat.lt_or_ge m.allocator.freeQueue.length count with hshort | henough
  · rw [if_neg (fun hand => absurd hand.1 (Nat.not_le.2 hshort)), allocateFrames,
      owns_allocateLoop_short applicant count [] hx hshort]
    simp
  · obtain ⟨granted, m', halloc, hgrant⟩ := allocateFrames_grant hx applicant henough
    rw [halloc]
    by_cases htaken : n ∈ m.allocator.freeQueue.take count
    · rw [if_pos ⟨henough, htaken⟩]
      rw [← hgrant.numbers] at htaken
      obtain ⟨frame, hframe, rfl⟩ := List.mem_map.1 htaken
      obtain ⟨hat, -, howner⟩ := hgrant.owned frame hframe
      constructor
      · rintro ⟨f, hf, hfowner⟩
        rw [hat] at hf
        cases hf
        rw [howner] at hfowner
        exact (Option.some.inj hfowner).symm
      · rintro rfl
        exact ⟨frame, hat, howner⟩
    · rw [if_neg (fun hand => htaken hand.2), Owns, hgrant.others n htaken]
      rfl

end PhysicalMemoryManager

end GenshinOs.Memory
