import GenshinOs.Files.Overflow

/-!
# Descriptor numbers

The numbers of a table are handed out in order and never again (`src/services/file/descriptor.rs`).
Whatever is allocated, duplicated, closed, cloned or dropped, the open descriptors of a table lie between
3 and its next number, and the next number is at most the limit (`FileTable.Bounded`). So a number that is
handed out is free (`descriptors_issued_once`), and the numbers run out once as many have been handed out
as there are, whether they are still open or not (`exhausted_only_full_iff`).
-/

set_option autoImplicit false

namespace GenshinOs.Files

open GenshinOs.Lib

namespace FileTable

/-- The open descriptors lie from 3 to the next number, and the next number is at most the limit. -/
structure Bounded (limit : Nat) (t : FileTable) : Prop where
  max_eq : t.maxFds = limit
  low : 3 ≤ t.nextFd
  high : t.nextFd ≤ max 3 limit
  between : ∀ fd e, t.get fd = some e → 3 ≤ fd ∧ fd < t.nextFd

variable {limit : Nat} {t : FileTable}

theorem bounded_new (limit : Nat) : Bounded limit (new limit) :=
  ⟨rfl, Nat.le_refl 3, Nat.le_max_left 3 limit, fun _ _ h => by cases h⟩

theorem Bounded.next_free (h : Bounded limit t) : t.get t.nextFd = none := by
  cases hget : t.get t.nextFd with
  | none => rfl
  | some e => exact absurd (h.between _ e hget).2 (Nat.lt_irrefl _)

/-- An entry under the next number, which is below the limit. -/
theorem Bounded.insert (h : Bounded limit t) (hroom : t.nextFd < limit) (e : OpenFile) :
    Bounded limit { t with
      nextFd := t.nextFd + 1
      descriptors := t.descriptors.insert t.nextFd e } := by
  refine ⟨h.max_eq, Nat.le_succ_of_le h.low, Nat.le_trans hroom (Nat.le_max_right 3 limit), ?_⟩
  intro fd e' he'
  rw [FileTable.get, HashMap.lookup_insert_eq] at he'
  split at he'
  · next hfd => exact ⟨hfd ▸ h.low, hfd ▸ Nat.lt_succ_self _⟩
  · exact ⟨(h.between fd e' he').1, Nat.lt_succ_of_lt (h.between fd e' he').2⟩

theorem bounded_allocate (h : Bounded limit t) (owner : Pid) (file flags : Nat) :
    Bounded limit (t.allocate owner file flags).2 := by
  rw [allocate]
  split
  · exact h
  · next hroom => exact h.insert (by rw [← h.max_eq]; omega) _

theorem bounded_dup (h : Bounded limit t) (oldFd : Nat) : Bounded limit (t.dup oldFd).2 := by
  simp only [dup]
  split
  · exact h
  · split
    · exact h
    · next hroom => exact h.insert (by rw [← h.max_eq]; omega) _

theorem bounded_close (h : Bounded limit t) (fd : Nat) : Bounded limit (t.close fd).2 := by
  rw [close]
  split
  · exact h
  · refine ⟨h.max_eq, h.low, h.high, ?_⟩
    intro fd' e he
    rw [FileTable.get, HashMap.lookup_erase_eq] at he
    split at he
    · cases he
    · exact h.between fd' e he

/-- A number below the limit that comes from another table moves the next number behind it. -/
theorem bounded_adopt (h : Bounded limit t) (owner : Pid) {fd : Nat} (hlow : 3 ≤ fd) (hhigh : fd < limit)
    (source : OpenFile) : Bounded limit (t.adopt owner fd source) := by
  have hbump : (t.adopt owner fd source).nextFd = max t.nextFd (fd + 1) := by
    -- the source moves the next number only when the adopted one is not below it
    show (if t.nextFd ≤ fd then fd + 1 else t.nextFd) = _
    split
    · omega
    · omega
  refine ⟨h.max_eq, ?_, ?_, ?_⟩
  · rw [hbump]
    exact Nat.le_trans h.low (Nat.le_max_left _ _)
  · rw [hbump]
    -- the adopted number is below the limit, so its successor is not above it
    have hhigh' := h.high
    omega
  · intro fd' e he
    rw [hbump]
    rw [FileTable.get, adopt, HashMap.lookup_insert_eq] at he
    split at he
    · omega
    · have hold := h.between fd' e he
      omega

end FileTable

namespace FileDescriptorManager

/-- All tables are bounded by the limit of the manager. -/
def Bounded (m : FileDescriptorManager) : Prop :=
  ∀ pid t, m.processTables.lookup pid = some t → t.Bounded m.maxFdsPerProcess

variable {m : FileDescriptorManager}

theorem bounded_new (limit : Nat) : Bounded (new limit) := by
  intro pid t h
  cases h

theorem Bounded.getTable (h : Bounded m) (pid : Pid) : (m.getTable pid).Bounded m.maxFdsPerProcess := by
  rw [FileDescriptorManager.getTable]
  cases htable : m.processTables.lookup pid with
  | none => exact FileTable.bounded_new _
  | some t => exact h pid t htable

theorem Bounded.setTable (h : Bounded m) (pid : Pid) {t : FileTable}
    (ht : t.Bounded m.maxFdsPerProcess) : Bounded (m.setTable pid t) := by
  intro pid' t' ht'
  rw [FileDescriptorManager.setTable, HashMap.lookup_insert_eq] at ht'
  split at ht'
  · cases ht'
    exact ht
  · exact h pid' t' ht'

theorem get_setTable (m : FileDescriptorManager) (pid pid' : Pid) (t : FileTable) (fd : Nat) :
    (m.setTable pid t).get pid' fd = if pid' = pid then t.get fd else m.get pid' fd := by
  rw [FileDescriptorManager.get, setTable, HashMap.lookup_insert_eq]
  split
  · rfl
  · rfl

theorem get_getTable (m : FileDescriptorManager) (pid : Pid) (fd : Nat) :
    (m.getTable pid).get fd = m.get pid fd := by
  rw [FileDescriptorManager.getTable, FileDescriptorManager.get]
  cases m.processTables.lookup pid with
  | none => rfl
  | some t => rfl

/-- A descriptor lies between 3 and the limit. -/
theorem Bounded.get_lt (h : Bounded m) {pid : Pid} {fd : Nat} {e : OpenFile}
    (hget : m.get pid fd = some e) : 3 ≤ fd ∧ fd < m.maxFdsPerProcess := by
  -- a missing table is a new one, so that the bound holds of it as well
  rw [← get_getTable] at hget
  have htable := h.getTable pid
  have hbetween := htable.between fd e hget
  have hhigh := htable.high
  omega

/-! ## Operations -/

theorem bounded_allocate (h : Bounded m) (pid : Pid) (file flags : Nat) :
    Bounded (m.allocate pid file flags).2 :=
  h.setTable pid (FileTable.bounded_allocate (h.getTable pid) pid file flags)

theorem bounded_dup (h : Bounded m) (pid : Pid) (oldFd : Nat) : Bounded (m.dup pid oldFd).2 := by
  rw [dup]
  split
  · exact h
  · next t ht => exact h.setTable pid (FileTable.bounded_dup (h pid t ht) oldFd)

theorem bounded_close (h : Bounded m) (pid : Pid) (fd : Nat) : Bounded (m.close pid fd).2 := by
  rw [close]
  split
  · exact h
  · next t ht => exact h.setTable pid (FileTable.bounded_close (h pid t ht) fd)

theorem bounded_removeProcess (h : Bounded m) (pid : Pid) : Bounded (m.removeProcess pid).2 := by
  rw [removeProcess]
  split
  · exact h
  · intro pid' t' ht'
    rw [HashMap.lookup_erase_eq] at ht'
    split at ht'
    · cases ht'
    · exact h pid' t' ht'

theorem bounded_cloneFd (h : Bounded m) (fromPid toPid : Pid) (fd : Nat) :
    Bounded (cloneFd fromPid toPid m fd) := by
  rw [cloneFd]
  split
  · exact h
  · next source hsource =>
    obtain ⟨hlow, hhigh⟩ := h.get_lt hsource
    exact h.setTable toPid (FileTable.bounded_adopt (h.getTable toPid) toPid hlow hhigh source)

theorem bounded_cloneFds (h : Bounded m) (ord : HashOrder) (fromPid toPid : Pid) :
    Bounded (m.cloneFds ord fromPid toPid) := by
  have hensured := h.setTable toPid (h.getTable toPid)
  simp only [cloneFds]
  split
  · exact hensured
  -- one descriptor after the other, in any order of the keys
  · exact List.foldlRecOn _ _ hensured fun m hm fd _ => bounded_cloneFd hm fromPid toPid fd

/-! ## What is open after them -/

/-- The file behind a descriptor, with its flags. -/
def object (m : FileDescriptorManager) (pid : Pid) (fd : Nat) : Option (Nat × Nat) :=
  (m.get pid fd).map fun e => (e.file, e.flags)

/-- A number that `allocate` hands out was free, and no other descriptor changes. -/
theorem allocate_ok (h : Bounded m) {pid : Pid} {file flags fd : Nat}
    (hok : (m.allocate pid file flags).1 = .ok fd) :
    m.get pid fd = none ∧ ∀ pid' fd', (m.allocate pid file flags).2.get pid' fd' =
      if pid' = pid ∧ fd' = fd then some ⟨fd, pid, file, flags⟩ else m.get pid' fd' := by
  -- the number that is handed out is the next one, and everything open is below it
  have hfree := (h.getTable pid).next_free
  simp only [allocate, FileTable.allocate] at hok ⊢
  split at hok
  · cases hok
  · next hroom =>
    cases hok
    rw [if_neg hroom]
    refine ⟨by rwa [← get_getTable], ?_⟩
    intro pid' fd'
    rw [get_setTable]
    by_cases hpid : pid' = pid
    · subst hpid
      simp only [if_true, true_and, FileTable.get, HashMap.lookup_insert_eq]
      split
      · rfl
      · exact get_getTable m pid' fd'
    · simp [hpid]

/-- A number that `dup` hands out was free, and it leads to the old entry. -/
theorem dup_ok (h : Bounded m) {pid : Pid} {oldFd fd : Nat} (hok : (m.dup pid oldFd).1 = .ok fd) :
    m.get pid fd = none ∧ ∀ pid' fd', (m.dup pid oldFd).2.get pid' fd' =
      if pid' = pid ∧ fd' = fd then m.get pid oldFd else m.get pid' fd' := by
  cases htable : m.processTables.lookup pid with
  | none =>
    rw [dup, htable] at hok
    cases hok
  | some t =>
    have hget : ∀ x, m.get pid x = t.get x := by
      intro x
      rw [FileDescriptorManager.get, htable]
      rfl
    -- the process has a table, or there was nothing to duplicate
    have hfree := (h pid t htable).next_free
    simp only [dup, htable, FileTable.dup] at hok ⊢
    cases hold : t.get oldFd with
    | none =>
      rw [hold] at hok
      cases hok
    | some e =>
      rw [hold] at hok
      simp only at hok ⊢
      split at hok
      · cases hok
      · next hroom =>
        cases hok
        rw [if_neg hroom, hget, hget]
        refine ⟨hfree, ?_⟩
        intro pid' fd'
        rw [get_setTable]
        by_cases hpid : pid' = pid
        · subst hpid
          simp only [if_true, true_and, FileTable.get, HashMap.lookup_insert_eq]
          split
          · exact hold.symm
          · exact (hget fd').symm
        · simp [hpid]

theorem object_cloneFd (m : FileDescriptorManager) (fromPid toPid : Pid) (fd : Nat) (pid : Pid) (x : Nat) :
    (cloneFd fromPid toPid m fd).object pid x =
      if pid = toPid ∧ x = fd ∧ (m.object fromPid fd).isSome then m.object fromPid fd
      else m.object pid x := by
  rw [cloneFd]
  cases hsource : m.get fromPid fd with
  | none =>
    rw [if_neg]
    rintro ⟨-, -, hsome⟩
    rw [object, hsource] at hsome
    cases hsome
  | some source =>
    have hobject : m.object fromPid fd = some (source.file, source.flags) := by
      rw [object, hsource]
      rfl
    rw [hobject, object, get_setTable]
    by_cases hpid : pid = toPid
    · subst hpid
      simp only [if_true, true_and, Option.isSome_some, and_true, FileTable.get, FileTable.adopt,
        HashMap.lookup_insert_eq]
      split
      · rfl
      · exact congrArg (Option.map _) (get_getTable m pid x)
    · simp only [hpid, if_false, false_and]
      rfl

/-- The clone leaves what is behind the descriptors of the source, even when it is its own target. -/
theorem object_cloneFd_source (m : FileDescriptorManager) (fromPid toPid : Pid) (fd x : Nat) :
    (cloneFd fromPid toPid m fd).object fromPid x = m.object fromPid x := by
  rw [object_cloneFd]
  split
  · next h => rw [h.2.1]
  · rfl

theorem object_foldl_cloneFd (fromPid toPid : Pid) (l : List Nat) (m : FileDescriptorManager) (pid : Pid)
    (x : Nat) : (l.foldl (cloneFd fromPid toPid) m).object pid x =
      if pid = toPid ∧ x ∈ l ∧ (m.object fromPid x).isSome then m.object fromPid x
      else m.object pid x := by
  induction l generalizing m with
  | nil => simp
  | cons fd l ih =>
    -- the source keeps what it has, so that the later steps copy from the same table
    rw [List.foldl_cons, ih, object_cloneFd_source, object_cloneFd]
    by_cases hpid : pid = toPid
    · by_cases hx : x = fd
      · subst hx
        by_cases hsome : (m.object fromPid x).isSome = true
        · simp [hpid, hsome]
        · simp [hpid, hsome]
      · simp [hpid, hx]
    · simp [hpid]

/-- The child has what is behind the descriptors of the parent, and keeps its own ones besides. -/
theorem object_cloneFds (m : FileDescriptorManager) (ord : HashOrder) (fromPid toPid pid : Pid) (x : Nat) :
    (m.cloneFds ord fromPid toPid).object pid x =
      if pid = toPid ∧ (m.object fromPid x).isSome then m.object fromPid x else m.object pid x := by
  have hensured : ∀ pid x, (m.setTable toPid (m.getTable toPid)).object pid x = m.object pid x := by
    intro pid x
    rw [object, get_setTable]
    split
    · next hpid =>
      rw [get_getTable, hpid]
      rfl
    · rfl
  simp only [cloneFds]
  cases htable : (m.setTable toPid (m.getTable toPid)).processTables.lookup fromPid with
  | none =>
    have hnone : m.object fromPid x = none := by
      rw [← hensured, object, FileDescriptorManager.get, htable]
      rfl
    simp only [hensured, hnone, Option.isSome_none, Bool.false_eq_true, and_false, if_false]
  | some t =>
    have hmem : x ∈ ord.arrange t.descriptors.keys ↔ (m.object fromPid x).isSome := by
      rw [ord.mem_arrange, ← hensured, object, FileDescriptorManager.get, htable, Option.isSome_map]
      exact AList.lookup_isSome.symm
    simp only [object_foldl_cloneFd, hensured, hmem, and_self]

end FileDescriptorManager

/-! ## Runs -/

/-- An operation on the tables. -/
inductive FdOp where
  | allocate (pid : Pid) (file flags : Nat)
  | dup (pid : Pid) (oldFd : Nat)
  | close (pid : Pid) (fd : Nat)
  | cloneFds (ord : HashOrder) (fromPid toPid : Pid)
  | removeProcess (pid : Pid)

namespace FileDescriptorManager

/-- An operation on the tables of descriptors. -/
def apply (m : FileDescriptorManager) : FdOp → FileDescriptorManager
  | .allocate pid file flags => (m.allocate pid file flags).2
  | .dup pid oldFd => (m.dup pid oldFd).2
  | .close pid fd => (m.close pid fd).2
  | .cloneFds ord fromPid toPid => m.cloneFds ord fromPid toPid
  | .removeProcess pid => (m.removeProcess pid).2

/-- A new manager after some operations. -/
def managed (limit : Nat) (ops : List FdOp) : FileDescriptorManager := ops.foldl apply (new limit)

theorem bounded_apply {m : FileDescriptorManager} (h : Bounded m) (op : FdOp) : Bounded (m.apply op) := by
  cases op with
  | allocate pid file flags => exact bounded_allocate h pid file flags
  | dup pid oldFd => exact bounded_dup h pid oldFd
  | close pid fd => exact bounded_close h pid fd
  | cloneFds ord fromPid toPid => exact bounded_cloneFds h ord fromPid toPid
  | removeProcess pid => exact bounded_removeProcess h pid

theorem max_apply (m : FileDescriptorManager) (op : FdOp) :
    (m.apply op).maxFdsPerProcess = m.maxFdsPerProcess := by
  cases op with
  | allocate pid file flags => rfl
  | dup pid oldFd =>
    show (m.dup pid oldFd).2.maxFdsPerProcess = _
    rw [dup]
    split
    · rfl
    · rfl
  | close pid fd => exact max_close m pid fd
  | cloneFds ord fromPid toPid => exact max_cloneFds m ord fromPid toPid
  | removeProcess pid =>
    show (m.removeProcess pid).2.maxFdsPerProcess = _
    rw [removeProcess]
    split
    · rfl
    · rfl

theorem managed_bounded (limit : Nat) (ops : List FdOp) :
    Bounded (managed limit ops) ∧ (managed limit ops).maxFdsPerProcess = limit := by
  apply List.foldlRecOn (motive := fun m : FileDescriptorManager =>
    Bounded m ∧ m.maxFdsPerProcess = limit)
  · exact ⟨bounded_new limit, rfl⟩
  · intro m hm op _
    exact ⟨bounded_apply hm.1 op, (max_apply m op).trans hm.2⟩

/-- After any operations, the open descriptors lie between 3 and the next number, which stays within the
limit; what is handed out was free and replaces nothing; and a clone adds exactly the descriptors of the
source, on its files. -/
theorem descriptors_issued_once (limit : Nat) (ops : List FdOp) :
    (∀ pid t, (managed limit ops).processTables.lookup pid = some t → t.nextFd ≤ max 3 limit ∧
      ∀ fd e, t.get fd = some e → 3 ≤ fd ∧ fd < t.nextFd) ∧
    (∀ pid file flags fd, ((managed limit ops).allocate pid file flags).1 = .ok fd →
      (managed limit ops).get pid fd = none ∧
        ∀ pid' fd', ((managed limit ops).allocate pid file flags).2.get pid' fd' =
          if pid' = pid ∧ fd' = fd then some ⟨fd, pid, file, flags⟩
          else (managed limit ops).get pid' fd') ∧
    (∀ pid oldFd fd, ((managed limit ops).dup pid oldFd).1 = .ok fd →
      (managed limit ops).get pid fd = none ∧
        ∀ pid' fd', ((managed limit ops).dup pid oldFd).2.get pid' fd' =
          if pid' = pid ∧ fd' = fd then (managed limit ops).get pid oldFd
          else (managed limit ops).get pid' fd') ∧
    ∀ ord fromPid toPid pid fd, ((managed limit ops).cloneFds ord fromPid toPid).object pid fd =
      if pid = toPid ∧ ((managed limit ops).object fromPid fd).isSome
      then (managed limit ops).object fromPid fd else (managed limit ops).object pid fd := by
  obtain ⟨hbounded, hmax⟩ := managed_bounded limit ops
  refine ⟨?_, fun _ _ _ _ => allocate_ok hbounded, fun _ _ _ => dup_ok hbounded,
    object_cloneFds (managed limit ops)⟩
  intro pid t ht
  have htable := hbounded pid t ht
  rw [hmax] at htable
  exact ⟨htable.high, htable.between⟩

end FileDescriptorManager

/-! ## Exhaustion -/

open FileService FileDescriptorManager

/-- The number of open descriptors. -/
def FileTable.count (t : FileTable) : Nat := t.descriptors.keys.length

/-- Every number that the table handed out is open. -/
def FileTable.AllOpen (t : FileTable) : Prop := ∀ fd, 3 ≤ fd → fd < t.nextFd → (t.get fd).isSome

/-- Between 3 and the next number there is room for so many descriptors, and all of it is taken exactly
when every number is open. -/
theorem FileTable.Bounded.count_eq_iff {limit : Nat} {t : FileTable} (h : t.Bounded limit) :
    t.count = t.nextFd - 3 ↔ t.AllOpen := by
  have hsub : t.descriptors.keys ⊆ List.range' 3 (t.nextFd - 3) := by
    intro fd hfd
    obtain ⟨e, he⟩ := Option.isSome_iff_exists.1 (AList.lookup_isSome.2 hfd)
    have hbetween := h.between fd e he
    rw [List.mem_range'_1]
    omega
  -- different keys in a range: there are at most as many as the range is long
  have hperm := List.subperm_of_subset (AList.keys_nodup t.descriptors) hsub
  have hlow := h.low
  rw [count]
  constructor
  · intro hcount fd hle hlt
    -- as many keys as numbers: the keys are all of them
    have hall : t.descriptors.keys.Perm (List.range' 3 (t.nextFd - 3)) := by
      apply hperm.perm_of_length_le
      rw [List.length_range', hcount]
    have hmem : fd ∈ List.range' 3 (t.nextFd - 3) := by
      rw [List.mem_range'_1]
      omega
    exact AList.lookup_isSome.2 (hall.mem_iff.2 hmem)
  · intro hopen
    apply Nat.le_antisymm
    · simpa using hperm.length_le
    · have hback : List.range' 3 (t.nextFd - 3) ⊆ t.descriptors.keys := by
        intro fd hfd
        rw [List.mem_range'_1] at hfd
        exact AList.lookup_isSome.1 (hopen fd hfd.1 (by omega))
      simpa using (List.subperm_of_subset List.nodup_range' hback).length_le

section Service

variable {s : FileService}

theorem fdManager_read (s : FileService) (fd : UInt32) (count : Nat) :
    (s.handleReadWithResponse 0 fd count).service.fdManager = s.fdManager := by
  simp only [handleReadWithResponse]
  split
  · rfl
  · split
    · rfl
    · rfl

theorem fdManager_write (s : FileService) (fd : UInt32) (data : List UInt8) :
    (s.handleWriteWithResponse 0 fd data).service.fdManager = s.fdManager := by
  simp only [handleWriteWithResponse]
  split
  · rfl
  · split
    · rfl
    · rw [persist_eq]
      rfl

/-- Every request keeps the tables bounded. -/
theorem bounded_take (h : s.fdManager.Bounded) (e : FileEvent) : (s.take e).fdManager.Bounded := by
  cases take_tableEffect s e with
  | tree v hv =>
    rw [hv]
    exact h
  | opened path flags _ hopen =>
    rw [hopen]
    obtain ⟨v, hservice, -⟩ | ⟨node, v, -, hservice⟩ := open_cases s path flags
    · rw [hservice]
      exact h
    · rw [hservice]
      exact bounded_allocate h 0 node.inode 0
  | closed fd _ hclose =>
    rw [hclose]
    exact bounded_close h 0 fd.toNat
  | synced fd _ hclose =>
    have hsame := (syncOnClose_tables s 0 fd).2
    rw [hclose]
    -- the write back does not touch the tables
    show ((s.syncOnClose 0 fd).fdManager.close 0 fd.toNat).2.Bounded
    rw [hsame]
    exact bounded_close h 0 fd.toNat
  | read fd count _ hread =>
    rw [hread, fdManager_read]
    exact h
  | wrote fd data _ hwrite =>
    rw [hwrite, fdManager_write]
    exact h
  | cloned fromPid toPid hclone =>
    rw [hclone]
    exact bounded_cloneFds h e.ord fromPid toPid

/-- The request opens a file that exists. -/
def OpensExisting (s : FileService) (req : FileRequest) : Prop :=
  ∃ path flags node, req = .open path flags ∧ s.vfs.lookupPath path = .ok node ∧ node.isFile = true

/-- The handler says that the numbers ran out. -/
def Exhausted (result : Except ServiceError Unit) : Prop :=
  ∃ resource available requested, result = .error (.resourceExhausted resource available requested)

/-- An open of an existing file fails for want of numbers exactly when the next one is at the limit. -/
theorem exhausted_open_iff {e : FileEvent} (h : OpensExisting s e.req) :
    Exhausted (s.handled e).result ↔ (s.fdManager.getTable 0).maxFds ≤ (s.fdManager.getTable 0).nextFd := by
  obtain ⟨path, flags, node, hreq, hfound, hfile⟩ := h
  have hnode : openNode s.vfs 0 path flags = (.ok node, s.vfs) := by
    rw [openNode, hfound]
  -- the file exists, so nothing else can go wrong before the number is allocated
  rw [(handled_open hreq).2, handleOpenWithResponse, hnode]
  simp only [hfile, Bool.true_eq_false, if_false, FileDescriptorManager.allocate, FileTable.allocate]
  by_cases hfull : (s.fdManager.getTable 0).maxFds ≤ (s.fdManager.getTable 0).nextFd
  · simp only [if_pos hfull]
    exact iff_of_true ⟨_, _, _, rfl⟩ hfull
  · simp only [if_neg hfull]
    apply iff_of_false _ hfull
    rintro ⟨_, _, _, hresult⟩
    cases hresult

/-- An open of an existing file runs out of numbers only when as many descriptors are open as there are
numbers. -/
def ExhaustedOnlyFull (s : FileService) (e : FileEvent) : Prop :=
  OpensExisting s e.req → Exhausted (s.handled e).result →
    (s.fdManager.getTable 0).count = s.fdManager.maxFdsPerProcess - 3

/-- Before an open of an existing file, there is a number left, or all numbers handed out are open. -/
def NumbersKept (s : FileService) (e : FileEvent) : Prop :=
  OpensExisting s e.req →
    (s.fdManager.getTable 0).nextFd < s.fdManager.maxFdsPerProcess ∨ (s.fdManager.getTable 0).AllOpen

theorem exhaustedOnlyFull_iff (h : s.fdManager.Bounded) (e : FileEvent) :
    ExhaustedOnlyFull s e ↔ NumbersKept s e := by
  have htable := h.getTable 0
  have hcount := htable.count_eq_iff
  have hlow := htable.low
  have hhigh := htable.high
  apply forall_congr'
  intro hopens
  rw [exhausted_open_iff hopens, htable.max_eq, ← hcount]
  by_cases hroom : (s.fdManager.getTable 0).nextFd < s.fdManager.maxFdsPerProcess
  · exact iff_of_true (fun hfull => absurd hroom (Nat.not_lt.2 hfull)) (Or.inl hroom)
  · -- at the limit, the numbers between 3 and the next one are all there are
    have hlast : (s.fdManager.getTable 0).nextFd - 3 = s.fdManager.maxFdsPerProcess - 3 := by omega
    rw [hlast]
    constructor
    · intro hfull
      exact Or.inr (hfull (Nat.not_lt.1 hroom))
    · rintro (hlt | hfull) _
      · exact absurd hlt hroom
      · exact hfull

theorem bounded_run (h : s.fdManager.Bounded) (es : List FileEvent) :
    (runTrace fileTransition s es).1.fdManager.Bounded ∧
      ∀ t ∈ (runTrace fileTransition s es).2, t.pre.fdManager.Bounded := by
  have hkept := fileTrace_invariant (I := fun s => s.fdManager.Bounded) h es
    fun t _ hpre => bounded_take hpre t.act
  exact ⟨hkept.1, fun t ht => (hkept.2 t ht).1⟩

/-- In a run of a started service, opens run out of numbers only when all descriptors are open exactly
where every open finds a number left, or nothing closed among the numbers handed out. -/
theorem exhausted_only_full_iff {limit : Nat} (hstart : s.fdManager = FileDescriptorManager.new limit)
    (es : List FileEvent) :
    (∀ t ∈ (runTrace fileTransition s es).2, ExhaustedOnlyFull t.pre t.act) ↔
      ∀ t ∈ (runTrace fileTransition s es).2, NumbersKept t.pre t.act := by
  have hbounded : s.fdManager.Bounded := by
    rw [hstart]
    exact FileDescriptorManager.bounded_new limit
  have hall := (bounded_run hbounded es).2
  constructor
  · intro honly t ht
    exact (exhaustedOnlyFull_iff (hall t ht) t.act).1 (honly t ht)
  · intro hkept t ht
    exact (exhaustedOnlyFull_iff (hall t ht) t.act).2 (hkept t ht)

end Service

/-! ## Opening and closing -/

/-- A file is opened and closed again, so many times, from descriptor 3 on. -/
def openAndClose (path : String) (n : Nat) : List FileEvent :=
  (List.range n).flatMap fun i =>
    [⟨.stored, .open path .readOnly, true⟩, ⟨.stored, .close (UInt32.ofNat (3 + i)), true⟩]

/-- The path leads to a file, nothing is open, and `n` numbers were handed out. -/
structure Idle (limit : Nat) (path : String) (n : Nat) (s : FileService) : Prop where
  file : ∃ node, s.vfs.lookupPath path = .ok node ∧ node.isFile = true
  next_eq : (s.fdManager.getTable 0).nextFd = 3 + n
  max_eq : (s.fdManager.getTable 0).maxFds = limit
  closed : ∀ fd, (s.fdManager.getTable 0).get fd = none

variable {s : FileService} {limit n : Nat} {path : String}

theorem getTable_setTable (m : FileDescriptorManager) (pid : Pid) (t : FileTable) :
    (m.setTable pid t).getTable pid = t := by
  rw [FileDescriptorManager.getTable, FileDescriptorManager.setTable, HashMap.lookup_insert_eq, if_pos rfl]
  rfl

/-- One round costs one number. -/
theorem Idle.round (h : Idle limit path n s) (hroom : 3 + n < limit) (hword : limit ≤ 2 ^ 32) :
    Idle limit path (n + 1) ((s.take ⟨.stored, .open path .readOnly, true⟩).take
      ⟨.stored, .close (UInt32.ofNat (3 + n)), true⟩) := by
  obtain ⟨⟨node, hfound, hfile⟩, hnext, hmax, hclosed⟩ := h
  have hnode : openNode s.vfs 0 path .readOnly = (.ok node, s.vfs) := by
    rw [openNode, hfound]
  have hfd : (UInt32.ofNat (3 + n)).toNat = 3 + n := by
    rw [UInt32.toNat_ofNat']
    exact Nat.mod_eq_of_lt (by omega)
  -- after the open, one descriptor is in the table
  have hallocated : s.fdManager.allocate 0 node.inode 0 =
      (.ok (3 + n), s.fdManager.setTable 0 { s.fdManager.getTable 0 with
        nextFd := 3 + n + 1
        descriptors := (s.fdManager.getTable 0).descriptors.insert (3 + n) ⟨3 + n, 0, node.inode, 0⟩ }) := by
    have hbelow : ¬3 + n ≥ (s.fdManager.getTable 0).maxFds := by omega
    simp only [FileDescriptorManager.allocate, FileTable.allocate, hnext, if_neg hbelow]
  have hopen : ∃ files, s.take ⟨.stored, .open path .readOnly, true⟩ = { s with
      openFiles := files
      fdManager := (s.fdManager.allocate 0 node.inode 0).2 } := by
    refine ⟨s.openFiles.insert node.inode (s.openedFile node.inode path .readOnly), ?_⟩
    rw [take_eq_handled _ _ rfl, (handled_open rfl).1, handleOpenWithResponse, hnode]
    simp only [hfile, Bool.true_eq_false, if_false, hallocated]
  obtain ⟨files, hopen⟩ := hopen
  generalize s.take ⟨.stored, .open path .readOnly, true⟩ = opened at hopen ⊢
  -- the close finds it there
  have htable : opened.fdManager.processTables.lookup 0 = some { s.fdManager.getTable 0 with
      nextFd := 3 + n + 1
      descriptors := (s.fdManager.getTable 0).descriptors.insert (3 + n) ⟨3 + n, 0, node.inode, 0⟩ } := by
    rw [hopen, hallocated]
    exact HashMap.lookup_insert_eq s.fdManager.processTables 0 0 _
  have hclose : ∃ t, (opened.fdManager.close 0 (3 + n)).2 = opened.fdManager.setTable 0 t ∧
      t.nextFd = 3 + n + 1 ∧ t.maxFds = limit ∧ ∀ fd, t.get fd = none := by
    simp only [FileDescriptorManager.close, htable, FileTable.close, HashMap.lookup_insert_eq, if_true]
    refine ⟨_, rfl, rfl, hmax, ?_⟩
    intro fd
    rw [FileTable.get, HashMap.lookup_erase_eq, HashMap.lookup_insert_eq]
    split
    · rfl
    · exact hclosed fd
  obtain ⟨t, hmanager, htnext, htmax, htclosed⟩ := hclose
  have hresult : (opened.take ⟨.stored, .close (UInt32.ofNat (3 + n)), true⟩).vfs = s.vfs ∧
      (opened.take ⟨.stored, .close (UInt32.ofNat (3 + n)), true⟩).fdManager =
        opened.fdManager.setTable 0 t := by
    have hvfs : opened.vfs = s.vfs := by
      rw [hopen]
    rw [take_eq_handled _ _ rfl, FileService.handled, if_pos rfl, handleFileRequestWithResponse,
      handleCloseWithResponse_service]
    refine ⟨?_, ?_⟩
    · rw [← hvfs]
      exact (syncOnClose_tables opened 0 _).1
    · show ((opened.syncOnClose 0 (UInt32.ofNat (3 + n))).fdManager.close 0 _).2 = _
      rw [(syncOnClose_tables opened 0 _).2, hfd, hmanager]
  constructor
  · rw [hresult.1]
    exact ⟨node, hfound, hfile⟩
  · rw [hresult.2, getTable_setTable, htnext]
    rfl
  · rw [hresult.2, getTable_setTable, htmax]
  · rw [hresult.2, getTable_setTable]
    exact htclosed

/-- After the rounds, as many numbers were handed out, and nothing is open. -/
theorem idle_openAndClose (h : Idle limit path 0 s) (hword : limit ≤ 2 ^ 32) {n : Nat} (hn : 3 + n ≤ limit) :
    Idle limit path n (runTrace fileTransition s (openAndClose path n)).1 := by
  induction n with
  | zero => exact h
  | succ n ih =>
    -- induction on the rounds; the last one is pulled out at the end
    have hbefore := ih (by omega)
    have hsplit : openAndClose path (n + 1) = openAndClose path n ++
        [⟨.stored, .open path .readOnly, true⟩, ⟨.stored, .close (UInt32.ofNat (3 + n)), true⟩] := by
      rw [openAndClose, List.range_succ, List.flatMap_append, List.flatMap_singleton]
      rfl
    rw [hsplit, runTrace_append]
    exact hbefore.round (by omega) hword

theorem Idle.count_eq (h : Idle limit path n s) : (s.fdManager.getTable 0).count = 0 := by
  rw [FileTable.count, List.length_eq_zero_iff, List.eq_nil_iff_forall_not_mem]
  intro fd hfd
  have hsome := AList.lookup_isSome.2 hfd
  have hnone : AList.lookup fd (s.fdManager.getTable 0).descriptors = none := h.closed fd
  rw [hnone] at hsome
  cases hsome

/-- Once as many files have been opened and closed as there are numbers, an open fails with nothing open. -/
theorem Idle.exhausted (h : Idle limit path (limit - 3) s) (hlimit : 3 ≤ limit) :
    Exhausted (s.handled ⟨.stored, .open path .readOnly, true⟩).result := by
  obtain ⟨node, hfound, hfile⟩ := h.file
  apply (exhausted_open_iff ⟨path, .readOnly, node, rfl, hfound, hfile⟩).2
  rw [h.max_eq, h.next_eq]
  omega

/-- The service after its first start, with the limit that it is started with. -/
def freshService : FileService := FileService.boot 4096 256 []

theorem idle_freshService : Idle 256 "/programs/add.asm" 0 freshService := by
  have hfile : (freshService.vfs.lookupPath "/programs/add.asm").toOption.any VFSNode.isFile = true := by
    decide +kernel
  refine ⟨?_, rfl, rfl, fun fd => rfl⟩
  cases hfound : freshService.vfs.lookupPath "/programs/add.asm" with
  | error e =>
    rw [hfound] at hfile
    cases hfile
  | ok node =>
    rw [hfound] at hfile
    exact ⟨node, rfl, hfile⟩

theorem freshService_exhausted_iff :
    freshService.fdManager = FileDescriptorManager.new 256 ∧
    ((∀ t ∈ (runTrace fileTransition freshService (openAndClose "/programs/add.asm" 2)).2,
        ExhaustedOnlyFull t.pre t.act) ↔
      ∀ t ∈ (runTrace fileTransition freshService (openAndClose "/programs/add.asm" 2)).2,
        NumbersKept t.pre t.act) :=
  ⟨rfl, exhausted_only_full_iff rfl (openAndClose "/programs/add.asm" 2)⟩

/-- After 253 rounds, an open of the program fails although nothing is open. -/
theorem rounds_exhaust :
    ¬ExhaustedOnlyFull (runTrace fileTransition freshService (openAndClose "/programs/add.asm" 253)).1
      ⟨.stored, .open "/programs/add.asm" .readOnly, true⟩ := by
  intro honly
  have hidle : Idle 256 "/programs/add.asm" 253
      (runTrace fileTransition freshService (openAndClose "/programs/add.asm" 253)).1 :=
    idle_openAndClose idle_freshService (by decide) (by decide)
  -- no operation changes the limit of the table
  have hlimit := ((bounded_run (s := freshService) (FileDescriptorManager.bounded_new 256)
    (openAndClose "/programs/add.asm" 253)).1.getTable 0).max_eq
  obtain ⟨node, hfound, hfile⟩ := hidle.file
  have hfull := honly ⟨_, _, node, rfl, hfound, hfile⟩ (hidle.exhausted (by decide))
  rw [hidle.count_eq, ← hlimit, hidle.max_eq] at hfull
  cases hfull

end GenshinOs.Files
