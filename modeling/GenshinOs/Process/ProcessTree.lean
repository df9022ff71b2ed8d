import GenshinOs.Lib.Forest
import GenshinOs.Process.Numbers

/-!
# The process tree

The listing of the processes (`handle_list_processes_with_response` and `format_tree` in
`src/services/process/service.rs`) follows the links from parents to children without noting where it has
been. It ends because every child has a larger number than its parent (`Kernel.Descending`): a child is
forked from a process of the table, numbers are never used twice, and no parent is ever changed.

So the table is a forest at any time, where a process whose parent was reaped is a root, and
`process_tree_complete` says that the listing shows every process on one line, below its parent.
-/

set_option autoImplicit false

namespace GenshinOs.Process

open GenshinOs.Lib GenshinOs.Hardware GenshinOs.Memory

namespace Kernel

/-! ## Parents -/

/-- The parent that the table records for a process. -/
def parentOf (k : Kernel) (q : Pid) : Option Pid := (k.processTable.lookup q).bind PCB.parentPid

/-- Every process has a larger number than its parent. -/
def Descending (k : Kernel) : Prop := ∀ q p, k.parentOf q = some p → p < q

/-- A process that gets a parent takes the next number, and the parent is in the table. -/
def Breeds (k k' : Kernel) : Prop :=
  ∀ q p, k'.parentOf q = some p → k.parentOf q = some p ∨ q = k.nextPid ∧ (k.stateOf p).isSome = true

theorem Descending.step {k k' : Kernel} (h : k.Descending) (hnumbered : k.Numbered) (hstep : Breeds k k') :
    k'.Descending := by
  intro q p hp
  rcases hstep q p hp with hold | ⟨rfl, hknown⟩
  · exact h q p hold
  · exact hnumbered p hknown

theorem lookup_adjust_parent (table : HashMap Pid PCB) (pid q : Pid) {f : PCB → PCB}
    (hf : ∀ pcb, (f pcb).parentPid = pcb.parentPid) :
    ((HashMap.adjust table pid f).lookup q).bind PCB.parentPid = (table.lookup q).bind PCB.parentPid := by
  rw [HashMap.lookup_adjust]
  split
  · next hq =>
    rw [hq]
    cases table.lookup pid with
    | none => rfl
    | some pcb => exact hf pcb
  · rfl

namespace Breeds

theorem of_parents {k k' : Kernel} (h : ∀ q, k'.parentOf q = k.parentOf q) : Breeds k k' := by
  intro q p hp
  rw [h] at hp
  exact Or.inl hp

theorem of_table {k k' : Kernel} (h : k'.processTable = k.processTable) : Breeds k k' := by
  apply of_parents
  intro q
  rw [parentOf, parentOf, h]

/-- A control block is written, but not its parent. -/
theorem of_adjusted {k k' : Kernel} {pid : Pid} {f : PCB → PCB}
    (htable : k'.processTable = HashMap.adjust k.processTable pid f)
    (hf : ∀ pcb, (f pcb).parentPid = pcb.parentPid) : Breeds k k' := by
  apply of_parents
  intro q
  rw [parentOf, htable, lookup_adjust_parent k.processTable pid q hf]
  rfl

theorem of_states {k k' : Kernel} {updates : List (Pid × ProcessState)}
    (htable : k'.processTable = writeStates k.processTable updates) : Breeds k k' := by
  apply of_parents
  intro q
  rw [parentOf, parentOf, htable]
  clear htable
  -- by induction on the updates, each of which writes one control block
  generalize k.processTable = table
  induction updates generalizing table with
  | nil => rfl
  | cons update updates ih =>
    rw [writeStates, List.foldl_cons]
    refine (ih _).trans ?_
    apply lookup_adjust_parent
    exact fun _ => rfl

theorem of_removed {k k' : Kernel} {pid : Pid} (htable : k'.processTable = k.processTable.erase pid) :
    Breeds k k' := by
  intro q p hp
  rw [parentOf, htable, HashMap.lookup_erase_eq] at hp
  split at hp
  · cases hp
  · exact Or.inl hp

end Breeds

end Kernel

open Kernel

theorem ForkStep.breeds {k k' : Kernel} {parent : Pid} (h : ForkStep k parent k') : Breeds k k' := by
  cases h with
  | refused => exact Breeds.of_table rfl
  | aborted => exact Breeds.of_table rfl
  | fresh =>
    intro q p hp
    rw [parentOf, forkFresh, insertProcess, HashMap.lookup_insert_eq] at hp
    split at hp
    · cases hp
    · exact Or.inl hp
  | child hknown =>
    intro q p hp
    rw [parentOf, forkChild, linkChild, insertProcess, HashMap.lookup_insert_eq] at hp
    split at hp
    · next hq =>
      have hparent : parent = p := Option.some.inj hp
      exact Or.inr ⟨hq, hparent ▸ hknown⟩
    · exact Or.inl hp

theorem ExecStep.breeds {k k' : Kernel} {pid : Pid} (h : ExecStep k pid k') : Breeds k k' := by
  cases h with
  | failed => exact Breeds.of_table rfl
  | started executable args => exact Breeds.of_adjusted rfl fun _ => rfl

/-- What is no request. -/
theorem TableStep.breeds {k k' : Kernel} {act : Act} (h : TableStep k act k')
    (hact : ∀ req channel, act ≠ .request req channel) : Breeds k k' := by
  cases h with
  | dispatch cpuId scheduled =>
    obtain ⟨updates, scheduler, lastRunning, hframe⟩ := k.dispatch_frame cpuId scheduled
    rw [hframe]
    exact Breeds.of_states rfl
  | zombified cpuId pid =>
    obtain ⟨updates, scheduler, sync, waiting, responses, hframe⟩ := k.zombify_frame pid
    rw [hframe]
    exact Breeds.of_states rfl
  | exit cpuId pid code => exact Breeds.of_adjusted rfl fun _ => rfl
  | forkCall cpuId pid h => exact h.breeds
  | execCall cpuId pid h => exact h.breeds
  | semWaitSlept cpuId pid semId => exact Breeds.of_adjusted rfl fun _ => rfl
  | semSignalWoke cpuId pid semId waiter => exact Breeds.of_adjusted rfl fun _ => rfl
  | lockAcquireSlept cpuId pid lockId => exact Breeds.of_adjusted rfl fun _ => rfl
  | lockReleaseWoke cpuId pid lockId waiter => exact Breeds.of_adjusted rfl fun _ => rfl
  | reaped cpuId pid => exact Breeds.of_removed rfl
  | fork h => exact h.breeds
  | exec h => exact h.breeds
  | request channel h => exact absurd rfl (hact _ channel)
  | waitChild pid childPid channel => exact absurd rfl (hact _ (some channel))
  | _ => exact Breeds.of_table rfl

namespace Kernel

theorem breeds_signal (k : Kernel) (pid : Pid) (signal : SignalType) :
    Breeds k (k.handleSignal pid signal).1 := by
  simp only [handleSignal]
  split
  · exact Breeds.of_table rfl
  · cases signal with
    | terminate => exact Breeds.of_adjusted rfl fun _ => rfl
    | kill => exact Breeds.of_adjusted rfl fun _ => rfl
    | stop => exact Breeds.of_adjusted rfl fun _ => rfl
    | «continue» => exact Breeds.of_adjusted rfl fun _ => rfl
    | _ => exact Breeds.of_adjusted rfl fun _ => rfl

theorem breeds_waitChild (k : Kernel) (pid : Pid) (childPid : Option Pid) :
    Breeds k (k.handleWaitChild pid childPid).1 := by
  simp only [handleWaitChild]
  split
  · split
    · exact Breeds.of_adjusted rfl fun _ => rfl
    · exact Breeds.of_table rfl
  · exact Breeds.of_table rfl
  · exact Breeds.of_adjusted rfl fun _ => rfl

theorem breeds_waitChildWithResponse (k : Kernel) (pid : Pid) (childPid : Option Pid)
    (channel : RequestId) : Breeds k (k.handleWaitChildWithResponse pid childPid channel).1 := by
  simp only [handleWaitChildWithResponse]
  split
  · exact Breeds.of_table rfl
  · split
    · exact Breeds.of_table rfl
    · split
      · exact Breeds.of_table rfl
      · split
        -- a zombie is reaped by the parent
        · exact Breeds.of_removed rfl
        · exact Breeds.of_table rfl

/-- A request writes control blocks, but no parent. -/
theorem breeds_handle (k : Kernel) (req : ProcessRequest) : Breeds k (k.handleProcessRequest req).1 := by
  -- requests write states or other tables, never a parent
  cases req with
  | block pid tid reason => exact Breeds.of_adjusted rfl fun _ => rfl
  | unblock pid tid => exact Breeds.of_adjusted rfl fun _ => rfl
  | sendMessage fromPid toPid msg =>
    apply Breeds.of_table
    simp only [handleProcessRequest, handleSendMessage]
    split
    · rfl
    · split
      · rfl
      · split
        · rfl
        · rfl
  | receiveMessage pid blocking =>
    simp only [handleProcessRequest, handleReceiveMessage]
    split
    · exact Breeds.of_table rfl
    · split
      · exact Breeds.of_adjusted rfl fun _ => rfl
      · exact Breeds.of_table rfl
  | attachSharedMemory pid shmid =>
    apply Breeds.of_table
    simp only [handleProcessRequest, handleAttachSharedMemory]
    split
    · rfl
    · rfl
  | detachSharedMemory pid shmid =>
    apply Breeds.of_table
    simp only [handleProcessRequest, handleDetachSharedMemory]
    split
    · rfl
    · rfl
  | waitSemaphore pid semid =>
    simp only [handleProcessRequest, handleWaitSemaphore]
    split
    · exact Breeds.of_table rfl
    · exact Breeds.of_adjusted rfl fun _ => rfl
    · exact Breeds.of_table rfl
  | acquireLock pid lockId =>
    simp only [handleProcessRequest, handleAcquireLock]
    split
    · exact Breeds.of_adjusted rfl fun _ => rfl
    · exact Breeds.of_table rfl
  | waitChild pid childPid => exact breeds_waitChild k pid childPid
  | signal pid signal => exact breeds_signal k pid signal
  | _ => exact Breeds.of_table rfl

end Kernel

theorem Performed.breeds {w : World} {s s' : Machine} {act : Act} (h : Performed w s act s') :
    Breeds s.toKernel s'.toKernel := by
  by_cases hrequest : ∃ req channel, act = .request req channel
  · obtain ⟨req, channel, rfl⟩ := hrequest
    cases h
    have hplain := breeds_handle s.toKernel req
    simp only [Machine.handleSimpleRequest]
    split
    · exact breeds_waitChildWithResponse _ _ _ _
    · exact Breeds.of_table rfl
    · exact Breeds.of_table rfl
    · exact Breeds.of_table rfl
    · exact Breeds.of_table rfl
    · exact hplain
  · push Not at hrequest
    exact h.step_of.table.breeds hrequest

/-- In every reachable state every process has a larger number than its parent. -/
theorem Machine.Reached.descending {memory : MemoryService} {s : Machine} (h : s.Reached memory) :
    s.toKernel.Descending := by
  obtain ⟨w, events, hs⟩ := h
  have htraced := run_traced w memory events
  have hboot : (Machine.boot w memory).toKernel.Numbered ∧ (Machine.boot w memory).toKernel.Descending := by
    refine ⟨Machine.numbered_boot w memory, ?_⟩
    have hnew : Kernel.new.Numbered ∧ Kernel.new.Descending := by
      constructor
      · intro q hq
        cases hq
      · intro q p hp
        cases hp
    exact hnew.2.step hnew.1 (boot_tables w memory).breeds
  -- numbers and links together, transition by transition
  have hinv := htraced.chain.invariant (I := fun s => s.toKernel.Numbered ∧ s.toKernel.Descending) hboot
    fun t ht hpre =>
      have hperformed := htraced.performed t ht
      ⟨hpre.1.step hperformed.step_of.table.enrols, hpre.2.step hpre.1 hperformed.breeds⟩
  rcases hs with rfl | ⟨t, ht, rfl⟩
  · exact hinv.1.2
  · exact (hinv.2 t ht).1.2

/-! ## The listing, line by line -/

/-- A line of the listing, with the process that it shows and the text before its connector. -/
structure TreeLine where
  pid : Pid
  indent : String
  text : String

/-- The line of a process. -/
def treeLine (pid : Pid) (pcb : PCB) (indent : String) (isLast : Bool) : TreeLine :=
  ⟨pid, indent, indent ++ (if isLast then "└── " else "├── ") ++ "PID " ++ toString pid ++ " [" ++
    pcb.state.debug ++ "] " ++ pcb.name ++ "\n"⟩

/-- The lines of a process and its descendants; none when they reach beyond the depth. -/
def treeLines (procs : List (Pid × PCB)) : Nat → Pid → String → Bool → Option (List TreeLine)
  | 0, _, _, _ => none
  | depth + 1, pid, indent, isLast =>
    match procs.find? (·.1 == pid) with
    | none => some []
    | some p =>
      let children := (procs.filter fun q => q.2.parentPid == some pid).map Prod.fst
      let childIndent := indent ++ (if isLast then "    " else "│   ")
      (children.zipIdx.mapM fun child =>
        treeLines procs depth child.1 childIndent (child.2 + 1 == children.length)).map fun below =>
          treeLine pid p.2 indent isLast :: below.flatten

/-- The lines of all roots. -/
def forestLines (procs : List (Pid × PCB)) (depth : Nat) : Option (List TreeLine) :=
  let roots := procs.filter fun p => (p.2.parentPid.all fun pp => !(procs.any (·.1 == pp)))
  (roots.mapM fun p => treeLines procs depth p.1 "" true).map List.flatten

theorem join_foldl {α : Type} (g : α → String) (l : List α) (line : String) :
    l.foldl (fun text a => text ++ g a) line = line ++ String.join (l.map g) := by
  induction l generalizing line with
  | nil => simp
  | cons a l ih => rw [List.foldl_cons, ih, List.map_cons, String.join_cons, String.append_assoc]

/-- Texts of blocks that were found one by one. -/
theorem join_mapM {α : Type} {f : α → Option (List TreeLine)} {g : α → String} {l : List α}
    {blocks : List (List TreeLine)} (h : l.mapM f = some blocks)
    (hg : ∀ a ∈ l, ∀ lines, f a = some lines → g a = String.join (lines.map TreeLine.text)) :
    String.join (l.map g) = String.join (blocks.flatten.map TreeLine.text) := by
  induction l generalizing blocks with
  | nil =>
    cases h
    rfl
  | cons a l ih =>
    rw [List.mapM_cons] at h
    obtain ⟨lines, hlines, h⟩ := Option.bind_eq_some_iff.1 h
    obtain ⟨rest, hrest, h⟩ := Option.bind_eq_some_iff.1 h
    cases h
    have htail := ih hrest fun b hb => hg b (List.mem_cons_of_mem a hb)
    rw [List.map_cons, String.join_cons, hg a List.mem_cons_self lines hlines, htail, List.flatten_cons,
      List.map_append, String.join_append]

/-- A larger depth changes nothing where one was enough. -/
theorem treeLines_mono (procs : List (Pid × PCB)) (depth : Nat) {pid : Pid} {indent : String}
    {isLast : Bool} {lines : List TreeLine} (h : treeLines procs depth pid indent isLast = some lines) :
    treeLines procs (depth + 1) pid indent isLast = some lines := by
  induction depth generalizing pid indent isLast lines with
  | zero => cases h
  | succ depth ih =>
    rw [treeLines] at h ⊢
    cases hfound : procs.find? (·.1 == pid) with
    | none =>
      rw [hfound] at h
      exact h
    | some p =>
      simp only [hfound] at h ⊢
      obtain ⟨blocks, hblocks, hlines⟩ := Option.map_eq_some_iff.1 h
      rw [mapM_mono (fun child _ lines hchild => ih hchild) hblocks]
      exact congrArg some hlines

theorem forestLines_mono (procs : List (Pid × PCB)) {depth depth' : Nat} (hle : depth ≤ depth')
    {lines : List TreeLine} (h : forestLines procs depth = some lines) :
    forestLines procs depth' = some lines := by
  induction hle with
  | refl => exact h
  | @step depth' _ ih =>
    obtain ⟨blocks, hblocks, hlines⟩ := Option.map_eq_some_iff.1 ih
    rw [forestLines, mapM_mono (fun p _ lines hroot => treeLines_mono procs depth' hroot) hblocks]
    exact congrArg some hlines

/-- Where the depth is enough, the text of the listing is that of its lines. -/
theorem formatTree_eq (procs : List (Pid × PCB)) (depth : Nat) {pid : Pid} {indent : String} {isLast : Bool}
    {lines : List TreeLine} (h : treeLines procs depth pid indent isLast = some lines) :
    Machine.formatTree procs depth pid indent isLast = String.join (lines.map TreeLine.text) := by
  induction depth generalizing pid indent isLast lines with
  | zero => cases h
  | succ depth ih =>
    simp only [treeLines] at h
    simp only [Machine.formatTree]
    cases hfound : procs.find? (·.1 == pid) with
    | none =>
      simp only [hfound] at h
      cases h
      rfl
    | some p =>
      simp only [hfound] at h
      obtain ⟨blocks, hblocks, hlines⟩ := Option.map_eq_some_iff.1 h
      have hbelow := join_mapM hblocks fun child _ lines hchild => ih hchild
      show List.foldl _ _ _ = _
      rw [join_foldl, hbelow, ← hlines, List.map_cons, String.join_cons]
      rfl

/-! ## The table as a forest -/

/-- The list shows the table, each process once. -/
structure Kernel.ListedAs (k : Kernel) (procs : List (Pid × PCB)) : Prop where
  mem_iff : ∀ q pcb, (q, pcb) ∈ procs ↔ k.processTable.lookup q = some pcb
  nodup : (procs.map Prod.fst).Nodup

/-- The processes with the links to their parents. -/
def Kernel.forest (k : Kernel) (h : k.Descending) {procs : List (Pid × PCB)} (hlisted : k.ListedAs procs) :
    Forest Pid where
  nodes := procs.map Prod.fst
  parent := k.parentOf
  rank := id
  nodup := hlisted.nodup
  rank_lt p c hp := h c p hp

namespace Kernel.ListedAs

variable {k : Kernel} {procs : List (Pid × PCB)} (hlisted : k.ListedAs procs)

include hlisted

theorem parentOf_eq {q : Pid} {pcb : PCB} (h : (q, pcb) ∈ procs) : k.parentOf q = pcb.parentPid := by
  rw [parentOf, (hlisted.mem_iff q pcb).1 h]
  rfl

theorem find_eq {q : Pid} {pcb : PCB} (h : (q, pcb) ∈ procs) :
    procs.find? (·.1 == q) = some (q, pcb) := by
  cases hfound : procs.find? (·.1 == q) with
  | none =>
    have hne := List.find?_eq_none.1 hfound (q, pcb) h
    exact absurd (beq_self_eq_true q) hne
  | some p =>
    -- what is found has the same number, and so it is the same entry
    have hnumber : p.1 = q := by simpa using List.find?_some hfound
    have hentry := (hlisted.mem_iff p.1 p.2).1 (List.mem_of_find?_eq_some hfound)
    rw [hnumber, (hlisted.mem_iff q pcb).1 h] at hentry
    rw [← hnumber, Option.some.inj hentry]

theorem children_eq (h : k.Descending) (pid : Pid) :
    (procs.filter fun q => q.2.parentPid == some pid).map Prod.fst = (k.forest h hlisted).children pid := by
  rw [Forest.children]
  show _ = (procs.map Prod.fst).filter fun b => decide (k.parentOf b = some pid)
  rw [List.filter_map]
  congr 1
  apply List.filter_congr
  intro q hq
  rw [Function.comp_apply, hlisted.parentOf_eq hq]
  cases q.2.parentPid with
  | none => rfl
  | some p =>
    rw [Bool.eq_iff_iff]
    simp

theorem roots_eq (h : k.Descending) :
    (procs.filter fun p => (p.2.parentPid.all fun pp => !(procs.any (·.1 == pp)))).map Prod.fst =
      (k.forest h hlisted).roots := by
  rw [Forest.roots]
  show _ = (procs.map Prod.fst).filter fun b => (k.parentOf b).all fun p => decide (p ∉ procs.map Prod.fst)
  rw [List.filter_map]
  congr 1
  apply List.filter_congr
  intro q hq
  rw [Function.comp_apply, hlisted.parentOf_eq hq]
  cases q.2.parentPid with
  | none => rfl
  | some p =>
    rw [Option.all_some, Option.all_some, Bool.eq_iff_iff]
    simp only [Bool.not_eq_true', List.any_eq_false, beq_iff_eq, decide_eq_true_eq, List.mem_map]
    constructor
    · rintro hnone ⟨entry, hentry, hp⟩
      exact hnone entry hentry hp
    · intro hnone entry hentry hp
      exact hnone ⟨entry, hentry, hp⟩

/-- The recursion over the lines is the traversal of the forest. -/
theorem treeLines_pids (h : k.Descending) (depth : Nat) {pid : Pid} (hpid : pid ∈ procs.map Prod.fst)
    (indent : String) (isLast : Bool) :
    (treeLines procs depth pid indent isLast).map (List.map TreeLine.pid) =
      descend (k.forest h hlisted).children depth pid := by
  induction depth generalizing pid indent isLast with
  | zero => rfl
  | succ depth ih =>
    obtain ⟨⟨q, pcb⟩, hmem, rfl⟩ := List.mem_map.1 hpid
    simp only [treeLines, hlisted.find_eq hmem, descend, hlisted.children_eq h q]
    -- child by child the lines are those of the traversal
    have hbelow : ∀ children : List (Pid × Nat), (∀ child ∈ children, child.1 ∈ procs.map Prod.fst) →
        ∀ n, ((children.mapM fun child => treeLines procs depth child.1
          (indent ++ if isLast = true then "    " else "│   ") (child.2 + 1 == n)).map
            (List.map (List.map TreeLine.pid))) =
          (children.map Prod.fst).mapM (descend (k.forest h hlisted).children depth) := by
      intro children hchildren n
      apply mapM_corresponds
      intro child hchild
      exact ih (hchildren child hchild) _ _
    have hzip := hbelow ((k.forest h hlisted).children q).zipIdx (fun child hchild => by
      have hin : child.1 ∈ (k.forest h hlisted).children q := by
        rw [← List.zipIdx_map_fst 0 ((k.forest h hlisted).children q)]
        exact List.mem_map_of_mem hchild
      exact ((Forest.mem_children _).1 hin).1) ((k.forest h hlisted).children q).length
    rw [List.zipIdx_map_fst] at hzip
    rw [← hzip, Option.map_map, Option.map_map]
    congr 1
    funext blocks
    show _ = q :: (blocks.map (List.map TreeLine.pid)).flatten
    rw [← List.map_flatten]
    rfl

/-- Every line is that of a process, and it is the first one or stands four columns behind the line of the
parent. -/
theorem treeLines_placed (depth : Nat) {pid : Pid} {indent : String} {isLast : Bool}
    {lines : List TreeLine} (h : treeLines procs depth pid indent isLast = some lines) :
    ∀ line ∈ lines, ∃ pcb last, (line.pid, pcb) ∈ procs ∧ line = treeLine line.pid pcb line.indent last ∧
      ((line.pid = pid ∧ line.indent = indent) ∨ ∃ above ∈ lines, pcb.parentPid = some above.pid ∧
        (line.indent = above.indent ++ "    " ∨ line.indent = above.indent ++ "│   ")) := by
  induction depth generalizing pid indent isLast lines with
  | zero => cases h
  | succ depth ih =>
    simp only [treeLines] at h
    cases hfound : procs.find? (·.1 == pid) with
    | none =>
      simp only [hfound] at h
      cases h
      exact fun line hline => absurd hline List.not_mem_nil
    | some p =>
      simp only [hfound] at h
      obtain ⟨blocks, hblocks, rfl⟩ := Option.map_eq_some_iff.1 h
      have hnumber : p.1 = pid := by simpa using List.find?_some hfound
      have hentry : (pid, p.2) ∈ procs := by
        rw [← hnumber]
        exact List.mem_of_find?_eq_some hfound
      intro line hline
      rcases List.mem_cons.1 hline with rfl | hline
      · exact ⟨p.2, isLast, hentry, rfl, Or.inl ⟨rfl, rfl⟩⟩
      · -- a line from the block of a child
        obtain ⟨block, hblock, hin⟩ := List.mem_flatten.1 hline
        obtain ⟨child, hchild, hlines⟩ := mem_of_mapM hblocks hblock
        obtain ⟨pcb, last, hpcb, htext, hplace⟩ := ih hlines line hin
        refine ⟨pcb, last, hpcb, htext, Or.inr ?_⟩
        rcases hplace with ⟨hpid, hindent⟩ | ⟨above, habove, hparent, hindent⟩
        · -- the child itself, below the first line
          obtain ⟨q, hq, hqpid⟩ := List.mem_map.1 (List.fst_mem_of_mem_zipIdx hchild)
          obtain ⟨hqmem, hqparent⟩ := List.mem_filter.1 hq
          have hsame : q.2 = pcb := by
            have hlookup := (hlisted.mem_iff q.1 q.2).1 hqmem
            rw [hqpid, ← hpid, (hlisted.mem_iff line.pid pcb).1 hpcb] at hlookup
            exact (Option.some.inj hlookup).symm
          refine ⟨treeLine pid p.2 indent isLast, List.mem_cons_self, ?_, ?_⟩
          · rw [← hsame]
            exact beq_iff_eq.1 hqparent
          · rw [hindent]
            cases isLast with
            | true => exact Or.inl rfl
            | false => exact Or.inr rfl
        · exact ⟨above, List.mem_cons_of_mem _ (List.mem_flatten.2 ⟨block, hblock, habove⟩), hparent, hindent⟩

/-- The lines of the forest are those of its traversal. -/
theorem forestLines_pids (h : k.Descending) (depth : Nat) :
    (forestLines procs depth).map (List.map TreeLine.pid) = (k.forest h hlisted).traverse depth := by
  rw [forestLines, Forest.traverse, ← hlisted.roots_eq h, Option.map_map]
  -- root by root
  have hroots := @mapM_corresponds _ _ _ _ (fun p => treeLines procs depth p.1 "" true)
    (descend (k.forest h hlisted).children depth) Prod.fst (List.map TreeLine.pid)
    (procs.filter fun p => (p.2.parentPid.all fun pp => !(procs.any (·.1 == pp))))
    fun p hp => hlisted.treeLines_pids h depth (List.mem_map_of_mem (List.mem_filter.1 hp).1) "" true
  rw [← hroots, Option.map_map]
  congr 1
  funext blocks
  exact List.map_flatten

end Kernel.ListedAs

/-! ## What is shown -/

/-- The process has no parent in the table. -/
def Kernel.IsRoot (k : Kernel) (pcb : PCB) : Prop := ∀ p, pcb.parentPid = some p → k.stateOf p = none

/-- Every line of the forest is that of a process, at the left for a root and four columns behind the line of
the parent otherwise. -/
theorem Kernel.ListedAs.forestLines_placed {k : Kernel} {procs : List (Pid × PCB)}
    (hlisted : k.ListedAs procs) {depth : Nat} {lines : List TreeLine}
    (h : forestLines procs depth = some lines) :
    ∀ line ∈ lines, ∃ pcb last, (line.pid, pcb) ∈ procs ∧ line = treeLine line.pid pcb line.indent last ∧
      (k.IsRoot pcb ∧ line.indent = "" ∨ ∃ above ∈ lines, pcb.parentPid = some above.pid ∧
        (line.indent = above.indent ++ "    " ∨ line.indent = above.indent ++ "│   ")) := by
  obtain ⟨blocks, hblocks, rfl⟩ := Option.map_eq_some_iff.1 h
  intro line hline
  obtain ⟨block, hblock, hin⟩ := List.mem_flatten.1 hline
  obtain ⟨root, hroot, hlines⟩ := mem_of_mapM hblocks hblock
  obtain ⟨pcb, last, hpcb, htext, hplace⟩ := hlisted.treeLines_placed depth hlines line hin
  refine ⟨pcb, last, hpcb, htext, ?_⟩
  rcases hplace with ⟨hpid, hindent⟩ | ⟨above, habove, hparent, hindent⟩
  · left
    refine ⟨?_, hindent⟩
    obtain ⟨hmem, hnone⟩ := List.mem_filter.1 hroot
    have hsame : root.2 = pcb := by
      have hlookup := (hlisted.mem_iff root.1 root.2).1 hmem
      rw [← hpid, (hlisted.mem_iff line.pid pcb).1 hpcb] at hlookup
      exact (Option.some.inj hlookup).symm
    intro p hp
    rw [hsame, hp, Option.all_some, Bool.not_eq_true', List.any_eq_false] at hnone
    -- an entry of the table for the parent would be in the list
    rw [stateOf, Option.map_eq_none_iff]
    by_contra hknown
    obtain ⟨parent, hlookup⟩ := Option.ne_none_iff_exists'.1 hknown
    exact hnone (p, parent) ((hlisted.mem_iff p parent).2 hlookup) (beq_self_eq_true p)
  · right
    exact ⟨above, List.mem_flatten.2 ⟨block, hblock, habove⟩, hparent, hindent⟩

theorem Machine.listedAs_sorted (w : World) (s : Machine) : s.toKernel.ListedAs (s.sortedProcesses w) := by
  have hperm : (s.sortedProcesses w).Perm (HashMap.iter (w.order s.clock) s.processTable) :=
    List.mergeSort_perm _ _
  constructor
  · intro q pcb
    rw [hperm.mem_iff]
    exact HashMap.mem_iter _ _ q pcb
  · rw [(hperm.map Prod.fst).nodup_iff]
    exact HashMap.nodup_iter_keys _ _

/-- Without lines nothing is shown, and with lines there is a text. -/
theorem join_eq_empty_iff {procs : List (Pid × PCB)} {lines : List TreeLine}
    (h : ∀ line ∈ lines, ∃ pcb last, (line.pid, pcb) ∈ procs ∧ line = treeLine line.pid pcb line.indent last) :
    (String.join (lines.map TreeLine.text)).isEmpty = true ↔ lines = [] := by
  cases lines with
  | nil => exact iff_of_true rfl rfl
  | cons line lines =>
    refine iff_of_false ?_ (List.cons_ne_nil line lines)
    obtain ⟨pcb, last, -, hline⟩ := h line List.mem_cons_self
    rw [List.map_cons, String.join_cons, hline]
    intro hempty
    have hnil := congrArg String.toList (String.isEmpty_iff.1 hempty)
    simp [treeLine] at hnil

/-- The listing of the processes is made of the given lines. -/
structure Machine.TreeShown (w : World) (s : Machine) (lines : List TreeLine) : Prop where
  answered : ∀ id, (s.handleSimpleRequest w .listProcesses (some id)).2 =
    some (.ok (.string (s.processTree w)))
  ends : ∀ depth, s.processTable.keys.length ≤ depth →
    forestLines (s.sortedProcesses w) depth = some lines
  text : s.processTree w = if lines = [] then "(empty)" else String.join (lines.map TreeLine.text)
  complete : (lines.map TreeLine.pid).Perm s.processTable.keys
  placed : ∀ line ∈ lines, ∃ pcb last, s.processTable.lookup line.pid = some pcb ∧
    line = treeLine line.pid pcb line.indent last ∧
      (s.toKernel.IsRoot pcb ∧ line.indent = "" ∨
        ∃ above ∈ lines, pcb.parentPid = some above.pid ∧
          [above.pid, line.pid].Sublist (lines.map TreeLine.pid) ∧
          (line.indent = above.indent ++ "    " ∨ line.indent = above.indent ++ "│   "))

/-- In every reachable state the listing ends, within a depth of the number of processes. It has one line for
every process of the table. A process without a parent in the table is shown as a root, and any other one
below the line of its parent, four columns to the right. -/
theorem process_tree_complete (w : World) {memory : MemoryService} {s : Machine} (h : s.Reached memory) :
    ∃ lines, s.TreeShown w lines := by
  have hlisted := s.listedAs_sorted w
  have hdesc := h.descending
  have hkeys : ((s.sortedProcesses w).map Prod.fst).Perm s.processTable.keys :=
    ((List.mergeSort_perm _ _).map Prod.fst).trans (HashMap.iter_keys_perm _ _)
  -- the traversal of the forest, within the depth that the listing is given
  have hnumber : (s.sortedProcesses w).length = s.processTable.keys.length := by
    rw [← hkeys.length_eq, List.length_map]
  have hdepth : (s.toKernel.forest hdesc hlisted).nodes.length ≤ (s.sortedProcesses w).length :=
    Nat.le_of_eq (List.length_map Prod.fst)
  obtain ⟨nodes, hnodes, hperm, hbelow⟩ := Forest.traverse_complete hdepth
  have hpids := hlisted.forestLines_pids hdesc (s.sortedProcesses w).length
  rw [hnodes] at hpids
  obtain ⟨lines, hlines, hpid⟩ := Option.map_eq_some_iff.1 hpids
  have hplaced := hlisted.forestLines_placed hlines
  have hshown : ∀ line ∈ lines, ∃ pcb last, (line.pid, pcb) ∈ s.sortedProcesses w ∧
      line = treeLine line.pid pcb line.indent last := by
    intro line hline
    obtain ⟨pcb, last, hpcb, htext, -⟩ := hplaced line hline
    exact ⟨pcb, last, hpcb, htext⟩
  refine ⟨lines, fun _ => rfl, ?_, ?_, ?_, ?_⟩
  · intro depth hdepth
    exact forestLines_mono _ (by omega) hlines
  · -- the text is that of the lines
    obtain ⟨blocks, hblocks, hflat⟩ := Option.map_eq_some_iff.1 hlines
    have htext := join_mapM hblocks fun p _ lines hroot => formatTree_eq _ _ hroot
    rw [hflat] at htext
    simp only [Machine.processTree]
    rw [htext]
    by_cases hempty : lines = []
    · rw [if_pos hempty, hempty]
      rfl
    · rw [if_neg hempty, if_neg]
      exact fun hjoin => hempty ((join_eq_empty_iff hshown).1 hjoin)
  · rw [hpid]
    exact hperm.trans hkeys
  · intro line hline
    obtain ⟨pcb, last, hpcb, htext, hplace⟩ := hplaced line hline
    refine ⟨pcb, last, (hlisted.mem_iff line.pid pcb).1 hpcb, htext, ?_⟩
    rcases hplace with hroot | ⟨above, habove, hparent, hindent⟩
    · exact Or.inl hroot
    · -- both lines are shown, and the parent is visited first
      have hchild : line.pid ∈ (s.sortedProcesses w).map Prod.fst := List.mem_map_of_mem hpcb
      have habovepid : above.pid ∈ (s.sortedProcesses w).map Prod.fst := by
        apply hperm.mem_iff.1
        rw [← hpid]
        exact List.mem_map_of_mem habove
      have horder := hbelow line.pid above.pid hchild ((hlisted.parentOf_eq hpcb).trans hparent) habovepid
      rw [← hpid] at horder
      exact Or.inr ⟨above, habove, hparent, horder, hindent⟩

/-- Process 1 forks process 2, which forks process 3 and is killed; the next tick reaps it. -/
def orphanEvents : List Event :=
  [.envelope (.process (.forkProcess 1)) false, .envelope (.process (.forkProcess 2)) false,
    .envelope (.process (.signal 2 .kill)) false, .timer]

/-- Process 3 is left without its parent. -/
theorem orphan_shown :
    (Machine.run (World.calm []) (bootMemory 8192 fun _ => 0) orphanEvents).1.processTable.keys = [3, 1] ∧
      ∃ lines, (Machine.run (World.calm []) (bootMemory 8192 fun _ => 0) orphanEvents).1.TreeShown
        (World.calm []) lines := by
  refine ⟨by decide +kernel, ?_⟩
  exact process_tree_complete (World.calm []) ⟨World.calm [], orphanEvents, Or.inl rfl⟩

end GenshinOs.Process
