import GenshinOs.Process.Endings

/-!
# Halted processes

A CPU that has executed the halt instruction has its halted flag set, but so has the CPU of a process
that sleeps, and the timer clears the flag of every process it finds ready or running. Whether a
halted process runs again therefore depends on the state that others write into the table.

A process is dormant when its CPU is halted and its state is one that no program can change: it is
gone, over, or blocked on something other than a semaphore or a mutex. A dormant process stays so
until it is unblocked, continued or given a program (`Performed.dormant`). A process that halts while
its state says running becomes dormant with the clean-up after its slice.
-/

set_option autoImplicit false

namespace GenshinOs.Process

open GenshinOs.Lib GenshinOs.Hardware GenshinOs.Memory

/-! ## States -/

/-- States that neither the timer nor a system call of another process changes into an active one. -/
def Resting : Option ProcessState → Bool
  | none => true
  | some (.terminated _) => true
  | some (.zombie _) => true
  | some (.blocked (.waitingForLock _)) => false
  | some (.blocked _) => true
  | _ => false

/-- The acts that write an active state for a process, or are its own. -/
def Act.stirs : Act → Pid → Bool
  | .syscall _ pid _, q => decide (pid = q)
  | .exec pid _ _, q => decide (pid = q)
  | .request (.unblock pid _) _, q => decide (pid = q)
  | .request (.signal pid .continue) _, q => decide (pid = q)
  | _, _ => false

/-- An active state does not rest, -/
theorem not_resting_of_active {st : ProcessState} (h : st.isActive = true) :
    Resting (some st) = false := by
  cases st with
  | creating => rfl
  | ready => rfl
  | running => rfl
  | _ => cases h

/-- and one that rests is not active. -/
theorem inactive_of_resting {st : ProcessState} (h : Resting (some st) = true) :
    st.isActive = false := by
  rw [← Bool.not_eq_true]
  intro hactive
  rw [not_resting_of_active hactive] at h
  cases h

/-- Another process gets a state, or this one gets a resting one. -/
theorem resting_written {k : Kernel} {pid q : Pid} {st : ProcessState} {o : Option ProcessState}
    (h : o = if q = pid then (k.stateOf pid).map fun _ => st else k.stateOf q)
    (hwritten : pid ≠ q ∨ Resting (some st) = true) (hrest : Resting (k.stateOf q) = true) :
    Resting o = true := by
  rw [h]
  split
  · next heq =>
    cases k.stateOf pid with
    | none => rfl
    | some a => exact hwritten.resolve_left fun hne => hne heq.symm
  · exact hrest

/-- A state that rests is not shuffled. -/
theorem resting_shuffled {k k' : Kernel} (h : k.Shuffled k') {q : Pid}
    (hrest : Resting (k.stateOf q) = true) : Resting (k'.stateOf q) = true := by
  rcases h q with heq | ⟨a, b, ha, -, hact, -⟩
  · rw [heq]
    exact hrest
  · rw [ha, not_resting_of_active hact] at hrest
    cases hrest

/-- A fork leaves the processes that there are at rest, -/
theorem ForkStep.resting {k k' : Kernel} {parent q : Pid} (h : ForkStep k parent k')
    (hq : q < k.nextPid) (hrest : Resting (k.stateOf q) = true) : Resting (k'.stateOf q) = true := by
  cases h with
  | refused => exact hrest
  | aborted => exact hrest
  | fresh =>
    rw [Kernel.forkFresh_stateOf, if_neg (Nat.ne_of_lt hq)]
    exact hrest
  | child =>
    rw [Kernel.forkChild_stateOf, if_neg (Nat.ne_of_lt hq)]
    exact hrest

/-- an exec those of others, -/
theorem ExecStep.resting {k k' : Kernel} {pid q : Pid} (h : ExecStep k pid k') (hne : pid ≠ q)
    (hrest : Resting (k.stateOf q) = true) : Resting (k'.stateOf q) = true := by
  cases h with
  | failed => exact hrest
  | started executable args =>
    exact resting_written (k.exec_stateOf pid q executable args) (Or.inl hne) hrest

/-- and a request those that it does not stir. -/
theorem RequestEffect.resting {k k' : Kernel} {req : ProcessRequest} (h : RequestEffect k req k')
    {channel : Option RequestId} {q : Pid} (hact : (Act.request req channel).stirs q = false)
    (hrest : Resting (k.stateOf q) = true) : Resting (k'.stateOf q) = true := by
  -- a state is written by a block or an end, which rests, or by a wake-up of another process
  cases h with
  | inert hreq h => rwa [h.stateOf]
  | schedule => exact hrest
  | block pid tid reason =>
    exact resting_written (k.handleBlock_stateOf pid q tid reason) (Or.inr rfl) hrest
  | unblock pid tid =>
    have hne : pid ≠ q := of_decide_eq_false hact
    exact resting_written (k.handleUnblock_stateOf pid q tid) (Or.inl hne) hrest
  | contextSwitch => exact hrest
  | received pid blocking h => rwa [h.stateOf]
  | receiveBlocked pid => exact resting_written (k.handleBlock_stateOf pid q 1 _) (Or.inr rfl) hrest
  | createSemaphore => exact hrest
  | waitBlocked pid =>
    exact resting_written (k := k) (Kernel.handleBlock_stateOf _ pid q 1 _) (Or.inr rfl) hrest
  | waitPassed => exact hrest
  | signalSemaphore => exact hrest
  | createLock => exact hrest
  | acquireBlocked pid =>
    exact resting_written (k := k) (Kernel.handleBlock_stateOf _ pid q 1 _) (Or.inr rfl) hrest
  | acquirePassed => exact hrest
  | releaseLock => exact hrest
  | waitRefused => exact hrest
  | waitChild pid childPid reason =>
    exact resting_written (k.handleBlock_stateOf pid q 1 reason) (Or.inr rfl) hrest
  | kill pid => exact resting_written (k := k) (Kernel.setState_stateOf _ pid q _) (Or.inr rfl) hrest
  | stop pid => exact resting_written (k.setState_stateOf pid q _) (Or.inr rfl) hrest
  | continued pid =>
    have hne : pid ≠ q := of_decide_eq_false hact
    exact resting_written (k.setState_stateOf pid q _) (Or.inl hne) hrest
  | signalQueued pid signal h => rwa [h.stateOf]

/-- A resting state stays one, unless the act stirs the process. -/
theorem TableStep.resting {k k' : Kernel} {act : Act} (h : TableStep k act k') {q : Pid}
    (hq : q < k.nextPid) (hact : act.stirs q = false) (hrest : Resting (k.stateOf q) = true) :
    Resting (k'.stateOf q) = true := by
  -- who sleeps on a semaphore or a mutex does not rest
  have hwaiter : ∀ {waiter : Pid} {lockAddr : Nat},
      k.stateOf waiter = some (.blocked (.waitingForLock lockAddr)) → waiter ≠ q := by
    rintro waiter lockAddr hsleeps rfl
    rw [hsleeps] at hrest
    cases hrest
  cases h with
  | idle => exact hrest
  | dispatch cpuId scheduled => exact resting_shuffled (k.shuffled_dispatch cpuId scheduled) hrest
  | initExit => exact hrest
  | exit cpuId pid code => exact resting_written (k.exit_stateOf pid q _) (Or.inr rfl) hrest
  | forkCall cpuId pid h => exact h.resting hq hrest
  | execCall cpuId pid h => exact h.resting (of_decide_eq_false hact) hrest
  | semCreate => exact hrest
  | semWaitPassed => exact hrest
  | semWaitSlept cpuId pid =>
    have hne : pid ≠ q := of_decide_eq_false hact
    exact resting_written (k := k) (Kernel.sleepOn_stateOf _ pid q _) (Or.inl hne) hrest
  | semSignalWoke cpuId pid semId waiter h =>
    exact resting_written (k.wake_stateOf waiter q) (Or.inl (hwaiter h)) hrest
  | semSignalCounted => exact hrest
  | lockCreate => exact hrest
  | lockAcquirePassed => exact hrest
  | lockAcquireSlept cpuId pid =>
    have hne : pid ≠ q := of_decide_eq_false hact
    exact resting_written (k := k) (Kernel.sleepOn_stateOf _ pid q _) (Or.inl hne) hrest
  | lockReleaseWoke cpuId pid lockId waiter h =>
    exact resting_written (k.wake_stateOf waiter q) (Or.inl (hwaiter h)) hrest
  | lockReleaseNone => exact hrest
  | settled => exact hrest
  | zombified cpuId pid =>
    rw [Kernel.zombify_stateOf]
    split
    · rfl
    · exact hrest
  | reapedNone => exact hrest
  | reaped cpuId pid =>
    rw [Kernel.removeProcess_stateOf]
    split
    · rfl
    · exact hrest
  | fork h => exact h.resting hq hrest
  | exec h => exact h.resting (of_decide_eq_false hact) hrest
  | sharedSemaphores => exact hrest
  | request channel h => exact h.resting hact hrest
  | waitChild pid childPid channel =>
    simp only [Kernel.handleWaitChildWithResponse]
    split
    · exact hrest
    split
    · exact hrest
    split
    · exact hrest
    split
    · rw [Kernel.respond_stateOf, Kernel.removeProcess_stateOf]
      split
      · rfl
      · exact hrest
    · exact hrest
  | responded => exact hrest
  | silent => exact hrest

/-! ## Halted flags -/

namespace Machine

/-- Only the halt flags of the CPUs matter, -/
theorem isHalted_of_flags {s s' : Machine} {q : Pid}
    (h : (s'.cpus.get q).map VirtualCPU.halted = (s.cpus.get q).map VirtualCPU.halted) :
    s'.isHalted q = s.isHalted q := by
  simp only [isHalted]
  cases hs : s.cpus.get q with
  | none =>
    rw [hs] at h
    rw [Option.map_eq_none_iff.1 h]
  | some cpu =>
    rw [hs] at h
    obtain ⟨cpu', hcpu', heq⟩ := Option.map_eq_some_iff.1 h
    rw [hcpu']
    exact heq

/-- and so the same CPU has halted or not. -/
theorem isHalted_of_get {s s' : Machine} {q : Pid} (h : s'.cpus.get q = s.cpus.get q) :
    s'.isHalted q = s.isHalted q :=
  isHalted_of_flags (congrArg (Option.map VirtualCPU.halted) h)

/-- The CPU of another process is changed. -/
theorem isHalted_of_update {s s' : Machine} {pid q : Pid} {f : VirtualCPU → VirtualCPU}
    (h : s'.cpus = s.cpus.update pid f) (hf : ∀ cpu, (f cpu).currentPid = cpu.currentPid)
    (hne : pid ≠ q) : s'.isHalted q = s.isHalted q := by
  apply isHalted_of_get
  rw [h, CpuTable.get_update _ _ _ hf, if_neg (Ne.symm hne)]

/-- A change of one CPU does not halt another. -/
theorem isHalted_updateCpu (s : Machine) {pid q : Pid} {f : VirtualCPU → VirtualCPU}
    (hf : ∀ cpu, (f cpu).currentPid = cpu.currentPid) (hne : pid ≠ q) :
    (s.updateCpu pid f).isHalted q = s.isHalted q :=
  isHalted_of_update rfl hf hne

/-- Taking note of a system call does not touch the halted flag. -/
theorem isHalted_noted (s : Machine) (pid q : Pid) :
    (s.updateCpu pid fun cpu => { cpu with syscallPending := false }).isHalted q = s.isHalted q := by
  apply isHalted_of_flags
  have hharmless := harmless_updateCpu s pid (f := fun cpu => { cpu with syscallPending := false })
    (fun _ => rfl) fun _ => rfl
  exact hharmless.halted q

/-- The CPU of a child belongs to the child. -/
theorem childCpu_currentPid (parentCpu : Option VirtualCPU) (child : Pid) :
    (childCpu parentCpu child).currentPid = child := by
  cases parentCpu with
  | none => rfl
  | some cpu => rfl

/-- A fork halts none of the CPUs that there are, -/
theorem isHalted_forked {s s' : Machine} {parent q : Pid} {r : Except ServiceError Pid}
    (h : Forked s parent (r, s')) (hq : q < s.nextPid) : s'.isHalted q = s.isHalted q := by
  apply isHalted_of_get
  cases h with
  | fresh _ _ hcpus =>
    have hother : q ≠ (VirtualCPU.new s.nextPid).currentPid := Nat.ne_of_lt hq
    rw [hcpus, CpuTable.get_insert, if_neg hother]
  | orphan _ hcpus => rw [hcpus]
  | aborted _ hcpus => rw [hcpus]
  | child _ _ hcpus =>
    rw [hcpus, CpuTable.get_insert, childCpu_currentPid, if_neg (Nat.ne_of_lt hq)]

/-- and an exec none of others. -/
theorem isHalted_execed {s s' : Machine} {pid q : Pid} {executable : String} {args : List String}
    {r : Except ServiceError Unit} (h : Execed s pid executable args (r, s')) (hne : pid ≠ q) :
    s'.isHalted q = s.isHalted q := by
  cases h with
  | failed _ hcpus => exact isHalted_of_get (by rw [hcpus])
  | started _ _ hcpus => exact isHalted_of_update hcpus (fun _ => rfl) hne

/-- A request of the tables leaves the CPUs, -/
theorem handleSimpleRequest_cpus (w : World) (s : Machine) (req : ProcessRequest)
    (channel : Option RequestId) : (s.handleSimpleRequest w req channel).1.cpus = s.cpus := by
  simp only [handleSimpleRequest]
  split <;> rfl

/-- and so does an answer. -/
theorem finish_cpus (s : Machine) (channel : Option RequestId) (answer : Option Answer) :
    (s.finish channel answer).cpus = s.cpus := by
  simp only [finish]
  split <;> rfl

/-- The process does not run again by itself: its CPU is halted and its state rests. -/
structure Dormant (s : Machine) (q : Pid) : Prop where
  halted : s.isHalted q = true
  resting : Resting (s.stateOf q) = true

end Machine

open Machine

/-- A system call of another process leaves a process halted whose state rests. -/
theorem SystemCall.Effect.isHalted {s s' : Machine} {pid q : Pid} {call : SystemCall}
    (h : call.Effect s pid s') (hne : pid ≠ q) (hq : q < s.nextPid)
    (hrest : Resting (s.stateOf q) = true) : s'.isHalted q = s.isHalted q := by
  cases h with
  | quiet _ h => exact isHalted_of_flags (h.halted q)
  | initExit => rfl
  | exit _ _ hcpus => exact isHalted_of_update hcpus (fun _ => rfl) hne
  | fork h h' => exact (isHalted_of_flags (h'.halted q)).trans (isHalted_forked h hq)
  | exec h => exact isHalted_execed h hne
  | semCreate _ hhalted => exact isHalted_of_flags (hhalted q)
  | semWait _ hcpus =>
    split at hcpus
    · exact isHalted_of_update hcpus (fun _ => rfl) hne
    · exact isHalted_of_get (by rw [hcpus])
  | semSignal _ _ hcpus => exact isHalted_of_get (by rw [hcpus])
  | lockCreate _ hhalted => exact isHalted_of_flags (hhalted q)
  | lockAcquire _ hcpus =>
    split at hcpus
    · exact isHalted_of_update hcpus (fun _ => rfl) hne
    · exact isHalted_of_get (by rw [hcpus])
  | lockRelease ord _ hcpus =>
    split at hcpus
    · next waiter hwaiter =>
      -- the woken process slept, so it is another one
      refine isHalted_of_update hcpus (fun _ => rfl) ?_
      rintro rfl
      simp only [Kernel.lockRelease] at hwaiter
      split at hwaiter
      · next hfound =>
        cases hwaiter
        rw [Kernel.findWaiter_some hfound] at hrest
        cases hrest
      · cases hwaiter
    · exact isHalted_of_get (by rw [hcpus])

/-- Only an active process is started again. -/
theorem Machine.dispatch_isHalted {s : Machine} {cpuId : Fin 2} {scheduledThisTick : List Pid} {q : Pid}
    (hinactive : ∀ st, (s.toKernel.dispatch cpuId scheduledThisTick).2.stateOf q = some st →
      st.isActive = false) :
    (s.dispatch cpuId scheduledThisTick).2.isHalted q = s.isHalted q := by
  simp only [Machine.dispatch]
  split
  · next pid _ _ =>
    split
    · next hactive =>
      refine isHalted_updateCpu _ (fun _ => rfl) ?_
      rintro rfl
      rcases hactive with hready | hrunning
      · cases hinactive _ hready
      · cases hinactive _ hrunning
    · rfl
  · rfl

/-- The end of a slice wakes no process that rests. -/
theorem Machine.settle_isHalted {s : Machine} {pid q : Pid} (hrest : Resting (s.stateOf q) = true) :
    (s.settle pid).isHalted q = s.isHalted q := by
  simp only [settle]
  split
  · split
    · next hready =>
      refine isHalted_updateCpu s (fun _ => rfl) ?_
      rintro rfl
      rw [hready] at hrest
      cases hrest
    · rfl
  · rfl

/-- Reaping takes CPUs away. -/
theorem Machine.reap_get (w : World) (s : Machine) (q : Pid) :
    (s.reap w).cpus.get q = s.cpus.get q ∨ (s.reap w).cpus.get q = none := by
  simp only [reap]
  split
  · next pid _ =>
    simp only [reapProcess]
    split
    · exact Or.inl rfl
    · have herase : (s.cpus.erase pid).get q = s.cpus.get q ∨ (s.cpus.erase pid).get q = none := by
        rw [CpuTable.get_erase]
        split
        · exact Or.inr rfl
        · exact Or.inl rfl
      exact herase
  · exact Or.inl rfl

/-- A CPU that is taken away counts as halted. -/
theorem Machine.reap_isHalted {w : World} {s : Machine} {q : Pid} (h : s.isHalted q = true) :
    (s.reap w).isHalted q = true := by
  rcases s.reap_get w q with hsame | hnone
  · rw [isHalted_of_get hsame]
    exact h
  · rw [isHalted, hnone]

/-- A halted process that rests stays halted, unless the act stirs it. -/
theorem Performed.isHalted {w : World} {s s' : Machine} {act : Act} (h : Performed w s act s')
    {q : Pid} (hq : q < s.nextPid) (hact : act.stirs q = false) (hdormant : s.Dormant q) :
    s'.isHalted q = true := by
  have hhalted := hdormant.halted
  have hrest := hdormant.resting
  cases h with
  | dispatch cpuId scheduled =>
    have hafter := (TableStep.dispatch (k := s.toKernel) cpuId scheduled).resting hq hact hrest
    rw [Machine.dispatch_isHalted fun st hst => inactive_of_resting (hst ▸ hafter)]
    exact hhalted
  | @step cpuId pid cpu hget hrun =>
    -- only a CPU that is not halted is stepped
    have hne : q ≠ pid := by
      rintro rfl
      rw [Machine.isHalted, hget] at hhalted
      exact Bool.false_ne_true (hrun.symm.trans hhalted)
    have hother : (s.stepCpu w pid cpu).2.cpus.get q = s.cpus.get q := by
      cases stepCpu_step w cpuId hget hrun with
      | step _ _ _ hcpus => exact hcpus q hne
    rw [isHalted_of_get hother]
    exact hhalted
  | @syscall _ cpuId pid call hcall =>
    have hne : pid ≠ q := of_decide_eq_false hact
    rw [(handleFileSyscall_effect hcall).isHalted hne hq hrest]
    exact (isHalted_noted s pid q).trans hhalted
  | @panic cpuId pid call hcall =>
    have hne : pid ≠ q := of_decide_eq_false hact
    have hhalt := isHalted_updateCpu
      (s.updateCpu pid fun cpu => { cpu with syscallPending := false }) (f := VirtualCPU.halt)
      (fun _ => rfl) hne
    exact (hhalt.trans (isHalted_noted s pid q)).trans hhalted
  | @pageFault cpuId pid cpu hget hpending =>
    cases pageFault_step w s cpuId pid cpu.pc with
    | pageFault _ _ hharmless =>
      rw [isHalted_of_flags (hharmless.halted q)]
      exact hhalted
  | settle cpuId pid => rw [Machine.settle_isHalted hrest]; exact hhalted
  | reap cpuId => exact Machine.reap_isHalted hhalted
  | fork parent => exact (isHalted_forked (forkImpl_forked w s parent) hq).trans hhalted
  | exec pid executable args =>
    exact (isHalted_execed (execImpl_execed w s pid executable args)
      (of_decide_eq_false hact)).trans hhalted
  | sharedSemaphores =>
    rw [isHalted_of_get (congrFun (congrArg CpuTable.get (quiet_requestMemory w _ _).cpus) q)]
    exact hhalted
  | request req channel =>
    rw [isHalted_of_get (congrFun (congrArg CpuTable.get (handleSimpleRequest_cpus w s req channel)) q)]
    exact hhalted
  | respond channel answer =>
    rw [isHalted_of_get (congrFun (congrArg CpuTable.get (finish_cpus s channel answer)) q)]
    exact hhalted
  | mapShared frame pids =>
    have hquiet : Quiet s (Machine.mapShared w frame pids s) :=
      Quiet.foldl (fun s _ => quiet_requestMemory w s _) _ _
    rw [isHalted_of_get (congrFun (congrArg CpuTable.get hquiet.cpus) q)]
    exact hhalted
  | faultMessage addr accessType => exact hhalted
  | takeRequestId => exact hhalted

/-- A dormant process stays dormant, unless the act stirs it. -/
theorem Performed.dormant {w : World} {s s' : Machine} {act : Act} (h : Performed w s act s')
    {q : Pid} (hq : q < s.nextPid) (hact : act.stirs q = false) (hdormant : s.Dormant q) :
    s'.Dormant q :=
  ⟨h.isHalted hq hact hdormant, h.step_of.table.resting hq hact hdormant.resting⟩

/-! ## Pending system calls -/

namespace CpuTable

/-- Every CPU belongs to a number that was handed out, and no system call is pending, except possibly
on the CPU of the given process. -/
def Fits (c : CpuTable) (n : Pid) (caller : Option Pid) : Prop :=
  ∀ q cpu, c.get q = some cpu → q < n ∧ (cpu.syscallPending = true → caller = some q)

namespace Fits

variable {c : CpuTable} {n : Pid} {caller : Option Pid}

/-- More numbers are handed out. -/
theorem mono {n' : Pid} (h : c.Fits n caller) (hn : n ≤ n') : c.Fits n' caller :=
  fun q cpu hget => ⟨Nat.lt_of_lt_of_le (h q cpu hget).1 hn, (h q cpu hget).2⟩

/-- A CPU is changed, without a new system call, -/
theorem update (h : c.Fits n caller) (pid : Pid) {f : VirtualCPU → VirtualCPU}
    (howner : ∀ cpu, (f cpu).currentPid = cpu.currentPid)
    (hpending : ∀ cpu, (f cpu).syscallPending = true → cpu.syscallPending = true) :
    (c.update pid f).Fits n caller := by
  intro q cpu hget
  rw [get_update _ _ _ howner] at hget
  split at hget
  · next heq =>
    obtain ⟨old, hold, rfl⟩ := Option.map_eq_some_iff.1 hget
    rw [heq]
    exact ⟨(h pid old hold).1, fun hset => (h pid old hold).2 (hpending old hset)⟩
  · exact h q cpu hget

/-- or put in its place. -/
theorem insert (h : c.Fits n caller) {cpu : VirtualCPU} (hn : cpu.currentPid < n)
    (hpending : cpu.syscallPending = true → caller = some cpu.currentPid) :
    (c.insert cpu).Fits n caller := by
  intro q cpu' hget
  rw [get_insert] at hget
  split at hget
  · next heq =>
    cases hget
    rw [heq]
    exact ⟨hn, hpending⟩
  · exact h q cpu' hget

/-- The call of a process is taken note of. -/
theorem noted {pid : Pid} (h : c.Fits n (some pid)) :
    (c.update pid fun cpu => { cpu with syscallPending := false }).Fits n none := by
  intro q cpu hget
  rw [get_update _ _ _ (by intro cpu; rfl)] at hget
  split at hget
  · next heq =>
    obtain ⟨old, hold, rfl⟩ := Option.map_eq_some_iff.1 hget
    rw [heq]
    exact ⟨(h pid old hold).1, fun hset => by cases hset⟩
  · next hne =>
    obtain ⟨hlt, hset⟩ := h q cpu hget
    refine ⟨hlt, fun hpending => ?_⟩
    exact absurd (Option.some.inj (hset hpending)).symm hne

end Fits

end CpuTable

/-- The CPU of a child fits, -/
theorem Machine.Forked.fits {s s' : Machine} {parent : Pid} {r : Except ServiceError Pid}
    {caller : Option Pid} (h : Forked s parent (r, s')) (hfits : s.cpus.Fits s.nextPid caller) :
    s'.cpus.Fits s'.nextPid caller := by
  have hgrown := hfits.mono (Nat.le_succ s.nextPid)
  cases h with
  | fresh _ hk hcpus =>
    rw [hcpus, hk]
    exact hgrown.insert (Nat.lt_succ_self _) fun hset => by cases hset
  | orphan hk hcpus => rw [hcpus, hk]; exact hfits
  | aborted hk hcpus => rw [hcpus, hk]; exact hgrown
  | child _ hk hcpus =>
    rw [hcpus, hk]
    apply hgrown.insert
    · rw [childCpu_currentPid]
      exact Nat.lt_succ_self _
    · intro hset
      cases hparent : s.cpus.get parent with
      | none => rw [hparent] at hset; cases hset
      | some cpu => rw [hparent] at hset; cases hset

/-- that of a new program, -/
theorem Machine.Execed.fits {s s' : Machine} {pid : Pid} {executable : String} {args : List String}
    {r : Except ServiceError Unit} {caller : Option Pid} (h : Execed s pid executable args (r, s'))
    (hfits : s.cpus.Fits s.nextPid caller) : s'.cpus.Fits s'.nextPid caller := by
  cases h with
  | failed hk hcpus => rw [hcpus, hk]; exact hfits
  | started _ hk hcpus =>
    rw [hcpus, hk]
    exact hfits.update pid (fun _ => rfl) fun _ hset => hset

/-- and one with another value in a register. -/
theorem Machine.setRegister_fits {s : Machine} {caller : Option Pid} {n : Pid}
    (hfits : s.cpus.Fits n caller) (pid : Pid) (reg : Register) (value : UInt64) :
    (s.setRegister pid reg value).cpus.Fits n caller :=
  hfits.update pid (fun _ => rfl) fun _ hset => hset

/-- A system call that returns leaves no other one pending. -/
theorem Machine.handleFileSyscall_fits {w : World} {s s' : Machine} {pid : Pid} {call : SystemCall}
    {caller : Option Pid} (h : s.handleFileSyscall w pid call = some s')
    (hfits : s.cpus.Fits s.nextPid caller) : s'.cpus.Fits s'.nextPid caller := by
  have hhalt := hfits.update pid (f := VirtualCPU.halt) (fun _ => rfl) fun _ hset => hset
  have hslept : ∀ call : Bool × Kernel, (s.sleepIf pid call).cpus.Fits s.nextPid caller := by
    intro call
    rw [sleepIf_cpus]
    split
    · exact hhalt
    · exact hfits
  have hnext := (handleFileSyscall_effect h).table 0
  cases call with
  | exit code =>
    cases handleFileSyscall_effect h with
    | quiet hcall => cases hcall
    | initExit => exact hfits
    | exit _ hk hcpus => rw [hcpus, hk]; exact hhalt
  | fork =>
    cases h
    have hforked := forkImpl_forked w s pid
    simp only [syscallFork]
    split
    · next heq =>
      rw [heq] at hforked
      exact setRegister_fits (hforked.fits hfits) pid .r0 _
    · next heq =>
      rw [heq] at hforked
      exact setRegister_fits (hforked.fits hfits) pid .r0 _
  | exec =>
    cases h
    exact (execImpl_execed w s pid _ []).fits hfits
  | semCreate =>
    cases h
    exact setRegister_fits (s := s.onKernel _) hfits pid .r1 _
  | semWait semId =>
    cases h
    exact (hslept _).mono hnext.enrols.nextPid_le
  | semSignal semId =>
    cases h
    exact hfits.mono hnext.enrols.nextPid_le
  | lockCreate =>
    cases h
    exact setRegister_fits (s := s.onKernel _) hfits pid .r1 _
  | lockAcquire lockId =>
    cases h
    exact (hslept _).mono hnext.enrols.nextPid_le
  | lockRelease lockId =>
    refine CpuTable.Fits.mono (n := s.nextPid) ?_ hnext.enrols.nextPid_le
    -- a waiter that is woken has its flag cleared, nobody else's CPU changes
    cases handleFileSyscall_effect h with
    | quiet hcall => cases hcall
    | lockRelease _ _ hcpus =>
      rw [hcpus]
      split
      · exact hfits.update _ (fun _ => rfl) fun _ hset => hset
      · exact hfits
  | _ =>
    obtain ⟨hk, hcpus⟩ := handleFileSyscall_quiet rfl h
    rw [hk]
    rcases hcpus with hcpus | ⟨reg, value, hcpus⟩
    · rw [hcpus]
      exact hfits
    · rw [hcpus]
      exact setRegister_fits hfits pid reg value

/-- The CPUs fit after a dispatch, -/
theorem Machine.dispatch_fits {s : Machine} {n : Pid} {caller : Option Pid}
    (hfits : s.cpus.Fits n caller) (cpuId : Fin 2) (scheduledThisTick : List Pid) :
    (s.dispatch cpuId scheduledThisTick).2.cpus.Fits n caller := by
  simp only [Machine.dispatch]
  split
  · split
    · exact hfits.update _ (fun _ => rfl) fun _ hset => hset
    · exact hfits
  · exact hfits

/-- at the end of a slice, -/
theorem Machine.settle_fits {s : Machine} {n : Pid} {caller : Option Pid}
    (hfits : s.cpus.Fits n caller) (pid : Pid) : (s.settle pid).cpus.Fits n caller := by
  simp only [settle]
  split
  · split
    · exact hfits.update _ (fun _ => rfl) fun _ hset => hset
    · exact hfits
  · exact hfits

/-- and when processes are reaped. -/
theorem Machine.reap_fits {w : World} {s : Machine} {n : Pid} {caller : Option Pid}
    (hfits : s.cpus.Fits n caller) : (s.reap w).cpus.Fits n caller := by
  intro q cpu hget
  rcases s.reap_get w q with hsame | hnone
  · exact hfits q cpu (hsame.symm.trans hget)
  · rw [hnone] at hget
    cases hget

/-- What the service does between the slices leaves no system call pending. -/
theorem Performed.fits {w : World} {s s' : Machine} {act : Act} (h : Performed w s act s')
    (hact : act.isService = true) {caller : Option Pid} (hfits : s.cpus.Fits s.nextPid caller) :
    s'.cpus.Fits s'.nextPid caller := by
  have hnext := h.step_of.table.enrols.nextPid_le
  have hsame : s'.cpus = s.cpus → s'.cpus.Fits s'.nextPid caller := by
    intro hcpus
    rw [hcpus]
    exact hfits.mono hnext
  cases h with
  | fork parent => exact (forkImpl_forked w s parent).fits hfits
  | exec pid executable args => exact (execImpl_execed w s pid executable args).fits hfits
  | sharedSemaphores => exact hsame (quiet_requestMemory w _ _).cpus
  | request req channel => exact hsame (handleSimpleRequest_cpus w s req channel)
  | respond channel answer => exact hsame (finish_cpus s channel answer)
  | mapShared frame pids =>
    have hquiet : Quiet s (Machine.mapShared w frame pids s) :=
      Quiet.foldl (fun s _ => quiet_requestMemory w s _) _ _
    exact hsame hquiet.cpus
  | faultMessage => exact hsame rfl
  | takeRequestId => exact hsame rfl
  | _ => cases hact

/-! ## Slices -/

namespace Machine

/-- The next instruction of the process is a halt. -/
def atHalt (w : World) (s : Machine) (pid : Pid) : Bool :=
  match s.cpus.get pid with
  | some cpu => cpu.atHalt (s.background w).mmu
  | none => false

/-- A halt instruction leaves the CPU halted, everything else of the process as it was. -/
theorem stepCpu_atHalt {w : World} {s : Machine} {pid : Pid} {cpu : VirtualCPU}
    (hget : s.cpus.get pid = some cpu) (hrun : cpu.halted = false) (h : s.atHalt w pid = true) :
    (s.stepCpu w pid cpu).1 = true ∧ (s.stepCpu w pid cpu).2.isHalted pid = true ∧
      ∃ cpu', (s.stepCpu w pid cpu).2.cpus.get pid = some cpu' ∧
        cpu'.syscallPending = cpu.syscallPending := by
  rw [atHalt, hget] at h
  obtain ⟨hresult, hhalted, hpending⟩ := VirtualCPU.step_atHalt hrun h
  have howner : (cpu.step (s.background w).mmu).cpu.currentPid = pid :=
    (VirtualCPU.step_contained cpu _).pid_eq.trans (s.cpus.owned pid cpu hget)
  have hstored : (s.stepCpu w pid cpu).2.cpus.get pid = some (cpu.step (s.background w).mmu).cpu := by
    simp only [stepCpu, hresult]
    show (s.cpus.insert _).get pid = _
    rw [CpuTable.get_insert, howner, if_pos rfl]
  refine ⟨?_, ?_, _, hstored, hpending⟩
  · simp only [stepCpu, hresult]
  · rw [isHalted, hstored]
    exact hhalted

/-- A step asks for at most one system call, its own; none if it ends in an error. -/
theorem stepCpu_fits {w : World} {s : Machine} {pid n : Pid} {cpu : VirtualCPU}
    (hget : s.cpus.get pid = some cpu) (hfits : s.cpus.Fits n none) :
    (s.stepCpu w pid cpu).2.cpus.Fits n (some pid) ∧
      ((s.stepCpu w pid cpu).1 = false → (s.stepCpu w pid cpu).2.cpus.Fits n none) := by
  have howner : (cpu.step (s.background w).mmu).cpu.currentPid = pid :=
    (VirtualCPU.step_contained cpu _).pid_eq.trans (s.cpus.owned pid cpu hget)
  obtain ⟨hlt, hidle⟩ := hfits pid cpu hget
  have hweak : s.cpus.Fits n (some pid) := by
    intro q cpu' hget'
    refine ⟨(hfits q cpu' hget').1, fun hset => ?_⟩
    cases (hfits q cpu' hget').2 hset
  have hcaller : (s.cpus.insert (cpu.step (s.background w).mmu).cpu).Fits n (some pid) :=
    hweak.insert (howner ▸ hlt) fun _ => congrArg some howner.symm
  have herror : ∀ {e}, (cpu.step (s.background w).mmu).result = .error e →
      (s.cpus.insert (cpu.step (s.background w).mmu).cpu).Fits n none := by
    intro e hresult
    refine hfits.insert (howner ▸ hlt) fun hset => ?_
    rw [VirtualCPU.step_error_pending hresult] at hset
    cases hidle hset
  simp only [stepCpu]
  split
  · exact ⟨hcaller, fun hstop => by cases hstop⟩
  · next hresult => exact ⟨hcaller, fun _ => herror hresult⟩
  · next hresult =>
    split
    · exact ⟨hcaller, fun _ => herror hresult⟩
    · exact ⟨hcaller.update pid (fun _ => rfl) fun _ hset => hset,
        fun _ => (herror hresult).update pid (fun _ => rfl) fun _ hset => hset⟩

/-- Without a pending system call nothing happens. -/
theorem runSyscall_idle (w : World) (cpuId : Fin 2) {pid n : Pid} {s : Machine}
    (hfits : s.cpus.Fits n none) : runSyscall w cpuId pid s = (s, []) := by
  simp only [runSyscall]
  split
  · rfl
  · next cpu hget =>
    rw [if_pos]
    rw [← Bool.not_eq_true]
    intro hset
    cases (hfits pid cpu hget).2 hset

/-- A CPU that has halted executes nothing. -/
theorem execute_halted (w : World) (cpuId : Fin 2) {pid : Pid} (n : Nat) {s : Machine}
    (h : s.isHalted pid = true) : execute w cpuId pid n s = (s, []) := by
  cases n with
  | zero => rfl
  | succ n =>
    simp only [execute]
    split
    · rfl
    · next cpu hget =>
      rw [isHalted, hget] at h
      rw [if_pos h]

/-- The system call of a process, if one is pending. -/
theorem runSyscall_cases (w : World) (cpuId : Fin 2) {pid : Pid} {s : Machine}
    (hfits : s.cpus.Fits s.nextPid (some pid)) :
    (runSyscall w cpuId pid s = (s, []) ∧ s.cpus.Fits s.nextPid none) ∨
      ∃ call s', runSyscall w cpuId pid s = (s', [⟨s, .syscall cpuId pid call, s'⟩]) ∧
        Performed w s (.syscall cpuId pid call) s' ∧ s'.cpus.Fits s'.nextPid none := by
  have hnoted : (s.updateCpu pid fun cpu => { cpu with syscallPending := false }).cpus.Fits
      (s.updateCpu pid fun cpu => { cpu with syscallPending := false }).nextPid none := hfits.noted
  have hnone : (∀ cpu, s.cpus.get pid = some cpu → cpu.syscallPending = false) →
      s.cpus.Fits s.nextPid none := by
    intro hidle q cpu hget
    refine ⟨(hfits q cpu hget).1, fun hset => ?_⟩
    cases (hfits q cpu hget).2 hset
    rw [hidle cpu hget] at hset
    cases hset
  simp only [runSyscall]
  split
  · next hget => exact Or.inl ⟨rfl, hnone fun cpu hcpu => by rw [hget] at hcpu; cases hcpu⟩
  next cpu hget =>
  split
  · next hidle =>
    refine Or.inl ⟨rfl, hnone fun cpu' hcpu' => ?_⟩
    rw [hget] at hcpu'
    cases hcpu'
    exact hidle
  · split
    · next s' hcall => exact Or.inr ⟨_, s', rfl, .syscall cpuId hcall, handleFileSyscall_fits hcall hnoted⟩
    · next hpanic =>
      exact Or.inr ⟨_, _, rfl, .panic cpuId hpanic,
        hnoted.update pid (fun _ => rfl) fun _ hset => hset⟩

/-- A fault is passed on, or there is none. -/
theorem forwardFault_cases (w : World) (cpuId : Fin 2) (pid : Pid) {s : Machine}
    (hfits : s.cpus.Fits s.nextPid none) :
    forwardFault w cpuId pid s = (s, []) ∨
      ∃ s', forwardFault w cpuId pid s = (s', [⟨s, .pageFault cpuId pid, s'⟩]) ∧
        Performed w s (.pageFault cpuId pid) s' ∧ s'.cpus.Fits s'.nextPid none := by
  simp only [forwardFault]
  split
  · exact Or.inl rfl
  next cpu hget =>
  split
  · exact Or.inl rfl
  · next hpending =>
    refine Or.inr ⟨_, rfl, .pageFault cpuId hget (by simpa using hpending), ?_⟩
    have hquiet := quiet_requestMemory w
      (s.updateCpu pid fun cpu => { cpu with pagefaultPending := false })
      (.pageFaultHandler pid cpu.pc .read)
    rw [hquiet.cpus, hquiet.toKernel]
    exact hfits.update pid (fun _ => rfl) fun _ hset => hset

/-- The CPUs fit afterwards, -/
theorem forwardFault_fits (w : World) (cpuId : Fin 2) (pid : Pid) {s : Machine}
    (hfits : s.cpus.Fits s.nextPid none) :
    (forwardFault w cpuId pid s).1.cpus.Fits (forwardFault w cpuId pid s).1.nextPid none := by
  rcases forwardFault_cases w cpuId pid hfits with hnone | ⟨s', hfault, -, hfits'⟩
  · rw [hnone]
    exact hfits
  · rw [hfault]
    exact hfits'

/-- and the same ones have halted. -/
theorem forwardFault_isHalted (w : World) (cpuId : Fin 2) (pid q : Pid) (s : Machine) :
    (forwardFault w cpuId pid s).1.isHalted q = s.isHalted q := by
  simp only [forwardFault]
  split
  · rfl
  next cpu _ =>
  split
  · rfl
  · cases pageFault_step w s cpuId pid cpu.pc with
    | pageFault _ _ hharmless => exact isHalted_of_flags (hharmless.halted q)

end Machine

/-! ## Processes that have halted -/

/-- The processes that have executed a halt instruction and have not been given a program since. -/
def recordHalts (w : World) (halted : Finset Pid) (t : Tr) : Finset Pid :=
  match t.act with
  | .step _ pid => if t.pre.atHalt w pid then insert pid halted else halted
  | .syscall _ pid .exec => halted.erase pid
  | .exec pid _ _ => halted.erase pid
  | _ => halted

/-- A process halts while its state is running or rests, and no process that has halted and is still in
the table is unblocked or continued. Process 1 is free to do what it likes. -/
def HaltsOrderly (w : World) (halted : Finset Pid) (t : Tr) : Prop :=
  match t.act with
  | .step _ pid =>
    pid ≠ 1 → t.pre.atHalt w pid = true →
      t.pre.stateOf pid = some .running ∨ Resting (t.pre.stateOf pid) = true
  | .request (.unblock pid _) _ => pid ≠ 1 → pid ∈ halted → t.pre.stateOf pid = none
  | .request (.signal pid .continue) _ => pid ≠ 1 → pid ∈ halted → t.pre.stateOf pid = none
  | _ => True

instance (w : World) (halted : Finset Pid) (t : Tr) : Decidable (HaltsOrderly w halted t) := by
  induction t using Transition.casesOn with
  | mk pre act post =>
    induction act using Act.casesOn with
    | syscall cpuId pid call => dsimp only [HaltsOrderly]; infer_instance
    | request req channel =>
      induction req using ProcessRequest.casesOn with
      | signal pid signal =>
        induction signal using SignalType.casesOn <;> dsimp only [HaltsOrderly] <;> infer_instance
      | _ => dsimp only [HaltsOrderly]; infer_instance
    | _ => dsimp only [HaltsOrderly]; infer_instance

/-- A transition executes an instruction of a process other than 1 only if the process has not
halted. -/
def NotHalted (halted : Finset Pid) (t : Tr) : Prop :=
  match t.act with
  | .step _ pid => pid = 1 ∨ pid ∉ halted
  | _ => True

instance (halted : Finset Pid) (t : Tr) : Decidable (NotHalted halted t) := by
  induction t using Transition.casesOn with
  | mk pre act post =>
    induction act using Act.casesOn <;> dsimp only [NotHalted] <;> infer_instance

/-- Every process that has halted is dormant. -/
def Sleepers (halted : Finset Pid) (s : Machine) : Prop :=
  ∀ p ∈ halted, p ≠ 1 → p < s.nextPid ∧ s.Dormant p

/-- The same within the slice of a process, which may have halted just now: then its state says
running, and the clean-up is still to come. -/
def SleepersBut (pid : Pid) (halted : Finset Pid) (s : Machine) : Prop :=
  ∀ p ∈ halted, p ≠ 1 →
    p < s.nextPid ∧ s.isHalted p = true ∧ (Resting (s.stateOf p) = true ∨
      p = pid ∧ s.stateOf p = some .running ∧ (s.cpus.get p).any VirtualCPU.halted = true)

namespace Sleepers

variable {w : World} {halted halted' : Finset Pid} {s s' : Machine} {act : Act}

/-- What sleeps at all sleeps in the slice of a process. -/
theorem but (h : Sleepers halted s) (pid : Pid) : SleepersBut pid halted s :=
  fun p hp hne => ⟨(h p hp hne).1, (h p hp hne).2.halted, Or.inl (h p hp hne).2.resting⟩

/-- An operation that stirs none of them. -/
theorem performed (h : Sleepers halted s) (hperformed : Performed w s act s')
    (hkept : ∀ p ∈ halted', p ≠ 1 → p ∈ halted ∧ act.stirs p = false) : Sleepers halted' s' := by
  intro p hp hne
  obtain ⟨hold, hact⟩ := hkept p hp hne
  obtain ⟨hlt, hdormant⟩ := h p hold hne
  exact ⟨Nat.lt_of_lt_of_le hlt hperformed.step_of.table.enrols.nextPid_le,
    hperformed.dormant hlt hact hdormant⟩

/-- A process with a running CPU is not among them. -/
theorem not_mem (h : Sleepers halted s) {pid : Pid} (hrun : s.isHalted pid = false) :
    pid = 1 ∨ pid ∉ halted := by
  by_contra hnot
  push Not at hnot
  rw [(h pid hnot.2 hnot.1).2.halted] at hrun
  cases hrun

end Sleepers

namespace SleepersBut

/-- The page fault of a process touches neither the states nor the halted flags. -/
theorem pageFault {w : World} {pid : Pid} {halted : Finset Pid} {s s' : Machine} {cpuId : Fin 2}
    (h : SleepersBut pid halted s) (hperformed : Performed w s (.pageFault cpuId pid) s') :
    SleepersBut pid halted s' := by
  intro p hp hne
  obtain ⟨hlt, hhalted, hstate⟩ := h p hp hne
  cases hperformed.step_of with
  | pageFault _ _ hharmless =>
    have hany : (s'.cpus.get p).any VirtualCPU.halted = (s.cpus.get p).any VirtualCPU.halted := by
      have hflags := congrArg (Option.any id) (hharmless.halted p)
      rwa [Option.any_map, Option.any_map] at hflags
    rw [hharmless.toKernel, isHalted_of_flags (hharmless.halted p), hany]
    exact ⟨hlt, hhalted, hstate⟩

/-- The clean-up after the slice makes a zombie of the process that has halted. -/
theorem settle {pid : Pid} {halted : Finset Pid} {s : Machine} (h : SleepersBut pid halted s) :
    Sleepers halted (s.settle pid) := by
  intro p hp hne
  obtain ⟨hlt, hhalted, hstate⟩ := h p hp hne
  have hnext := (s.settle_table 0 pid).enrols.nextPid_le
  refine ⟨Nat.lt_of_lt_of_le hlt hnext, ?_⟩
  rcases hstate with hrest | ⟨rfl, hrunning, hany⟩
  · refine ⟨?_, (s.settle_table 0 pid).resting hlt rfl hrest⟩
    rw [Machine.settle_isHalted hrest]
    exact hhalted
  · have hfinished : s.Finished p := by
      refine ⟨hne, ?_, hany, ?_⟩
      · rw [hrunning]
        rfl
      · rw [hrunning]
        exact fun heq => by cases heq
    have hzombie : (s.settle p).stateOf p = some (.zombie 0) := by
      rw [settle_finished hfinished, Kernel.zombify_stateOf, hrunning, if_pos ⟨rfl, rfl⟩]
    refine ⟨?_, by rw [hzombie]; rfl⟩
    -- the clean-up leaves the CPU alone
    have hcpus : (s.settle p).cpus = s.cpus := by
      obtain ⟨hpid, hblocked, hhalt, hready⟩ := hfinished
      simp only [Machine.settle]
      rw [if_pos ⟨hpid, hblocked, hhalt⟩, if_neg hready]
      rfl
    exact (isHalted_of_get (congrFun (congrArg CpuTable.get hcpus) p)).trans hhalted

end SleepersBut

/-! ## Turns -/

section turns

variable (w : World)

/-- Pieces of a run in which no halted process executes an instruction. -/
abbrev HaltSegment (P : Finset Pid → Prop) (trace : List Tr) (Q : Finset Pid → Prop) : Prop :=
  Segment (recordHalts w) (HaltsOrderly w) NotHalted P trace Q

variable {w}

/-- An instruction that is no halt keeps the halted processes asleep. -/
theorem haltSegment_step {s : Machine} (cpuId : Fin 2) {pid : Pid} {cpu : VirtualCPU}
    (hget : s.cpus.get pid = some cpu) (hrun : cpu.halted = false) (hhalt : s.atHalt w pid = false) :
    HaltSegment w (Sleepers · s) [⟨s, .step cpuId pid, (s.stepCpu w pid cpu).2⟩]
      fun halted => Sleepers halted (s.stepCpu w pid cpu).2 ∧ (pid = 1 ∨ pid ∉ halted) := by
  apply Segment.single
  intro halted hsleepers _
  have hrunning : s.isHalted pid = false := by rw [Machine.isHalted, hget]; exact hrun
  have hfree := hsleepers.not_mem hrunning
  have hsame : recordHalts w halted ⟨s, .step cpuId pid, (s.stepCpu w pid cpu).2⟩ = halted := by
    simp only [recordHalts, hhalt]
    rfl
  rw [hsame]
  exact ⟨⟨hsleepers.performed (.step cpuId hget hrun) fun p hp _ => ⟨hp, rfl⟩, hfree⟩, hfree⟩

/-- A halt lets its own process go to sleep. -/
theorem haltSegment_halt {s : Machine} {cpuId : Fin 2} {pid : Pid} {cpu : VirtualCPU}
    (hfits : s.cpus.Fits s.nextPid none) (hget : s.cpus.get pid = some cpu)
    (hrun : cpu.halted = false) (hhalt : s.atHalt w pid = true) :
    HaltSegment w (Sleepers · s) [⟨s, .step cpuId pid, (s.stepCpu w pid cpu).2⟩]
      fun halted => SleepersBut pid halted (s.stepCpu w pid cpu).2 := by
  apply Segment.single
  intro halted hsleepers hok
  have hrunning : s.isHalted pid = false := by rw [Machine.isHalted, hget]; exact hrun
  have hfree := hsleepers.not_mem hrunning
  -- the step executes the halt instruction, and the process joins those that halted
  have hinsert : recordHalts w halted ⟨s, .step cpuId pid, (s.stepCpu w pid cpu).2⟩ =
      insert pid halted := by
    simp only [recordHalts, hhalt]
    rfl
  obtain ⟨-, hstopped, cpu', hget', -⟩ := stepCpu_atHalt hget hrun hhalt
  have hkernel : (s.stepCpu w pid cpu).2.toKernel = s.toKernel := by
    cases stepCpu_step w cpuId hget hrun with
    | step _ _ hk _ => exact hk
  rw [hinsert]
  refine ⟨?_, hfree⟩
  intro p hp hne
  rcases Finset.mem_insert.1 hp with rfl | hold
  · rw [hkernel]
    refine ⟨(hfits p cpu hget).1, hstopped, ?_⟩
    rcases hok hne hhalt with hstate | hrest
    · refine Or.inr ⟨rfl, hstate, ?_⟩
      rw [Machine.isHalted, hget'] at hstopped
      rw [hget']
      exact hstopped
    · exact Or.inl hrest
  · have hkept : Sleepers halted (s.stepCpu w pid cpu).2 :=
      hsleepers.performed (.step cpuId hget hrun) fun p hp _ => ⟨hp, rfl⟩
    exact hkept.but pid p hold hne

/-- A system call wakes nobody that has halted. -/
theorem haltSegment_syscall {s s' : Machine} {cpuId : Fin 2} {pid : Pid} {call : SystemCall}
    (h : Performed w s (.syscall cpuId pid call) s') :
    HaltSegment w (fun halted => Sleepers halted s ∧ (pid = 1 ∨ pid ∉ halted))
      [⟨s, .syscall cpuId pid call, s'⟩] fun halted => Sleepers halted s' := by
  apply Segment.single
  rintro halted ⟨hsleepers, hfree⟩ -
  have hsub : recordHalts w halted ⟨s, .syscall cpuId pid call, s'⟩ ⊆ halted := by
    cases call with
    | exec => exact Finset.erase_subset pid halted
    | _ => exact Finset.Subset.refl halted
  refine ⟨hsleepers.performed h fun p hp hne => ⟨hsub hp, ?_⟩, trivial⟩
  apply decide_eq_false
  rintro rfl
  exact hfree.elim hne fun hnot => hnot (hsub hp)

/-- Nor does a fault that is passed on. -/
theorem haltSegment_fault {s : Machine} {cpuId : Fin 2} {pid : Pid}
    (hfits : s.cpus.Fits s.nextPid none) :
    HaltSegment w (SleepersBut pid · s) (forwardFault w cpuId pid s).2
      fun halted => SleepersBut pid halted (forwardFault w cpuId pid s).1 := by
  rcases forwardFault_cases w cpuId pid hfits with hnone | ⟨s', hfault, hperformed, -⟩
  · rw [hnone]
    exact Segment.nil fun _ h => h
  · rw [hfault]
    exact Segment.single fun halted h _ => ⟨h.pageFault hperformed, trivial⟩

/-- What is kept through the instructions of a slice. -/
structure SliceKept (w : World) (cpuId : Fin 2) (pid : Pid) (n : Nat) (s : Machine) : Prop where
  fits : (execute w cpuId pid n s).1.cpus.Fits (execute w cpuId pid n s).1.nextPid none
  segment : HaltSegment w (Sleepers · s) (execute w cpuId pid n s).2
    fun halted => SleepersBut pid halted (execute w cpuId pid n s).1

/-- After a system call: a page fault, and the rest of the slice. -/
theorem sliceKept_rest {cpuId : Fin 2} {pid : Pid} {n : Nat} {s : Machine}
    (hfits : s.cpus.Fits s.nextPid none)
    (ih : ∀ s : Machine, s.cpus.Fits s.nextPid none → SliceKept w cpuId pid n s) :
    (execute w cpuId pid n (forwardFault w cpuId pid s).1).1.cpus.Fits
        (execute w cpuId pid n (forwardFault w cpuId pid s).1).1.nextPid none ∧
      HaltSegment w (Sleepers · s)
        ((forwardFault w cpuId pid s).2 ++ (execute w cpuId pid n (forwardFault w cpuId pid s).1).2)
        fun halted => SleepersBut pid halted
          (execute w cpuId pid n (forwardFault w cpuId pid s).1).1 := by
  rcases forwardFault_cases w cpuId pid hfits with hnone | ⟨s', hfault, hperformed, hfits'⟩
  · rw [hnone]
    exact ⟨(ih s hfits).fits, (ih s hfits).segment⟩
  · rw [hfault]
    refine ⟨(ih s' hfits').fits, Segment.append ?_ (ih s' hfits').segment⟩
    apply Segment.single
    intro halted hsleepers _
    exact ⟨hsleepers.performed hperformed fun p hp _ => ⟨hp, rfl⟩, trivial⟩

/-- The transition of one instruction. -/
def stepTr (w : World) (cpuId : Fin 2) (pid : Pid) (cpu : VirtualCPU) (s : Machine) : Tr :=
  ⟨s, .step cpuId pid, (s.stepCpu w pid cpu).2⟩

/-- An instruction leaves the tables. -/
theorem stepCpu_toKernel {s : Machine} {pid : Pid} {cpu : VirtualCPU} (cpuId : Fin 2)
    (hget : s.cpus.get pid = some cpu) (hrun : cpu.halted = false) :
    (s.stepCpu w pid cpu).2.toKernel = s.toKernel := by
  cases stepCpu_step w cpuId hget hrun with
  | step _ _ hk _ => exact hk

/-- A slice that starts with an instruction which the loop does not stop at. -/
theorem execute_next {cpuId : Fin 2} {pid : Pid} {n : Nat} {s s' : Machine} {cpu : VirtualCPU}
    {calls : List Tr} (hget : s.cpus.get pid = some cpu) (hrun : cpu.halted = false)
    (hgo : (s.stepCpu w pid cpu).1 = true)
    (hcall : runSyscall w cpuId pid (s.stepCpu w pid cpu).2 = (s', calls))
    (hlive : ¬(calls.isEmpty = false ∧ s'.isHalted pid = true)) :
    execute w cpuId pid (n + 1) s =
      ((execute w cpuId pid n (forwardFault w cpuId pid s').1).1,
        [stepTr w cpuId pid cpu s] ++ calls ++ (forwardFault w cpuId pid s').2 ++
          (execute w cpuId pid n (forwardFault w cpuId pid s').1).2) := by
  simp only [execute, hget]
  rw [if_neg (by rw [hrun]; exact Bool.false_ne_true), if_neg (by rw [hgo]; simp), hcall, if_neg hlive]
  rfl

/-- The slice ends with a halt, -/
theorem sliceKept_halt {cpuId : Fin 2} {pid : Pid} {n : Nat} {s : Machine} {cpu : VirtualCPU}
    (hfits : s.cpus.Fits s.nextPid none) (hget : s.cpus.get pid = some cpu)
    (hrun : cpu.halted = false) (hhalt : s.atHalt w pid = true) :
    SliceKept w cpuId pid (n + 1) s := by
  obtain ⟨hgo, hstopped, cpu', hget', hpending⟩ := stepCpu_atHalt hget hrun hhalt
  have hkernel := stepCpu_toKernel (w := w) cpuId hget hrun
  -- the halt instruction asks for no system call
  have hidle : (s.stepCpu w pid cpu).2.cpus.Fits (s.stepCpu w pid cpu).2.nextPid none := by
    rw [hkernel]
    intro q cpu'' hq
    obtain ⟨hlt, hcaller⟩ := (stepCpu_fits (w := w) hget hfits).1 q cpu'' hq
    refine ⟨hlt, fun hset => ?_⟩
    cases hcaller hset
    rw [hget'] at hq
    cases hq
    rw [hpending] at hset
    exact (hfits pid cpu hget).2 hset
  have hcall : runSyscall w cpuId pid (s.stepCpu w pid cpu).2 = ((s.stepCpu w pid cpu).2, []) :=
    runSyscall_idle w cpuId hidle
  have hfault : (forwardFault w cpuId pid (s.stepCpu w pid cpu).2).1.isHalted pid = true := by
    rw [forwardFault_isHalted]
    exact hstopped
  have hall := execute_next (n := n) hget hrun hgo hcall (by simp)
  rw [execute_halted w cpuId n hfault, List.append_nil, List.append_nil] at hall
  constructor
  · rw [hall]
    exact forwardFault_fits w cpuId pid hidle
  · rw [hall]
    exact (haltSegment_halt hfits hget hrun hhalt).append (haltSegment_fault hidle)

/-- or goes on after its instruction. -/
theorem sliceKept_step {cpuId : Fin 2} {pid : Pid} {n : Nat} {s : Machine} {cpu : VirtualCPU}
    (hfits : s.cpus.Fits s.nextPid none) (hget : s.cpus.get pid = some cpu)
    (hrun : cpu.halted = false) (hhalt : s.atHalt w pid = false)
    (ih : ∀ s : Machine, s.cpus.Fits s.nextPid none → SliceKept w cpuId pid n s) :
    SliceKept w cpuId pid (n + 1) s := by
  have hkernel := stepCpu_toKernel (w := w) cpuId hget hrun
  have hsegment := haltSegment_step (w := w) cpuId hget hrun hhalt
  obtain ⟨hcaller, hstop⟩ := stepCpu_fits (w := w) hget hfits
  rw [← hkernel] at hcaller hstop
  -- by what ends the slice: an error of the step, a call that halts, or nothing yet
  cases hgo : (s.stepCpu w pid cpu).1 with
  | false =>
    have hall : execute w cpuId pid (n + 1) s =
        ((s.stepCpu w pid cpu).2, [stepTr w cpuId pid cpu s]) := by
      simp only [execute, hget]
      rw [if_neg (by rw [hrun]; exact Bool.false_ne_true), if_pos hgo]
      rfl
    constructor
    · rw [hall]
      exact hstop hgo
    · rw [hall]
      exact hsegment.mono (fun _ h => h) fun _ h => h.1.but pid
  | true =>
    rcases runSyscall_cases w cpuId hcaller with ⟨hcall, hidle⟩ | ⟨call, s', hcall, hperformed, hidle⟩
    · obtain ⟨hend, hrest⟩ := sliceKept_rest hidle ih
      have hall := execute_next (n := n) hget hrun hgo hcall (by simp)
      constructor
      · rw [hall]
        exact hend
      · rw [hall, List.append_nil, List.append_assoc]
        exact (hsegment.mono (fun _ h => h) fun _ h => h.1).append hrest
    · have hcalled := hsegment.append (haltSegment_syscall hperformed)
      by_cases hlive : s'.isHalted pid = true
      · have hall : execute w cpuId pid (n + 1) s =
            (s', [stepTr w cpuId pid cpu s] ++
              [⟨(s.stepCpu w pid cpu).2, .syscall cpuId pid call, s'⟩]) := by
          simp only [execute, hget]
          rw [if_neg (by rw [hrun]; exact Bool.false_ne_true), if_neg (by rw [hgo]; simp), hcall,
            if_pos ⟨rfl, hlive⟩]
          rfl
        constructor
        · rw [hall]
          exact hidle
        · rw [hall]
          exact hcalled.mono (fun _ h => h) fun _ h => h.but pid
      · obtain ⟨hend, hrest⟩ := sliceKept_rest hidle ih
        have hall := execute_next (n := n) hget hrun hgo hcall fun hboth => hlive hboth.2
        constructor
        · rw [hall]
          exact hend
        · rw [hall, List.append_assoc]
          exact hcalled.append hrest

/-- What is kept through the instructions of a slice, by induction on their number. -/
theorem sliceKept (w : World) (cpuId : Fin 2) (pid : Pid) (n : Nat) {s : Machine}
    (hfits : s.cpus.Fits s.nextPid none) : SliceKept w cpuId pid n s := by
  -- induction on the instructions that are left
  induction n generalizing s with
  | zero => exact ⟨hfits, Segment.nil fun _ h => h.but pid⟩
  | succ n ih =>
    cases hget : s.cpus.get pid with
    | none =>
      have hstop : execute w cpuId pid (n + 1) s = (s, []) := by simp only [execute, hget]
      constructor
      · rw [hstop]
        exact hfits
      · rw [hstop]
        exact Segment.nil fun _ h => h.but pid
    | some cpu =>
      cases hrun : cpu.halted with
      | true =>
        have hstop : execute w cpuId pid (n + 1) s = (s, []) := by
          apply execute_halted
          rw [Machine.isHalted, hget]
          exact hrun
        constructor
        · rw [hstop]
          exact hfits
        · rw [hstop]
          exact Segment.nil fun _ h => h.but pid
      | false =>
        cases hhalt : s.atHalt w pid with
        | true => exact sliceKept_halt hfits hget hrun hhalt
        | false => exact sliceKept_step hfits hget hrun hhalt fun s hfits => ih hfits

/-- The CPUs fit after the dispatch that begins a turn. -/
theorem dispatched_fits {s : Machine} (hfits : s.cpus.Fits s.nextPid none) (cpuId : Fin 2)
    (scheduledThisTick : List Pid) :
    (s.dispatch cpuId scheduledThisTick).2.cpus.Fits
      (s.dispatch cpuId scheduledThisTick).2.nextPid none := by
  rw [Machine.dispatch_toKernel, Kernel.dispatch_nextPid]
  exact dispatch_fits hfits cpuId scheduledThisTick

/-- A turn leaves no system call pending. -/
theorem turn_fits {s : Machine} (hfits : s.cpus.Fits s.nextPid none) (cpuId : Fin 2)
    (scheduledThisTick : List Pid) :
    (turn w cpuId scheduledThisTick s).1.cpus.Fits
      (turn w cpuId scheduledThisTick s).1.nextPid none := by
  have hreaped : ∀ s : Machine, s.cpus.Fits s.nextPid none →
      (s.reap w).cpus.Fits (s.reap w).nextPid none :=
    fun s hfits => (reap_fits hfits).mono (s.reap_table cpuId w).enrols.nextPid_le
  have hdispatched := dispatched_fits hfits cpuId scheduledThisTick
  simp only [turn]
  split
  · next pid _ _ =>
    have hslice := (sliceKept w cpuId pid 3 hdispatched).fits
    apply hreaped
    exact (settle_fits hslice pid).mono (Machine.settle_table _ cpuId pid).enrols.nextPid_le
  · exact hreaped _ hdispatched

/-- A turn keeps the halted processes asleep. -/
theorem haltSegment_turn {s : Machine} (hfits : s.cpus.Fits s.nextPid none) (cpuId : Fin 2)
    (scheduledThisTick : List Pid) :
    HaltSegment w (Sleepers · s) (turn w cpuId scheduledThisTick s).2.1
      fun halted => Sleepers halted (turn w cpuId scheduledThisTick s).1 := by
  -- the acts around the slice stir nobody
  have hquiet : ∀ {s s' : Machine} {act : Act}, Performed w s act s' →
      (∀ halted, recordHalts w halted ⟨s, act, s'⟩ = halted) →
      (∀ halted, NotHalted halted ⟨s, act, s'⟩) → (∀ p, act.stirs p = false) →
      HaltSegment w (Sleepers · s) [⟨s, act, s'⟩] fun halted => Sleepers halted s' := by
    intro s s' act hperformed hrecord hgood hstirs
    apply Segment.single
    intro halted hsleepers _
    rw [hrecord]
    exact ⟨hsleepers.performed hperformed fun p hp _ => ⟨hp, hstirs p⟩, hgood halted⟩
  have hdispatch := hquiet (.dispatch (s := s) cpuId scheduledThisTick) (fun _ => rfl)
    (fun _ => trivial) fun _ => rfl
  have hreap : ∀ s : Machine, HaltSegment w (Sleepers · s) [⟨s, .reap cpuId, s.reap w⟩]
      fun halted => Sleepers halted (s.reap w) :=
    fun s => hquiet (.reap cpuId) (fun _ => rfl) (fun _ => trivial) fun _ => rfl
  have hsettle : ∀ (s : Machine) (pid : Pid), HaltSegment w (SleepersBut pid · s)
      [⟨s, .settle cpuId pid, s.settle pid⟩] fun halted => Sleepers halted (s.settle pid) :=
    fun s pid => Segment.single fun halted hsleepers _ => ⟨hsleepers.settle, trivial⟩
  simp only [turn]
  split
  · next pid _ _ =>
    have hslice := (sliceKept w cpuId pid 3 (dispatched_fits hfits cpuId scheduledThisTick)).segment
    exact (hdispatch.append hslice).append ((hsettle _ pid).append (hreap _))
  · exact hdispatch.append (hreap _)

end turns

/-! ## Runs -/

/-- A process that is not in the table does not come back. -/
theorem TableStep.absent {k k' : Kernel} {act : Act} (h : TableStep k act k') {q : Pid}
    (hq : q < k.nextPid) (hnone : k.stateOf q = none) : k'.stateOf q = none := by
  by_contra hsome
  rcases h.enrols.known q (Option.isSome_iff_ne_none.2 hsome) with hold | ⟨hnew, -⟩
  · rw [hnone] at hold
    cases hold
  · exact Nat.ne_of_lt hq hnew

/-- A request that would stir a process which has halted finds nobody. -/
theorem HaltsOrderly.absent {w : World} {t : Tr} {req : ProcessRequest} {channel : Option RequestId}
    {halted : Finset Pid} {p : Pid} (hok : HaltsOrderly w halted t) (hact : t.act = .request req channel)
    (hstirs : (Act.request req channel).stirs p = true) (hne : p ≠ 1) (hp : p ∈ halted) :
    t.pre.stateOf p = none := by
  rw [HaltsOrderly, hact] at hok
  cases req with
  | unblock pid tid =>
    cases of_decide_eq_true hstirs
    exact hok hne hp
  | signal pid signal =>
    cases signal with
    | «continue» =>
      cases of_decide_eq_true hstirs
      exact hok hne hp
    | _ => cases hstirs
  | _ => cases hstirs

/-- An orderly request wakes nobody that has halted, -/
theorem sleepers_request {w : World} {s s' : Machine} {req : ProcessRequest}
    {channel : Option RequestId} {halted : Finset Pid} (hsleepers : Sleepers halted s)
    (hperformed : Performed w s (.request req channel) s')
    (hok : HaltsOrderly w halted ⟨s, .request req channel, s'⟩) : Sleepers halted s' := by
  intro p hp hne
  obtain ⟨hlt, hdormant⟩ := hsleepers p hp hne
  have hstep := hperformed.step_of.table
  refine ⟨Nat.lt_of_lt_of_le hlt hstep.enrols.nextPid_le, ?_⟩
  cases hstirs : (Act.request req channel).stirs p with
  | false => exact hperformed.dormant hlt hstirs hdormant
  | true =>
    have hnone := hstep.absent hlt (hok.absent rfl hstirs hne hp)
    refine ⟨?_, by rw [hnone]; rfl⟩
    cases hperformed with
    | request =>
      have hcpus := handleSimpleRequest_cpus w s req channel
      exact (isHalted_of_get (congrFun (congrArg CpuTable.get hcpus) p)).trans hdormant.halted

/-- and so all that the service does between the turns. -/
theorem sleepers_service {w : World} {t : Tr} (hperformed : Performed w t.pre t.act t.post)
    (hact : t.act.isService = true) {halted : Finset Pid} (hsleepers : Sleepers halted t.pre)
    (hok : HaltsOrderly w halted t) :
    Sleepers (recordHalts w halted t) t.post ∧ NotHalted halted t := by
  obtain ⟨s, act, s'⟩ := t
  cases act with
  | fork parent => exact ⟨hsleepers.performed hperformed fun p hp _ => ⟨hp, rfl⟩, trivial⟩
  | exec pid executable args =>
    refine ⟨hsleepers.performed hperformed ?_, trivial⟩
    intro p hp _
    obtain ⟨hother, hold⟩ := Finset.mem_erase.1 hp
    exact ⟨hold, decide_eq_false hother.symm⟩
  | sharedSemaphores => exact ⟨hsleepers.performed hperformed fun p hp _ => ⟨hp, rfl⟩, trivial⟩
  | request req channel => exact ⟨sleepers_request hsleepers hperformed hok, trivial⟩
  | respond channel => exact ⟨hsleepers.performed hperformed fun p hp _ => ⟨hp, rfl⟩, trivial⟩
  | background => exact ⟨hsleepers.performed hperformed fun p hp _ => ⟨hp, rfl⟩, trivial⟩
  | _ => cases hact

/-- What a run keeps: no system call is pending, and whoever has halted sleeps. -/
structure HaltsKept (halted : Finset Pid) (s : Machine) : Prop where
  fits : s.cpus.Fits s.nextPid none
  sleepers : Sleepers halted s

/-- At boot nobody has halted. -/
theorem haltsKept_boot (w : World) (memory : MemoryService) : HaltsKept ∅ (boot w memory) := by
  have hempty : (Machine.new memory).cpus.Fits (Machine.new memory).nextPid none := by
    intro q cpu hget
    cases hget
  refine ⟨(forkImpl_forked w (Machine.new memory) 0).fits hempty, ?_⟩
  intro p hp
  cases hp

/-- A process that has halted executes no instruction until it is given a program, in every run in
which processes halt orderly. -/
theorem halt_final (w : World) (memory : MemoryService) (events : List Event)
    (h : Along (recordHalts w) (HaltsOrderly w) ∅ (run w memory events).2) :
    Along (recordHalts w) NotHalted ∅ (run w memory events).2 := by
  have hrun : HaltSegment w (fun halted => HaltsKept halted (boot w memory)) (run w memory events).2
      fun halted => HaltsKept halted (run w memory events).1 := by
    apply (run_rounds w memory events).segment
    · intro t hperformed hact halted hkept hok
      obtain ⟨hsleepers, hgood⟩ := sleepers_service hperformed hact hkept.sleepers hok
      exact ⟨⟨hperformed.fits hact hkept.fits, hsleepers⟩, hgood⟩
    · intro cpuId scheduledThisTick s halted hkept hok
      obtain ⟨hsleepers, hgood⟩ :=
        haltSegment_turn hkept.fits cpuId scheduledThisTick halted hkept.sleepers hok
      exact ⟨⟨turn_fits hkept.fits cpuId scheduledThisTick, hsleepers⟩, hgood⟩
  exact (hrun ∅ (haltsKept_boot w memory) h).2

/-- Two halt instructions. -/
def haltTwice : List UInt8 := [0xFF, 0, 0, 0, 0, 0, 0, 0, 0xFF, 0, 0, 0, 0, 0, 0, 0]

/-- A process that halts while it runs is gone after the tick. -/
theorem halt_final_running :
    Along (recordHalts (World.calm haltTwice)) NotHalted ∅
      (run (World.calm haltTwice) (bootMemory 16384 fun _ => 0)
        [.envelope (.syscall (.createProcess "a" [])) false, .timer, .timer]).2 :=
  halt_final (World.calm haltTwice) (bootMemory 16384 fun _ => 0) _ (by decide +kernel)

/-- A process that is stopped, halts and is continued executes the second instruction too. -/
theorem halt_continued :
    ¬Along (recordHalts (World.calm haltTwice)) NotHalted ∅
      (run (World.calm haltTwice) (bootMemory 16384 fun _ => 0)
        [.envelope (.syscall (.createProcess "a" [])) false, .envelope (.process (.signal 2 .stop)) false,
          .timer, .envelope (.process (.signal 2 .continue)) false, .timer]).2 := by
  decide +kernel

end GenshinOs.Process
