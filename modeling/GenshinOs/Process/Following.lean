import GenshinOs.Process.Assertions
import GenshinOs.Process.Footprint
import GenshinOs.Process.Halting

/-!
# The program of a process in the service

What the process service does with the CPU of one process, slice by slice and among everything else that
it does, is a run of the program under the kernel: `followed_events`. It needs that nobody loads another
program into the process or wakes it as the waiter of a mutex, which would make it repeat an instruction.
So what is proved of the runs of a program holds of the process in every run of the service.
-/

set_option autoImplicit false

namespace GenshinOs.Process

open GenshinOs.Lib GenshinOs.Hardware GenshinOs.Memory

open Machine

/-! ## The CPU of a process in the table -/

/-- The CPU of a process is there only if it was, and the two are related. -/
def CpuTable.Carries (R : VirtualCPU → VirtualCPU → Prop) (pid : Pid) (c c' : CpuTable) : Prop :=
  ∀ cpu', c'.get pid = some cpu' → ∃ cpu, c.get pid = some cpu ∧ R cpu cpu'

namespace CpuTable.Carries

variable {R : VirtualCPU → VirtualCPU → Prop} {pid : Pid} {c c' c'' : CpuTable}

theorem of_get (hR : ∀ cpu, R cpu cpu) (h : c'.get pid = c.get pid) : Carries R pid c c' := by
  intro cpu' hget
  rw [h] at hget
  exact ⟨cpu', hget, hR cpu'⟩

theorem of_eq (hR : ∀ cpu, R cpu cpu) (h : c' = c) : Carries R pid c c' := of_get hR (by rw [h])

theorem update (h : Carries R pid c c') (q : Pid) {f : VirtualCPU → VirtualCPU}
    (howner : ∀ cpu, (f cpu).currentPid = cpu.currentPid)
    (hf : q = pid → ∀ cpu cpu', R cpu cpu' → R cpu (f cpu')) : Carries R pid c (c'.update q f) := by
  intro cpu' hget
  rw [get_update _ _ _ howner] at hget
  split at hget
  · next heq =>
    obtain ⟨old, hold, rfl⟩ := Option.map_eq_some_iff.1 hget
    rw [← heq] at hold
    obtain ⟨cpu, hcpu, hrel⟩ := h old hold
    exact ⟨cpu, hcpu, hf heq.symm cpu old hrel⟩
  · exact h cpu' hget

theorem insert (h : Carries R pid c c') {cpu : VirtualCPU} (hne : cpu.currentPid ≠ pid) :
    Carries R pid c (c'.insert cpu) := by
  intro cpu' hget
  rw [get_insert, if_neg hne.symm] at hget
  exact h cpu' hget

end CpuTable.Carries

/-! ## System calls -/

/-- The operation loads a program into the process. -/
def Act.loads (pid : Pid) : Act → Bool
  | .exec q _ _ => decide (q = pid)
  | _ => false

/-- The process that an operation wakes as the waiter of a mutex. -/
def Act.woken (w : World) (s : Machine) : Act → Option Pid
  | .syscall _ _ (.lockRelease lockId) => s.toKernel.findWaiter (w.order s.clock) lockId.toNat
  | _ => none

/-- The operation neither loads a program into a process nor wakes it as the waiter of a mutex. -/
def Act.spares (w : World) (pid : Pid) (s : Machine) (act : Act) : Prop :=
  act.loads pid = false ∧ act.woken w s ≠ some pid

section fork

variable {R : VirtualCPU → VirtualCPU → Prop} {s : Machine} {pid : Pid}

/-- A child has a fresh number, so its CPU takes no other one's place. -/
theorem Machine.Forked.carries {parent : Pid} {out : Except ServiceError Pid × Machine}
    (h : Forked s parent out) (hrefl : ∀ cpu, R cpu cpu) (hknown : pid < s.nextPid) :
    CpuTable.Carries R pid s.cpus out.2.cpus := by
  have hsame : CpuTable.Carries R pid s.cpus s.cpus := CpuTable.Carries.of_eq hrefl rfl
  cases h with
  | orphan hk hcpus => exact CpuTable.Carries.of_eq hrefl hcpus
  | aborted hk hcpus => exact CpuTable.Carries.of_eq hrefl hcpus
  | fresh _ hk hcpus =>
    show CpuTable.Carries R pid s.cpus (Machine.cpus _)
    rw [hcpus]
    exact hsame.insert (Nat.ne_of_gt hknown)
  | child _ hk hcpus =>
    show CpuTable.Carries R pid s.cpus (Machine.cpus _)
    rw [hcpus]
    apply hsame.insert
    rw [childCpu_currentPid]
    exact Nat.ne_of_gt hknown

theorem Machine.Execed.carries {q : Pid} {executable : String} {args : List String}
    {out : Except ServiceError Unit × Machine} (h : Execed s q executable args out)
    (hrefl : ∀ cpu, R cpu cpu) (hne : q ≠ pid) : CpuTable.Carries R pid s.cpus out.2.cpus := by
  cases h with
  | failed hk hcpus => exact CpuTable.Carries.of_eq hrefl hcpus
  | started _ hk hcpus =>
    show CpuTable.Carries R pid s.cpus (Machine.cpus _)
    rw [hcpus]
    exact (CpuTable.Carries.of_eq hrefl rfl).update q (fun _ => rfl) fun heq => absurd heq hne

end fork

/-- What a system call does to the CPU of a process, if it does so to that of its caller. -/
theorem Machine.handleFileSyscall_carries {R : VirtualCPU → VirtualCPU → Prop} {pid q : Pid}
    (hrefl : ∀ cpu, R cpu cpu)
    (hregister : q = pid → ∀ reg value cpu cpu', R cpu cpu' → R cpu (cpu'.writeRegister reg value))
    (hhalt : q = pid → ∀ cpu cpu', R cpu cpu' → R cpu cpu'.halt)
    {w : World} {s s' : Machine} {call : SystemCall} (h : s.handleFileSyscall w q call = some s')
    (hexec : call = .exec → q ≠ pid) (hknown : pid < s.nextPid) {cpuId : Fin 2}
    (hspared : (Act.syscall cpuId q call).spares w pid s) :
    CpuTable.Carries R pid s.cpus s'.cpus := by
  have hsame : CpuTable.Carries R pid s.cpus s.cpus := CpuTable.Carries.of_eq hrefl rfl
  have hwritten : ∀ {c : CpuTable} (reg : Register) (value : UInt64),
      CpuTable.Carries R pid s.cpus c →
      CpuTable.Carries R pid s.cpus (c.update q fun cpu => cpu.writeRegister reg value) := by
    intro c reg value hc
    exact hc.update q (fun _ => rfl) fun heq => hregister heq reg value
  have hhalted := hsame.update q (f := VirtualCPU.halt) (fun _ => rfl) hhalt
  have hslept : ∀ call : Bool × Kernel, CpuTable.Carries R pid s.cpus (s.sleepIf q call).cpus := by
    intro call
    rw [sleepIf_cpus]
    split
    · exact hhalted
    · exact hsame
  cases call with
  | exit code =>
    cases handleFileSyscall_effect h with
    | quiet hcall => cases hcall
    | initExit => exact hsame
    | exit _ hk hcpus =>
      rw [hcpus]
      exact hhalted
  | fork =>
    cases h
    have hforked := (forkImpl_forked w s q).carries hrefl hknown
    simp only [syscallFork]
    split
    · next heq =>
      rw [heq] at hforked
      exact hwritten .r0 _ hforked
    · next heq =>
      rw [heq] at hforked
      exact hwritten .r0 _ hforked
  | exec =>
    cases h
    exact (execImpl_execed w s q (s.readStringVirt q 0x100) []).carries hrefl (hexec rfl)
  | semCreate =>
    cases h
    exact hwritten .r1 _ hsame
  | semWait semId =>
    cases h
    exact hslept _
  | semSignal semId =>
    cases h
    exact hsame
  | lockCreate =>
    cases h
    exact hwritten .r1 _ hsame
  | lockAcquire lockId =>
    cases h
    exact hslept _
  | lockRelease lockId =>
    cases h
    have hwaiter : s.toKernel.findWaiter (w.order s.clock) lockId.toNat ≠ some pid := hspared.2
    have hreleased : ∀ waiter k,
        s.toKernel.lockRelease (w.order s.clock) q lockId.toNat = (some waiter, k) → waiter ≠ pid := by
      rintro waiter k heq rfl
      apply hwaiter
      rw [Kernel.lockRelease] at heq
      split at heq
      · next other hfound =>
        cases heq
        exact hfound
      · cases heq
    simp only [syscallLockRelease]
    split
    · next waiter k heq =>
      exact hsame.update waiter (fun _ => rfl) fun hpid => absurd hpid (hreleased waiter k heq)
    · exact hsame
  | _ =>
    obtain ⟨hk, hcpus⟩ := handleFileSyscall_quiet rfl h
    rcases hcpus with hcpus | ⟨reg, value, hcpus⟩
    · exact CpuTable.Carries.of_eq hrefl hcpus
    · rw [hcpus]
      exact hwritten reg value hsame

/-! ## Everything that is not a step or a call of the process -/

/-- A CPU waits: it may be halted and started, and its page fault may be taken note of. -/
structure StandsBy (cpu cpu' : VirtualCPU) : Prop where
  pc_eq : cpu'.pc = cpu.pc
  flags_eq : cpu'.flags = cpu.flags
  registers_eq : cpu'.registers = cpu.registers
  pending_eq : cpu'.syscallPending = cpu.syscallPending
  syscallRegs_eq : cpu'.syscallRegs = cpu.syscallRegs

theorem StandsBy.refl (cpu : VirtualCPU) : StandsBy cpu cpu := ⟨rfl, rfl, rfl, rfl, rfl⟩

theorem StandsBy.resumed {cpu cpu' : VirtualCPU} (h : StandsBy cpu cpu') : Resumed cpu cpu' := by
  refine ⟨h.pc_eq, h.flags_eq, fun _ => h.registers_eq, fun hpending => ?_⟩
  rw [← h.pending_eq]
  exact hpending

theorem StandsBy.callOf_eq {cpu cpu' : VirtualCPU} (h : StandsBy cpu cpu') : callOf cpu' = callOf cpu := by
  rw [callOf, callOf, h.pending_eq, h.syscallRegs_eq]

/-- Halting and starting a CPU, and taking note of a page fault. -/
theorem StandsBy.flagged {cpu cpu' : VirtualCPU} (h : StandsBy cpu cpu') (halted pending : Bool) :
    StandsBy cpu { cpu' with halted := halted, pagefaultPending := pending } :=
  ⟨h.pc_eq, h.flags_eq, h.registers_eq, h.pending_eq, h.syscallRegs_eq⟩

/-- The step or the system call of a process. -/
def Act.isOwn (pid : Pid) : Act → Bool
  | .step _ q => decide (q = pid)
  | .syscall _ q _ => decide (q = pid)
  | _ => false

/-- While others are served, a process waits. -/
theorem Performed.waits {w : World} {s s' : Machine} {act : Act} (h : Performed w s act s') {pid : Pid}
    (hother : act.isOwn pid = false) (hspared : act.spares w pid s) (hknown : pid < s.nextPid) :
    CpuTable.Carries StandsBy pid s.cpus s'.cpus := by
  have hsame : CpuTable.Carries StandsBy pid s.cpus s.cpus := CpuTable.Carries.of_eq StandsBy.refl rfl
  have hquiet : s'.cpus = s.cpus → CpuTable.Carries StandsBy pid s.cpus s'.cpus :=
    CpuTable.Carries.of_eq StandsBy.refl
  cases h with
  | dispatch cpuId scheduledThisTick =>
    simp only [Machine.dispatch]
    split
    · split
      · exact hsame.update _ (fun _ => rfl) fun _ cpu cpu' hwaits => hwaits.flagged _ _
      · exact hsame
    · exact hsame
  | @step cpuId q cpu hget hrun =>
    have hne : pid ≠ q := fun heq => of_decide_eq_false hother heq.symm
    cases stepCpu_step w cpuId hget hrun with
    | step _ _ _ hcpus => exact CpuTable.Carries.of_get StandsBy.refl (hcpus pid hne)
  | @syscall _ cpuId q call hcall =>
    have hne : q ≠ pid := of_decide_eq_false hother
    intro cpu' hget'
    obtain ⟨cpu, hget, hwaits⟩ := handleFileSyscall_carries (R := StandsBy) StandsBy.refl
      (fun heq => absurd heq hne) (fun heq => absurd heq hne) hcall (fun _ => hne) hknown hspared cpu' hget'
    have hnoted : CpuTable.Carries StandsBy pid s.cpus
        (s.updateCpu q fun cpu => { cpu with syscallPending := false }).cpus :=
      hsame.update q (fun _ => rfl) fun heq => absurd heq hne
    obtain ⟨cpu₀, hget₀, hwaits₀⟩ := hnoted cpu hget
    exact ⟨cpu₀, hget₀, hwaits.pc_eq.trans hwaits₀.pc_eq, hwaits.flags_eq.trans hwaits₀.flags_eq,
      hwaits.registers_eq.trans hwaits₀.registers_eq, hwaits.pending_eq.trans hwaits₀.pending_eq,
      hwaits.syscallRegs_eq.trans hwaits₀.syscallRegs_eq⟩
  | @panic cpuId q call hcall =>
    have hne : q ≠ pid := of_decide_eq_false hother
    have hnoted : CpuTable.Carries StandsBy pid s.cpus
        (s.updateCpu q fun cpu => { cpu with syscallPending := false }).cpus :=
      hsame.update q (fun _ => rfl) fun heq => absurd heq hne
    exact hnoted.update q (fun _ => rfl) fun heq => absurd heq hne
  | @pageFault cpuId q cpu hget hpending =>
    have hrequested := quiet_requestMemory w
      (s.updateCpu q fun cpu => { cpu with pagefaultPending := false })
      (.pageFaultHandler q cpu.pc .read)
    rw [hrequested.cpus]
    exact hsame.update q (fun _ => rfl) fun _ cpu cpu' hwaits => hwaits.flagged _ _
  | settle cpuId q =>
    simp only [Machine.settle]
    split
    · split
      · exact hsame.update q (fun _ => rfl) fun _ cpu cpu' hwaits => hwaits.flagged _ _
      · exact hsame
    · exact hsame
  | reap cpuId =>
    intro cpu' hget'
    rcases s.reap_get w pid with hkept | hnone
    · exact ⟨cpu', hkept ▸ hget', StandsBy.refl cpu'⟩
    · rw [hnone] at hget'
      cases hget'
  | fork parent => exact (forkImpl_forked w s parent).carries StandsBy.refl hknown
  | exec q executable args =>
    exact (execImpl_execed w s q executable args).carries StandsBy.refl (of_decide_eq_false hspared.1)
  | sharedSemaphores => exact hquiet (quiet_requestMemory w _ _).cpus
  | request req channel => exact hquiet (handleSimpleRequest_cpus w s req channel)
  | respond channel answer => exact hquiet (finish_cpus s channel answer)
  | mapShared frame pids =>
    have hmapped : Quiet s (Machine.mapShared w frame pids s) :=
      Quiet.foldl (fun s _ => quiet_requestMemory w s _) _ _
    exact hquiet hmapped.cpus
  | faultMessage => exact hquiet rfl
  | takeRequestId => exact hquiet rfl

/-! ## The process in a run -/

/-- The system call that a process makes in a transition. -/
def callMade (pid : Pid) (t : Tr) : List SystemCall :=
  match t.act with
  | .syscall _ q call => if q = pid then [call] else []
  | _ => []

/-- The system calls that a process makes in a trace. -/
def callsOf (pid : Pid) (trace : List Tr) : List SystemCall := trace.flatMap (callMade pid)

/-- The program of a process is not disturbed. Its memory changes as `keeps` allows, in the transitions of
others, in its own system calls and in the background of its steps. -/
structure Undisturbed (w : World) (keeps : Space → Space → Prop) (pid : Pid) (t : Tr) : Prop where
  spared : t.act.spares w pid t.pre
  memory : (∀ cpuId, t.act ≠ .step cpuId pid) → keeps (t.pre.mmu.space pid) (t.post.mmu.space pid)
  background : (∃ cpuId, t.act = .step cpuId pid) →
    keeps (t.pre.mmu.space pid) ((t.pre.background w).mmu.space pid)

/-- The calls of a process and its CPU, if it has one, are those of a run of its program. -/
structure Followed (keeps : Space → Space → Prop) (x : VirtualCPU × Space) (pid : Pid)
    (calls : List SystemCall) (s : Machine) : Prop where
  known : pid < s.nextPid
  made : ∃ y, Runs keeps x calls y
  now : ∀ cpu, s.cpus.get pid = some cpu → Runs keeps x (calls ++ callOf cpu) (cpu, s.mmu.space pid)

/-- No system call of the process is pending. -/
def Idle (pid : Pid) (s : Machine) : Prop :=
  ∀ cpu, s.cpus.get pid = some cpu → cpu.syscallPending = false

/-- The tables of the memory service are those of an abstract map. -/
theorem Regular.refines {size : UInt64} {manager : PhysicalMemoryManager} {mmu : MMU}
    (h : Regular size manager mmu) : ∃ map, MMU.Refines PageSize.fourK mmu map := by
  refine ⟨fun q n => (mmu.mapped q (UInt64.ofNat (n * 4096))).map fun e => (e.frame, e.flags),
    h.pageSize_eq, ?_⟩
  intro q vaddr
  have hpage : UInt64.ofNat (pageOf PageSize.fourK vaddr * 4096) = PageSize.fourK.alignDown vaddr := by
    apply UInt64.toNat_inj.1
    rw [PageSize.toNat_alignDown, UInt64.toNat_ofNat', pageOf]
    show vaddr.toNat / 4096 * 4096 % 2 ^ 64 = vaddr.toNat - vaddr.toNat % 4096
    have := vaddr.toNat_lt
    omega
  rw [hpage, Option.map_map]
  cases hentry : mmu.mapped q (PageSize.fourK.alignDown vaddr) with
  | none => rfl
  | some entry =>
    have hframe : PageSize.fourK.alignDown entry.frame = entry.frame := (h.entry_ok q _ entry hentry).2.1
    simp only [Option.map_some, Function.comp, hframe]

section followed

variable {w : World} {keeps : Space → Space → Prop} {x : VirtualCPU × Space} {pid : Pid}
  {calls : List SystemCall} {s s' : Machine}

theorem Idle.carried (h : Idle pid s) (hcarried : CpuTable.Carries StandsBy pid s.cpus s'.cpus) :
    Idle pid s' := by
  intro cpu' hget'
  obtain ⟨cpu, hget, hwaits⟩ := hcarried cpu' hget'
  rw [hwaits.pending_eq]
  exact h cpu hget

/-- What is stored after a step: the CPU behind it, perhaps halted, and its memory. -/
theorem stepCpu_stored (w : World) {cpu : VirtualCPU} (hget : s.cpus.get pid = some cpu) :
    ∃ cpu', (s.stepCpu w pid cpu).2.cpus.get pid = some cpu' ∧
      StandsBy (cpu.step (s.background w).mmu).cpu cpu' ∧
      (s.stepCpu w pid cpu).2.toKernel = s.toKernel ∧
      (s.stepCpu w pid cpu).2.mmu = (cpu.step (s.background w).mmu).mmu ∧
      ((s.stepCpu w pid cpu).1 = false → ∃ e, (cpu.step (s.background w).mmu).result = .error e) := by
  have howner : (cpu.step (s.background w).mmu).cpu.currentPid = pid :=
    (VirtualCPU.step_contained cpu _).pid_eq.trans (s.cpus.owned pid cpu hget)
  have hstored : (s.cpus.insert (cpu.step (s.background w).mmu).cpu).get pid =
      some (cpu.step (s.background w).mmu).cpu := by
    rw [CpuTable.get_insert, howner, if_pos rfl]
  have hhalted : ((s.cpus.insert (cpu.step (s.background w).mmu).cpu).update pid VirtualCPU.halt).get pid =
      some (cpu.step (s.background w).mmu).cpu.halt := by
    rw [CpuTable.get_update _ _ _ (by intro cpu; rfl), if_pos rfl, hstored]
    rfl
  simp only [stepCpu]
  split
  · exact ⟨_, hstored, StandsBy.refl _, rfl, rfl, fun hstop => by cases hstop⟩
  · next hresult => exact ⟨_, hstored, StandsBy.refl _, rfl, rfl, fun _ => ⟨_, hresult⟩⟩
  · next hresult =>
    split
    · exact ⟨_, hstored, StandsBy.refl _, rfl, rfl, fun _ => ⟨_, hresult⟩⟩
    · exact ⟨_, hhalted, ⟨rfl, rfl, rfl, rfl, rfl⟩, rfl, rfl, fun _ => ⟨_, hresult⟩⟩

/-- While the process waits, its run goes on by what the kernel does. -/
theorem Followed.other (h : Followed keeps x pid calls s) {act : Act} (hperformed : Performed w s act s')
    (hother : act.isOwn pid = false) (hok : Undisturbed w keeps pid ⟨s, act, s'⟩) :
    Followed keeps x pid calls s' ∧ CpuTable.Carries StandsBy pid s.cpus s'.cpus := by
  have hcarried := hperformed.waits hother hok.spared h.known
  have hnostep : ∀ cpuId, act ≠ .step cpuId pid := by
    rintro cpuId rfl
    simp [Act.isOwn] at hother
  refine ⟨⟨Nat.lt_of_lt_of_le h.known hperformed.step_of.table.enrols.nextPid_le, h.made, ?_⟩, hcarried⟩
  intro cpu' hget'
  obtain ⟨cpu, hget, hwaits⟩ := hcarried cpu' hget'
  rw [hwaits.callOf_eq]
  exact (h.now cpu hget).kernel hwaits.resumed (hok.memory hnostep)

/-- A step of the process is a step of its run. -/
theorem Followed.step (h : Followed keeps x pid calls s) (hidle : Idle pid s) {cpu : VirtualCPU}
    (hget : s.cpus.get pid = some cpu) (hrefl : ∀ space, keeps space space)
    (htables : ∃ map, MMU.Refines PageSize.fourK (s.background w).mmu map) {cpuId : Fin 2}
    (hok : Undisturbed w keeps pid ⟨s, .step cpuId pid, (s.stepCpu w pid cpu).2⟩) :
    Followed keeps x pid calls (s.stepCpu w pid cpu).2 ∧
      ((s.stepCpu w pid cpu).1 = false → Idle pid (s.stepCpu w pid cpu).2) := by
  have howned : cpu.currentPid = pid := s.cpus.owned pid cpu hget
  have hserved : cpu.syscallPending = false := hidle cpu hget
  obtain ⟨map, hmap⟩ := htables
  -- the memory service works in the background, and the CPU makes its step
  have hbefore : Runs keeps x (calls ++ callOf cpu) (cpu, (s.background w).mmu.space pid) :=
    (h.now cpu hget).kernel (StandsBy.refl cpu).resumed (hok.background ⟨cpuId, rfl⟩)
  rw [callOf_eq_nil hserved, List.append_nil] at hbefore
  obtain ⟨-, hcpu, hspace⟩ := VirtualCPU.step_refines_stepIn hmap (by decide) cpu
  rw [howned] at hcpu hspace
  have hstepped := hbefore.step hserved
  rw [← hcpu, ← hspace] at hstepped
  obtain ⟨cpu', hget', hwaits, hkernel, hmmu, herror⟩ := stepCpu_stored w hget
  refine ⟨⟨?_, h.made, ?_⟩, ?_⟩
  · rw [hkernel]
    exact h.known
  · intro cpu'' hget''
    rw [hget'] at hget''
    cases hget''
    rw [hwaits.callOf_eq, hmmu]
    exact hstepped.kernel hwaits.resumed (hrefl _)
  · intro hstop cpu'' hget''
    rw [hget'] at hget''
    cases hget''
    obtain ⟨e, hresult⟩ := herror hstop
    rw [hwaits.pending_eq, VirtualCPU.step_error_pending hresult]
    exact hserved

/-- A system call of the process is the one that its run asks for. -/
theorem Followed.called (h : Followed keeps x pid calls s) {cpu : VirtualCPU}
    (hget : s.cpus.get pid = some cpu) (hpending : cpu.syscallPending = true)
    (hexec : ∀ calls y, Runs keeps x calls y → SystemCall.exec ∉ calls) {cpuId : Fin 2}
    {call : SystemCall} (hcall : callOf cpu = [call]) (hperformed : Performed w s (.syscall cpuId pid call) s')
    (hok : Undisturbed w keeps pid ⟨s, .syscall cpuId pid call, s'⟩) :
    Followed keeps x pid (calls ++ [call]) s' ∧ Idle pid s' := by
  have hmade := h.now cpu hget
  rw [hcall] at hmade
  have hnoexec : call ≠ .exec := by
    rintro rfl
    exact hexec _ _ hmade (List.mem_append_right _ List.mem_cons_self)
  -- the call takes the flag back, and moves neither the counter nor the flags of the CPU
  let R : VirtualCPU → VirtualCPU → Prop := fun c c' =>
    c'.pc = c.pc ∧ c'.flags = c.flags ∧ c'.syscallPending = c.syscallPending
  have hR : ∀ c, R c c := fun c => ⟨rfl, rfl, rfl⟩
  have hnoted : (s.updateCpu pid fun cpu => { cpu with syscallPending := false }).cpus.get pid =
      some { cpu with syscallPending := false } := by
    show (s.cpus.update pid _).get pid = _
    rw [CpuTable.get_update _ _ _ (by intro cpu; rfl), if_pos rfl, hget]
    rfl
  have hserved : ∀ cpu', s'.cpus.get pid = some cpu' →
      cpu'.pc = cpu.pc ∧ cpu'.flags = cpu.flags ∧ cpu'.syscallPending = false := by
    intro cpu' hget'
    cases hperformed with
    | syscall _ hhandled =>
      obtain ⟨cpu₀, hget₀, hrel⟩ := handleFileSyscall_carries (R := R) hR (fun _ _ _ _ _ hc => hc)
        (fun _ _ _ hc => hc) hhandled (fun heq => absurd heq hnoexec) h.known
        (show (Act.syscall cpuId pid call).spares w pid _ from hok.spared) cpu' hget'
      rw [hnoted] at hget₀
      cases hget₀
      exact hrel
    | panic _ hhandled =>
      obtain ⟨cpu₀, hget₀, hrel⟩ := (CpuTable.Carries.of_eq hR rfl).update pid (f := VirtualCPU.halt)
        (fun _ => rfl) (fun _ _ _ hc => hc) cpu' hget'
      rw [hnoted] at hget₀
      cases hget₀
      exact hrel
  have hidle : Idle pid s' := fun cpu' hget' => (hserved cpu' hget').2.2
  refine ⟨⟨Nat.lt_of_lt_of_le h.known hperformed.step_of.table.enrols.nextPid_le, ⟨_, hmade⟩, ?_⟩, hidle⟩
  intro cpu' hget'
  obtain ⟨hpc, hflags, hnone⟩ := hserved cpu' hget'
  rw [callOf_eq_nil hnone, List.append_nil]
  refine hmade.kernel ⟨hpc, hflags, ?_, fun _ => hpending⟩ (hok.memory fun cpuId heq => by cases heq)
  intro hidle
  rw [hpending] at hidle
  cases hidle

end followed

/-! ## Slices -/

section slices

variable (w : World) (keeps : Space → Space → Prop) (x : VirtualCPU × Space) (pid : Pid)
  (memory : MemoryService)

/-- Pieces of a run in which a process is not disturbed, with the calls that it makes. -/
abbrev FollowSegment (P : List SystemCall → Prop) (trace : List Tr) (Q : List SystemCall → Prop) : Prop :=
  Segment (fun calls t => calls ++ callMade pid t) (fun _ t => Undisturbed w keeps pid t)
    (fun _ _ => True) P trace Q

/-- The process is followed in a state of a run. -/
structure Inside (calls : List SystemCall) (s : Machine) : Prop where
  followed : Followed keeps x pid calls s
  comes : s.ComesFrom memory

/-- The same when no call of it is pending. -/
structure Between (calls : List SystemCall) (s : Machine) : Prop extends
    Inside keeps x pid memory calls s where
  idle : Idle pid s

variable {w keeps x pid memory}

theorem callMade_of_other {t : Tr} (h : t.act.isOwn pid = false) : callMade pid t = [] := by
  obtain ⟨pre, act, post⟩ := t
  cases act with
  | syscall cpuId q call => exact if_neg (of_decide_eq_false h)
  | _ => rfl

theorem Between.other {calls : List SystemCall} {t : Tr} (h : Between keeps x pid memory calls t.pre)
    (hperformed : Performed w t.pre t.act t.post) (hother : t.act.isOwn pid = false)
    (hok : Undisturbed w keeps pid t) :
    Between keeps x pid memory (calls ++ callMade pid t) t.post := by
  obtain ⟨hfollowed, hcarried⟩ := h.followed.other hperformed hother hok
  rw [callMade_of_other hother, List.append_nil]
  exact ⟨⟨hfollowed, Touched.trans h.comes hperformed.touches⟩, h.idle.carried hcarried⟩

theorem followSegment_other {s s' : Machine} {act : Act} (hperformed : Performed w s act s')
    (hother : act.isOwn pid = false) :
    FollowSegment w keeps pid (Between keeps x pid memory · s) [⟨s, act, s'⟩]
      (Between keeps x pid memory · s') :=
  Segment.single fun _ h hok => ⟨h.other (t := ⟨s, act, s'⟩) hperformed hother hok, trivial⟩

variable {size : UInt64} {swapImage : Nat → UInt8} (hrefl : ∀ space, keeps space space)
  (hexec : ∀ calls y, Runs keeps x calls y → SystemCall.exec ∉ calls)

include hrefl in
theorem followSegment_step {s : Machine} (cpuId : Fin 2) {q : Pid} {cpu : VirtualCPU}
    (hget : s.cpus.get q = some cpu) (hrun : cpu.halted = false) :
    FollowSegment w keeps pid (Between keeps x pid (bootMemory size swapImage) · s)
      [⟨s, .step cpuId q, (s.stepCpu w q cpu).2⟩] fun calls =>
        Inside keeps x pid (bootMemory size swapImage) calls (s.stepCpu w q cpu).2 ∧
          (q ≠ pid ∨ (s.stepCpu w q cpu).1 = false → Idle pid (s.stepCpu w q cpu).2) := by
  have hperformed : Performed w s (.step cpuId q) (s.stepCpu w q cpu).2 := .step cpuId hget hrun
  apply Segment.single
  intro calls h hok
  refine ⟨?_, trivial⟩
  by_cases hq : q = pid
  · subst hq
    have hcomes : Touched (bootMemory size swapImage) (s.background w).memory :=
      Touched.trans h.comes (Works.background s).touches
    obtain ⟨hfollowed, hidle⟩ := h.followed.step h.idle hget hrefl hcomes.regular.refines hok
    have hnone : callMade q ⟨s, Act.step cpuId q, (s.stepCpu w q cpu).2⟩ = [] := rfl
    rw [hnone, List.append_nil]
    exact ⟨⟨hfollowed, Touched.trans h.comes hperformed.touches⟩,
      fun hstop => hidle (hstop.resolve_left fun hne => hne rfl)⟩
  · have hother : (Act.step cpuId q).isOwn pid = false := decide_eq_false hq
    have hnext := h.other (t := ⟨s, .step cpuId q, _⟩) hperformed hother hok
    exact ⟨hnext.toInside, fun _ => hnext.idle⟩

include hexec in
theorem followSegment_syscall {s : Machine} (cpuId : Fin 2) {q : Pid} :
    FollowSegment w keeps pid
      (fun calls => Inside keeps x pid memory calls s ∧ (q ≠ pid → Idle pid s))
      (runSyscall w cpuId q s).2 (Between keeps x pid memory · (runSyscall w cpuId q s).1) := by
  have hnone : (∀ cpu, s.cpus.get q = some cpu → cpu.syscallPending = false) →
      FollowSegment w keeps pid
        (fun calls => Inside keeps x pid memory calls s ∧ (q ≠ pid → Idle pid s)) []
        (Between keeps x pid memory · s) := by
    intro hserved
    apply Segment.nil
    rintro calls ⟨hinside, hidle⟩
    refine ⟨hinside, ?_⟩
    by_cases hq : q = pid
    · subst hq
      exact hserved
    · exact hidle hq
  simp only [runSyscall]
  split
  · next hget => exact hnone fun cpu hcpu => by rw [hget] at hcpu; cases hcpu
  next cpu hget =>
  split
  · next hserved =>
    refine hnone fun cpu' hcpu' => ?_
    rw [hget] at hcpu'
    cases hcpu'
    exact hserved
  next hpending =>
  -- a call is made, by the process or by another one
  have hcalled : ∀ s', Performed w s (.syscall cpuId q
        (SystemCall.decode (cpu.syscallRegs .r0) (cpu.syscallRegs .r1) (cpu.syscallRegs .r2))) s' →
      FollowSegment w keeps pid
        (fun calls => Inside keeps x pid memory calls s ∧ (q ≠ pid → Idle pid s))
        [⟨s, .syscall cpuId q (SystemCall.decode (cpu.syscallRegs .r0) (cpu.syscallRegs .r1)
          (cpu.syscallRegs .r2)), s'⟩] (Between keeps x pid memory · s') := by
    intro s' hperformed
    apply Segment.single
    rintro calls ⟨hinside, hidle⟩ hok
    refine ⟨?_, trivial⟩
    by_cases hq : q = pid
    · subst hq
      replace hpending : cpu.syscallPending = true := by simpa using hpending
      have hcall : callOf cpu = [SystemCall.decode (cpu.syscallRegs .r0) (cpu.syscallRegs .r1)
          (cpu.syscallRegs .r2)] := by
        rw [callOf, if_pos hpending]
      obtain ⟨hfollowed, hserved⟩ :=
        hinside.followed.called hget hpending hexec hcall hperformed hok
      rw [callMade]
      simp only [if_true]
      exact ⟨⟨hfollowed, Touched.trans hinside.comes hperformed.touches⟩, hserved⟩
    · have hbetween : Between keeps x pid memory calls s := ⟨hinside, hidle hq⟩
      exact hbetween.other (t := ⟨s, _, s'⟩) hperformed (decide_eq_false hq) hok
  split
  · next s' hhandled => exact hcalled s' (.syscall cpuId hhandled)
  · next hpanic => exact hcalled _ (.panic cpuId hpanic)

theorem followSegment_fault {s : Machine} (cpuId : Fin 2) (q : Pid) :
    FollowSegment w keeps pid (Between keeps x pid memory · s) (forwardFault w cpuId q s).2
      (Between keeps x pid memory · (forwardFault w cpuId q s).1) := by
  simp only [forwardFault]
  split
  · exact Segment.nil fun _ h => h
  next cpu hget =>
  split
  · exact Segment.nil fun _ h => h
  · next hpending =>
    refine followSegment_other (.pageFault cpuId hget ?_) rfl
    simpa using hpending

include hrefl hexec in
theorem followSegment_execute (cpuId : Fin 2) (q : Pid) (n : Nat) (s : Machine) :
    FollowSegment w keeps pid (Between keeps x pid (bootMemory size swapImage) · s)
      (execute w cpuId q n s).2
      (Between keeps x pid (bootMemory size swapImage) · (execute w cpuId q n s).1) := by
  induction n generalizing s with
  | zero => exact Segment.nil fun _ h => h
  | succ n ih =>
    simp only [execute]
    split
    · exact Segment.nil fun _ h => h
    next cpu hget =>
    split
    · exact Segment.nil fun _ h => h
    next hrun =>
    replace hrun : cpu.halted = false := by simpa using hrun
    have hstep : FollowSegment w keeps pid (Between keeps x pid (bootMemory size swapImage) · s)
        [⟨s, .step cpuId q, (s.stepCpu w q cpu).2⟩] fun calls =>
          Inside keeps x pid (bootMemory size swapImage) calls (s.stepCpu w q cpu).2 ∧
            (q ≠ pid ∨ (s.stepCpu w q cpu).1 = false → Idle pid (s.stepCpu w q cpu).2) :=
      followSegment_step hrefl cpuId hget hrun
    split
    · next hstop => exact hstep.mono (fun _ h => h) fun _ h => ⟨h.1, h.2 (Or.inr hstop)⟩
    have hcalled := (hstep.mono (fun _ h => h) fun _ h => ⟨h.1, fun hne => h.2 (Or.inl hne)⟩).append
      (followSegment_syscall hexec cpuId)
    split
    · exact hcalled
    · exact (hcalled.append (followSegment_fault cpuId q)).append (ih _)

include hrefl hexec in
theorem followSegment_turn (cpuId : Fin 2) (scheduledThisTick : List Pid) (s : Machine) :
    FollowSegment w keeps pid (Between keeps x pid (bootMemory size swapImage) · s)
      (turn w cpuId scheduledThisTick s).2.1
      (Between keeps x pid (bootMemory size swapImage) · (turn w cpuId scheduledThisTick s).1) := by
  have hdispatch : FollowSegment w keeps pid (Between keeps x pid (bootMemory size swapImage) · s)
      [⟨s, Act.dispatch cpuId, (s.dispatch cpuId scheduledThisTick).2⟩]
      (Between keeps x pid (bootMemory size swapImage) · (s.dispatch cpuId scheduledThisTick).2) :=
    followSegment_other (.dispatch cpuId scheduledThisTick) rfl
  have hreap : ∀ s, FollowSegment w keeps pid (Between keeps x pid (bootMemory size swapImage) · s)
      [⟨s, Act.reap cpuId, s.reap w⟩]
      (Between keeps x pid (bootMemory size swapImage) · (s.reap w)) :=
    fun s => followSegment_other (.reap cpuId) rfl
  simp only [turn]
  split
  · next q _ _ =>
    have hexecute := hdispatch.append (followSegment_execute hrefl hexec cpuId q 3 _)
    have hsettle : ∀ s, FollowSegment w keeps pid (Between keeps x pid (bootMemory size swapImage) · s)
        [⟨s, Act.settle cpuId q, s.settle q⟩]
        (Between keeps x pid (bootMemory size swapImage) · (s.settle q)) :=
      fun s => followSegment_other (.settle cpuId q) rfl
    exact hexecute.append ((hsettle _).append (hreap _))
  · exact hdispatch.append (hreap _)

include hrefl hexec in
/-- Whatever happens to the service, an undisturbed process goes on with the run of its program. -/
theorem followed_events (s : Machine) (events : List Event) :
    FollowSegment w keeps pid (Between keeps x pid (bootMemory size swapImage) · s)
      (runTrace (handleEvent w) s events).2
      (Between keeps x pid (bootMemory size swapImage) · (runTrace (handleEvent w) s events).1) := by
  apply runTrace_segment
  intro s event
  refine (handleEvent_rounds w s event).segment ?_ (followSegment_turn hrefl hexec)
  intro t hperformed hservice calls h hok
  have hother : t.act.isOwn pid = false := by
    obtain ⟨pre, act, post⟩ := t
    cases act with
    | step cpuId q => cases hservice
    | syscall cpuId q call => cases hservice
    | _ => rfl
  exact ⟨h.other hperformed hother hok, trivial⟩

end slices

theorem history_callMade (pid : Pid) (calls : List SystemCall) (trace : List Tr) :
    history (fun calls t => calls ++ callMade pid t) calls trace = calls ++ callsOf pid trace := by
  induction trace generalizing calls with
  | nil => simp [callsOf]
  | cons t trace ih =>
    rw [history_cons, ih, List.append_assoc]
    rfl

/-- Between events no system call is pending, and the CPUs belong to numbers that were handed out. -/
theorem run_fits (w : World) (memory : MemoryService) (events : List Event) :
    (run w memory events).1.cpus.Fits (run w memory events).1.nextPid none := by
  have hrounds : ∀ {s s' : Machine} {trace : List Tr}, Rounds w s trace s' →
      s.cpus.Fits s.nextPid none → s'.cpus.Fits s'.nextPid none := by
    intro s s' trace h
    induction h with
    | served h =>
      intro hfits
      exact (h.chain.invariant (I := fun s => s.cpus.Fits s.nextPid none) hfits fun t ht =>
        (h.performed t ht).fits (h.service t ht)).1
    | turn cpuId scheduledThisTick s => exact fun hfits => turn_fits hfits cpuId scheduledThisTick
    | append _ _ ih ih' => exact fun hfits => ih' (ih hfits)
  exact hrounds (run_rounds w memory events) (haltsKept_boot w memory).fits

theorem idle_of_fits {s : Machine} {n pid : Pid} (h : s.cpus.Fits n none) : Idle pid s := by
  intro cpu hget
  rw [← Bool.not_eq_true]
  intro hset
  cases (h pid cpu hget).2 hset

/-- From a state between events on, the calls of an undisturbed process are those of a run of its program,
and its CPU is where that run has got to. -/
theorem followed_from (w : World) {keeps : Space → Space → Prop} (hrefl : ∀ space, keeps space space)
    {size : UInt64} {swapImage : Nat → UInt8} {s : Machine}
    (hcomes : s.ComesFrom (bootMemory size swapImage)) (hfits : s.cpus.Fits s.nextPid none) {pid : Pid}
    {cpu : VirtualCPU} (hget : s.cpus.get pid = some cpu)
    (hexec : ∀ calls y, Runs keeps (cpu, s.mmu.space pid) calls y → SystemCall.exec ∉ calls)
    (events : List Event)
    (hok : ∀ t ∈ (runTrace (handleEvent w) s events).2, Undisturbed w keeps pid t) :
    (∃ y, Runs keeps (cpu, s.mmu.space pid) (callsOf pid (runTrace (handleEvent w) s events).2) y) ∧
      ∀ cpu', (runTrace (handleEvent w) s events).1.cpus.get pid = some cpu' →
        Runs keeps (cpu, s.mmu.space pid) (callsOf pid (runTrace (handleEvent w) s events).2)
          (cpu', (runTrace (handleEvent w) s events).1.mmu.space pid) := by
  have hidle : Idle pid s := idle_of_fits hfits
  have hstart : Between keeps (cpu, s.mmu.space pid) pid (bootMemory size swapImage) [] s := by
    refine ⟨⟨⟨(hfits pid cpu hget).1, ⟨_, .start⟩, ?_⟩, hcomes⟩, hidle⟩
    intro cpu' hget'
    rw [callOf_eq_nil (hidle cpu' hget')]
    rw [hget] at hget'
    cases hget'
    exact .start
  have hend := (followed_events hrefl hexec s events [] hstart (along_const.2 hok)).1
  rw [history_callMade, List.nil_append] at hend
  refine ⟨hend.followed.made, fun cpu' hget' => ?_⟩
  have hnow := hend.followed.now cpu' hget'
  rwa [callOf_eq_nil (hend.idle cpu' hget'), List.append_nil] at hnow

/-! ## Programs in memory -/

/-- What can be read of a program at the beginning of the memory is right. -/
def Intact (program : List Instruction) (s : Space) : Prop :=
  ∀ k i, program[k]? = some i → CodeOrFault s (address k) i

/-- The program stays as it is. -/
def KeepsIntact (program : List Instruction) (s s' : Space) : Prop := Intact program s → Intact program s'

/-- The first bytes of the memory of a process are those of a program, as far as they can be read. -/
def showsCode (program : List Instruction) (pid : Pid) (m : MMU) : Bool :=
  (program.flatMap encoded).zipIdx.all fun (b, j) =>
    match m.readU8 pid (UInt64.ofNat j) with
    | .ok b' => b' == b
    | .error _ => true

theorem intact_of_showsCode {program : List Instruction} {pid : Pid} {m : MMU}
    (h : showsCode program pid m = true) : Intact program (m.space pid) := by
  intro k i hi j b hb
  have hj : j < 8 := by
    rw [← length_encoded i]
    exact (List.getElem?_eq_some_iff.1 hb).1
  have hmem : (b, 8 * k + j) ∈ (program.flatMap encoded).zipIdx := by
    rw [List.mem_zipIdx_iff_getElem?, getElem?_flatMap_encoded hi hj]
    exact hb
  have hbyte := List.all_eq_true.1 h _ hmem
  have hplace : address k + UInt64.ofNat j = UInt64.ofNat (8 * k + j) := by
    rw [address, ← UInt64.ofNat_add]
  rw [hplace]
  cases hread : m.readU8 pid (UInt64.ofNat (8 * k + j)) with
  | error e => exact Or.inl ((m.space_read_eq_none pid _).2 ⟨e, hread⟩)
  | ok b' =>
    simp only [hread] at hbyte
    rw [beq_iff_eq.1 hbyte] at hread
    exact Or.inr ((m.space_read_eq_some pid _ b).2 hread)

end GenshinOs.Process
