import GenshinOs.Lib.Interleave
import GenshinOs.Hardware.Space

/-!
# Isolation

Processes that share a CPU and a memory do not see each other as long as their frames are apart: a step
of one leaves the space of every other as it is. With the refinement of `Hardware.Space` this makes
time sharing transparent: in every interleaving each process computes what it would compute alone.
-/

set_option autoImplicit false

namespace GenshinOs.Hardware

open GenshinOs.Lib

namespace MMU

/-- No frame holds present pages of both processes. -/
def Apart (m : MMU) (p q : Pid) : Prop :=
  ∀ page page' entry entry', m.mapped p page = some entry → m.mapped q page' = some entry' →
    entry.flags.present = true → entry'.flags.present = true → entry.frame ≠ entry'.frame

variable {ps : PageSize} {m : MMU} {map : PageMap}

/-- Frames that are apart have no address in common. -/
theorem Apart.translate_ne {p q : Pid} (hapart : m.Apart p q) (h : Refines ps m map)
    {a b : VirtAddr} {access access' : AccessType} {paddr : PhysAddr}
    (hp : m.translate p a access = .ok paddr) : m.translate q b access' ≠ .ok paddr := by
  intro hq
  have hframe : ∀ {pid : Pid} {v : VirtAddr} {acc : AccessType},
      m.translate pid v acc = .ok paddr → ∃ entry, m.mapped pid (ps.alignDown v) = some entry ∧
        entry.flags.present = true ∧ entry.frame = ps.alignDown paddr := by
    intro pid v acc htrans
    obtain ⟨faddr, flags, hmap, hallows, hsum⟩ := (h.translate_eq_ok_iff pid v acc paddr).1 htrans
    refine ⟨⟨ps.alignDown faddr, flags⟩, by rw [h.mapped_eq, hmap]; rfl, hallows.1, ?_⟩
    -- the frame is where the page of the physical address begins
    have hmod := ps.alignDown_mod faddr
    have hlt := Nat.mod_lt v.toNat (Nat.two_pow_pos ps.shift)
    apply UInt64.toNat_inj.1
    change (ps.alignDown faddr).toNat = _
    rw [ps.bytes_eq] at hsum
    rw [ps.toNat_alignDown paddr, hsum, Nat.add_mod, hmod, Nat.zero_add, Nat.mod_mod,
      Nat.mod_eq_of_lt hlt, Nat.add_sub_cancel]
  obtain ⟨entry, hentry, hpresent, hplace⟩ := hframe hp
  obtain ⟨entry', hentry', hpresent', hplace'⟩ := hframe hq
  exact hapart _ _ _ _ hentry hentry' hpresent hpresent' (hplace.trans hplace'.symm)

/-- The tables decide what is apart. -/
theorem Apart.congr {m' : MMU} {p q : Pid} (hapart : m.Apart p q)
    (htables : m'.pageTables = m.pageTables) : m'.Apart p q := by
  have hmapped : ∀ pid page, m'.mapped pid page = m.mapped pid page := by
    intro pid page
    rw [mapped, mapped, htables]
  intro page page' entry entry' hentry hentry'
  rw [hmapped] at hentry hentry'
  exact hapart page page' entry entry' hentry hentry'

theorem Refines.congr {m' : MMU} (h : Refines ps m map) (htables : m'.pageTables = m.pageTables)
    (hsize : m'.pageSize = m.pageSize) : Refines ps m' map := by
  refine ⟨hsize.trans h.pageSize_eq, fun pid vaddr => ?_⟩
  rw [mapped, htables]
  exact h.mapped_eq pid vaddr

end MMU

namespace VirtualCPU

/-- An instruction stores at most one byte, at an address that its process may write. -/
theorem executeInstruction_memory (cpu : VirtualCPU) (m : MMU) (instr : Instruction) :
    (executeInstruction cpu m instr).mmu = m ∨
      ∃ addr value paddr, m.translate cpu.currentPid addr .write = .ok paddr ∧
        m.memory.InBounds paddr.toNat 1 ∧
        (executeInstruction cpu m instr).mmu =
          { m with memory := m.memory.store paddr.toNat value } := by
  cases instr with
  | store src addr =>
    simp only [executeInstruction]
    cases hwrite : m.writeU8 cpu.currentPid (cpu.readOperand addr) (cpu.readRegister src).toUInt8 with
    | error e => exact Or.inl rfl
    | ok m' =>
      obtain ⟨paddr, htrans, hbounds, rfl⟩ := MMU.writeU8_eq_ok hwrite
      exact Or.inr ⟨_, _, paddr, htrans, hbounds, rfl⟩
  | div dst src =>
    simp only [executeInstruction]
    split
    · exact Or.inl rfl
    · exact Or.inl rfl
  | load dst addr =>
    simp only [executeInstruction]
    split
    · exact Or.inl rfl
    · exact Or.inl rfl
  | mov dst src => exact Or.inl rfl
  | add dst src => exact Or.inl rfl
  | sub dst src => exact Or.inl rfl
  | mul dst src => exact Or.inl rfl
  | jmp addr => exact Or.inl rfl
  | cmp dst src => exact Or.inl rfl
  | jz addr => exact Or.inl rfl
  | jnz addr => exact Or.inl rfl
  | int vector => exact Or.inl rfl
  | halt => exact Or.inl rfl

theorem step_memory (cpu : VirtualCPU) (m : MMU) : (cpu.step m).mmu = m ∨
    ∃ addr value paddr, m.translate cpu.currentPid addr .write = .ok paddr ∧
      m.memory.InBounds paddr.toNat 1 ∧
      (cpu.step m).mmu = { m with memory := m.memory.store paddr.toNat value } := by
  obtain ⟨pc, hpc⟩ := fetchInstruction_cpu m cpu
  rw [step]
  split
  · exact Or.inl rfl
  split
  · exact Or.inl rfl
  split
  · exact Or.inl rfl
  · exact Or.inl rfl
  · next instr cpu' hfetch =>
    rw [hfetch] at hpc
    replace hpc : cpu' = cpu.setPc pc := hpc
    have hstored := executeInstruction_memory cpu' m instr
    rw [show cpu'.currentPid = cpu.currentPid by rw [hpc]; rfl] at hstored
    split
    · next hexec =>
      rw [hexec] at hstored
      exact hstored
    · next hexec =>
      rw [hexec] at hstored
      exact hstored
    · next hexec =>
      rw [hexec] at hstored
      exact hstored

/-- A step does not change what other processes see. -/
theorem step_space_of_apart {ps : PageSize} {m : MMU} {map : PageMap} (h : MMU.Refines ps m map)
    (cpu : VirtualCPU) {q : Pid} (hapart : m.Apart cpu.currentPid q) :
    (cpu.step m).mmu.space q = m.space q := by
  rcases step_memory cpu m with hsame | ⟨addr, value, paddr, htrans, hbounds, hstore⟩
  · rw [hsame]
  · rw [hstore, m.space_store q paddr value hbounds]
    refine Space.ext ?_ rfl rfl
    funext a
    exact if_neg (hapart.translate_ne h htrans)

/-! ## Runs -/

/-- A step as a turn on the MMU. -/
def turnOn (cpu : VirtualCPU) (m : MMU) : Except CPUError Unit × VirtualCPU × MMU :=
  ((cpu.step m).result, (cpu.step m).cpu, (cpu.step m).mmu)

/-- A step as a turn in an address space. -/
def turnIn (cpu : VirtualCPU) (s : Space) : Except CPUError Unit × VirtualCPU × Space :=
  ((cpu.stepIn s).result, (cpu.stepIn s).cpu, (cpu.stepIn s).space)

/-- Some steps on the MMU, with their results. -/
def steps (n : Nat) (cpu : VirtualCPU) (m : MMU) : List (Except CPUError Unit) × VirtualCPU × MMU :=
  alone turnOn n cpu m

/-- The CPU works for another process. -/
def assign (cpu : VirtualCPU) (pid : Pid) : VirtualCPU := { cpu with currentPid := pid }

/-- The CPUs have the given processes, whose frames are apart. -/
structure Separated {ι : Type*} (ps : PageSize) (map : PageMap) (pid : ι → Pid)
    (cpus : ι → VirtualCPU) (m : MMU) : Prop where
  pid_eq : ∀ i, (cpus i).currentPid = pid i
  refines : MMU.Refines ps m map
  apart : ∀ i j, i ≠ j → m.Apart (pid i) (pid j)

/-- CPUs with separated processes take private turns. -/
theorem private_turns {ι : Type*} [DecidableEq ι] {ps : PageSize} (hps : 4 ≤ ps.bytes.toNat)
    (map : PageMap) (pid : ι → Pid) :
    Private (fun _ : ι => turnOn) turnIn (fun i m => MMU.space m (pid i))
      (Separated ps map pid) where
  keeps := by
    intro cpus m hsep i
    have hcontained := step_contained (cpus i) m
    refine ⟨fun j => ?_, hsep.refines.congr hcontained.tables_eq hcontained.pageSize_eq,
      fun j k hne => (hsep.apart j k hne).congr hcontained.tables_eq⟩
    rcases eq_or_ne j i with rfl | hne
    · rw [Function.update_self]
      exact hcontained.pid_eq.trans (hsep.pid_eq j)
    · rw [Function.update_of_ne hne]
      exact hsep.pid_eq j
  own := by
    intro cpus m hsep i
    obtain ⟨hresult, hcpu, hspace⟩ := step_refines_stepIn hsep.refines hps (cpus i)
    rw [hsep.pid_eq i] at hresult hcpu hspace
    simp only [turnIn, turnOn, hresult, hcpu, hspace]
  frame := by
    intro cpus m hsep i j hne
    apply step_space_of_apart hsep.refines
    rw [hsep.pid_eq i]
    exact hsep.apart i j hne.symm

/-- A run on the MMU is a run in the space of the process. -/
theorem steps_refines {ps : PageSize} {m : MMU} {map : PageMap} (h : MMU.Refines ps m map)
    (hps : 4 ≤ ps.bytes.toNat) (n : Nat) (cpu : VirtualCPU) :
    alone turnIn n cpu (m.space cpu.currentPid) =
      ((steps n cpu m).1, (steps n cpu m).2.1, (steps n cpu m).2.2.space cpu.currentPid) := by
  refine alone_image (fun c m' => c.currentPid = cpu.currentPid ∧ MMU.Refines ps m' map) id
    (fun m' => m'.space cpu.currentPid) ?_ ?_ n ⟨rfl, h⟩
  · rintro c m' ⟨hpid, hrefines⟩
    have hcontained := step_contained c m'
    exact ⟨hcontained.pid_eq.trans hpid, hrefines.congr hcontained.tables_eq hcontained.pageSize_eq⟩
  · rintro c m' ⟨hpid, hrefines⟩
    obtain ⟨hresult, hcpu, hspace⟩ := step_refines_stepIn hrefines hps c
    rw [hpid] at hresult hcpu hspace
    simp only [turnIn, turnOn, id, hresult, hcpu, hspace]

/-! ## The number of a process does not matter -/

theorem executeIn_assign (cpu : VirtualCPU) (s : Space) (instr : Instruction) (pid : Pid) :
    (cpu.assign pid).executeIn s instr =
      (cpu.executeIn s instr).map fun out => ⟨out.result, out.cpu.assign pid, out.space⟩ := by
  have hread : ∀ o, (cpu.assign pid).readOperand o = cpu.readOperand o := by
    intro o
    cases o <;> rfl
  have harith : ∀ dst src op, (cpu.assign pid).arith dst src op = (cpu.arith dst src op).assign pid := by
    intro dst src op
    simp only [arith, hread]
    rfl
  have hflags : (cpu.assign pid).flags = cpu.flags := rfl
  cases instr with
  | load dst addr =>
    simp only [executeIn, hread]
    cases s.read (cpu.readOperand addr) <;> rfl
  | store src addr =>
    simp only [executeIn, hread]
    rw [show (cpu.assign pid).readRegister src = cpu.readRegister src from rfl]
    cases s.write (cpu.readOperand addr) (cpu.readRegister src).toUInt8 <;> rfl
  | div dst src =>
    simp only [executeIn, hread, harith]
    split
    · rfl
    · rfl
  | mov dst src =>
    simp only [executeIn, hread]
    rfl
  | add dst src =>
    simp only [executeIn, harith]
    rfl
  | sub dst src =>
    simp only [executeIn, harith]
    rfl
  | mul dst src =>
    simp only [executeIn, harith]
    rfl
  | cmp dst src =>
    simp only [executeIn, hread]
    rfl
  | jz addr =>
    simp only [executeIn, hflags]
    cases cpu.flags.zero <;> rfl
  | jnz addr =>
    simp only [executeIn, hflags]
    cases cpu.flags.zero <;> rfl
  | int vector =>
    simp only [executeIn, handleSoftwareInterrupt]
    split
    · rfl
    · rfl
  | jmp addr => rfl
  | halt => rfl

theorem runIn_assign (cpu : VirtualCPU) (s : Space) (instr : Instruction) (pid : Pid) :
    (cpu.assign pid).runIn s instr =
      ⟨(cpu.runIn s instr).result, (cpu.runIn s instr).cpu.assign pid, (cpu.runIn s instr).space⟩ := by
  have hmoved : (cpu.assign pid).setPc ((cpu.assign pid).pc + 8) =
      (cpu.setPc (cpu.pc + 8)).assign pid := rfl
  simp only [runIn, hmoved, executeIn_assign]
  cases (cpu.setPc (cpu.pc + 8)).executeIn s instr with
  | none => rfl
  | some out =>
    obtain ⟨result, cpu', s'⟩ := out
    cases result <;> rfl

theorem stepIn_assign (cpu : VirtualCPU) (s : Space) (pid : Pid) :
    (cpu.assign pid).stepIn s =
      ⟨(cpu.stepIn s).result, (cpu.stepIn s).cpu.assign pid, (cpu.stepIn s).space⟩ := by
  simp only [stepIn, runIn_assign, show (cpu.assign pid).halted = cpu.halted from rfl,
    show (cpu.assign pid).pagefaultPending = cpu.pagefaultPending from rfl,
    show (cpu.assign pid).pc = cpu.pc from rfl]
  cases cpu.halted with
  | true => rfl
  | false =>
    cases cpu.pagefaultPending with
    | true => rfl
    | false =>
      cases s.encodedAt cpu.pc with
      | none => rfl
      | some encoded =>
        simp only [Bool.false_eq_true, if_false]
        cases decode encoded (cpu.pc + 8) <;> rfl

/-- A process computes the same wherever its pages are and whatever its number is: two CPUs that are
alike, in spaces that are alike, give the same results step by step and stay alike. -/
theorem placement_irrelevant (memory memory' : PhysicalMemory) (ps ps' : PageSize)
    (hps : 4 ≤ ps.bytes.toNat) (hps' : 4 ≤ ps'.bytes.toNat) (ops ops' : List TableOp)
    (cpu : VirtualCPU) (pid : Pid)
    (hspace : (MMU.after memory' ps' ops').space pid = (MMU.after memory ps ops).space cpu.currentPid)
    (n : Nat) :
    (steps n (cpu.assign pid) (MMU.after memory' ps' ops')).1 =
        (steps n cpu (MMU.after memory ps ops)).1 ∧
      (steps n (cpu.assign pid) (MMU.after memory' ps' ops')).2.1 =
        (steps n cpu (MMU.after memory ps ops)).2.1.assign pid ∧
      (steps n (cpu.assign pid) (MMU.after memory' ps' ops')).2.2.space pid =
        (steps n cpu (MMU.after memory ps ops)).2.2.space cpu.currentPid := by
  have hhere := steps_refines (MMU.after_refines memory ps ops) hps n cpu
  have hthere := steps_refines (MMU.after_refines memory' ps' ops') hps' n (cpu.assign pid)
  have hturn : ∀ (c : VirtualCPU) (s : Space), True → turnIn (c.assign pid) (id s) =
      ((turnIn c s).1, (turnIn c s).2.1.assign pid, id (turnIn c s).2.2) := by
    intro c s _
    simp only [turnIn, id, stepIn_assign]
  have hrenamed := alone_image (fun _ _ => True) (fun c => c.assign pid) id (fun _ _ _ => trivial) hturn n
    (l := cpu) (s := (MMU.after memory ps ops).space cpu.currentPid) trivial
  rw [show (cpu.assign pid).currentPid = pid from rfl, hspace] at hthere
  have heq := hthere.symm.trans hrenamed
  rw [hhere] at heq
  simp only [id, Prod.mk.injEq] at heq
  exact heq

/-- Two processes with a page each, in frames of their own. -/
theorem two_pages_mapped (memory : PhysicalMemory) (page : VirtAddr) :
    let m := MMU.after memory PageSize.fourK
      [.mapPage 1 0 0 PageFlags.presentWritable, .mapPage 2 0 0x1000 PageFlags.presentWritable]
    m.mapped 1 page = (if page = 0 then some ⟨0, PageFlags.presentWritable⟩ else none) ∧
      m.mapped 2 page = (if page = 0 then some ⟨0x1000, PageFlags.presentWritable⟩ else none) := by
  intro m
  obtain ⟨m₁, hm₁, -, hsize₁, hmapped₁⟩ :=
    (MMU.new memory PageSize.fourK).mapPage_ok 1 0 0 PageFlags.presentWritable
  obtain ⟨m₂, hm₂, -, -, hmapped₂⟩ := m₁.mapPage_ok 2 0 0x1000 PageFlags.presentWritable
  have hm : m = m₂ := by
    simp only [m, MMU.after, List.foldl_cons, List.foldl_nil, MMU.perform, hm₁, hm₂]
  have hzero : ∀ m' : MMU, m'.pageSize = PageSize.fourK → m'.alignDown 0 = 0 ∧
      m'.alignDown 0x1000 = 0x1000 := by
    intro m' hsize
    rw [MMU.alignDown, MMU.alignDown, hsize]
    exact ⟨by decide, by decide⟩
  obtain ⟨hzero₁, hone₁⟩ := hzero m₁ hsize₁
  obtain ⟨hzero₀, -⟩ := hzero (MMU.new memory PageSize.fourK) rfl
  have hempty : ∀ pid, (MMU.new memory PageSize.fourK).mapped pid page = none := fun _ => rfl
  rw [hm]
  simp only [hmapped₂, hmapped₁, hzero₁, hone₁, hzero₀, hempty]
  exact ⟨by simp, by simp⟩

/-- Two processes with the same code in frames of their own. -/
theorem placement_irrelevant_second_frame :
    let m := MMU.after ⟨fun a => [1, 0, 1, 0, 42].getD (a % 0x1000) 0, 0x2000⟩ PageSize.fourK
      [.mapPage 1 0 0 PageFlags.presentWritable, .mapPage 2 0 0x1000 PageFlags.presentWritable]
    m.space 2 = m.space 1 ∧
      (steps 3 ((VirtualCPU.new 1).assign 2) m).2.1 = (steps 3 (VirtualCPU.new 1) m).2.1.assign 2 := by
  intro m
  have hrefines := MMU.after_refines ⟨fun a => [1, 0, 1, 0, 42].getD (a % 0x1000) 0, 0x2000⟩
    PageSize.fourK [.mapPage 1 0 0 PageFlags.presentWritable,
      .mapPage 2 0 0x1000 PageFlags.presentWritable]
  have hmapped := two_pages_mapped ⟨fun a => [1, 0, 1, 0, 42].getD (a % 0x1000) 0, 0x2000⟩
  have hfirst : ∀ addr entry, m.mapped 1 (m.alignDown addr) = some entry → entry.frame = 0 := by
    intro addr entry hentry
    rw [(hmapped _).1] at hentry
    split at hentry
    · cases hentry
      rfl
    · cases hentry
  have hspace : m.space 2 = m.space 1 := by
    refine MMU.space_relocated (fun _ => 0x1000) rfl hrefines.frame_aligned hrefines.frame_aligned ?_ ?_ ?_
    · intro addr
      rw [(hmapped _).1, (hmapped _).2]
      split
      · rfl
      · rfl
    · intro a b entry entry' hentry hentry' _
      rw [hfirst a entry hentry, hfirst b entry' hentry']
    · intro addr entry hentry i hi
      rw [hfirst addr entry hentry]
      have hsize : m.memory.size = 0x2000 := rfl
      have hlimit : i < 4096 := hi
      have hone : (0x1000 : UInt64).toNat = 4096 := rfl
      have hzero : (0 : UInt64).toNat = 0 := rfl
      refine ⟨?_, ?_⟩
      · simp only [PhysicalMemory.InBounds, hsize, hone, hzero]
        omega
      · change [1, 0, 1, 0, 42].getD ((4096 + i) % 4096) 0 = [1, 0, 1, 0, 42].getD ((0 + i) % 4096) 0
        rw [Nat.add_mod_left, Nat.zero_add]
  exact ⟨hspace, (placement_irrelevant _ _ _ _ (by decide) (by decide) _ _ (VirtualCPU.new 1) 2 hspace
    3).2.1⟩

/-- Time sharing is transparent: in any order of turns, each of some processes whose frames are apart
gets the results, the CPU and the memory that it would have with the machine for itself. -/
theorem time_sharing_transparent {ι : Type*} [DecidableEq ι] (memory : PhysicalMemory)
    (ps : PageSize) (hps : 4 ≤ ps.bytes.toNat) (ops : List TableOp) (cpus : ι → VirtualCPU)
    (hapart : ∀ i j, i ≠ j →
      (MMU.after memory ps ops).Apart (cpus i).currentPid (cpus j).currentPid)
    (order : List ι) (i : ι) :
    outputsOf i (takeTurns (fun _ => turnOn) cpus (MMU.after memory ps ops) order).1 =
        (steps (order.count i) (cpus i) (MMU.after memory ps ops)).1 ∧
      (takeTurns (fun _ => turnOn) cpus (MMU.after memory ps ops) order).2.1 i =
        (steps (order.count i) (cpus i) (MMU.after memory ps ops)).2.1 ∧
      (takeTurns (fun _ => turnOn) cpus (MMU.after memory ps ops) order).2.2.space (cpus i).currentPid =
        (steps (order.count i) (cpus i) (MMU.after memory ps ops)).2.2.space (cpus i).currentPid := by
  have hrefines := MMU.after_refines memory ps ops
  have hshared := (private_turns hps (PageMap.after ps ops) fun j => (cpus j).currentPid).projection
    order ⟨fun _ => rfl, hrefines, hapart⟩ i
  have halone := steps_refines hrefines hps (order.count i) (cpus i)
  have heq := hshared.symm.trans halone
  simp only [Prod.mk.injEq] at heq
  exact heq

/-- Two processes that take turns. -/
theorem time_sharing_transparent_two :
    let m := MMU.after ⟨fun a => [1, 0, 1, 0, 42].getD (a % 0x1000) 0, 0x2000⟩ PageSize.fourK
      [.mapPage 1 0 0 PageFlags.presentWritable, .mapPage 2 0 0x1000 PageFlags.presentWritable]
    (takeTurns (fun _ => turnOn) (fun b : Bool => VirtualCPU.new (if b then 1 else 2)) m
      [true, false, true]).2.1 true = (steps 2 (VirtualCPU.new 1) m).2.1 := by
  intro m
  have hmapped := two_pages_mapped ⟨fun a => [1, 0, 1, 0, 42].getD (a % 0x1000) 0, 0x2000⟩
  have hapart : m.Apart 1 2 ∧ m.Apart 2 1 := by
    have hframes : ∀ page page' entry entry', m.mapped 1 page = some entry →
        m.mapped 2 page' = some entry' → entry.frame = 0 ∧ entry'.frame = 0x1000 := by
      intro page page' entry entry' hentry hentry'
      rw [(hmapped page).1] at hentry
      rw [(hmapped page').2] at hentry'
      split at hentry
      · split at hentry'
        · cases hentry
          cases hentry'
          exact ⟨rfl, rfl⟩
        · cases hentry'
      · cases hentry
    constructor
    · intro page page' entry entry' hentry hentry' _ _
      obtain ⟨h₁, h₂⟩ := hframes page page' entry entry' hentry hentry'
      rw [h₁, h₂]
      decide
    · intro page page' entry entry' hentry hentry' _ _
      obtain ⟨h₁, h₂⟩ := hframes page' page entry' entry hentry' hentry
      rw [h₁, h₂]
      decide
  refine (time_sharing_transparent _ PageSize.fourK (by decide) _
    (fun b : Bool => VirtualCPU.new (if b then 1 else 2)) ?_ [true, false, true] true).2.1
  intro b b' hne
  cases b with
  | true =>
    cases b' with
    | true => exact absurd rfl hne
    | false => exact hapart.1
  | false =>
    cases b' with
    | true => exact hapart.2
    | false => exact absurd rfl hne

end VirtualCPU

end GenshinOs.Hardware
