import GenshinOs.Lib.Trace
import GenshinOs.Messaging

/-!
# Devices

Opening and closing a device (`src/services/device/device.rs`). A device counts its opens. A process that
opens it exclusively is its owner and keeps all others out until the count is back at 0. The count does
not say whose opens they are: a close is taken from any process. The count is a word of 32 bits, which
wraps around in a build without overflow checks; a build with them stops there.

`Session` keeps the holders of a device beside it, one entry for each open that its process has not closed.
Over all calls, exclusive access is exclusive and given back exactly when no process closes what it does
not hold and the count does not wrap under an owner (`exclusive_access_iff`).
-/

set_option autoImplicit false

namespace GenshinOs.Devices

open GenshinOs.Lib

/-- Device identifier. -/
abbrev DeviceId := UInt32

/-- Types of devices. -/
inductive DeviceType where
  | character
  | block
  | network
  | terminal
  | graphics
  | audio
  | input
  | clipboard
  | unknown
  deriving DecidableEq, Repr

/-- What a device reports of itself. -/
inductive DeviceStatus where
  | initializing
  | ready
  | busy
  | error
  | disabled
  | removed
  deriving DecidableEq, Repr

/-- Device information. -/
structure DeviceInfo where
  name : String
  deviceType : DeviceType
  id : DeviceId
  status : DeviceStatus
  deriving DecidableEq, Repr

/-- A device, and whether it has operations. -/
structure Device where
  info : DeviceInfo
  operations : Bool
  openCount : UInt32
  exclusive : Bool
  exclusiveOwner : Option Pid
  deriving DecidableEq, Repr

namespace Device

/-- A device that nobody has open. -/
def new (info : DeviceInfo) : Device where
  info := info
  operations := false
  openCount := 0
  exclusive := false
  exclusiveOwner := none

/-- Device status, which the operations report if there are any. -/
def status (d : Device) (reported : DeviceStatus) : DeviceStatus :=
  if d.operations then reported else d.info.status

/-- The device can be opened. -/
def isReady (d : Device) (reported : DeviceStatus) : Bool := d.status reported == .ready

/-- Open the device, for its process alone or for several. -/
def openBy (d : Device) (reported : DeviceStatus) (pid : Pid) (exclusive : Bool) :
    Except ServiceError Device :=
  if !d.isReady reported then .error (.invalidArguments "device" "Device not ready")
  else if d.exclusive then
    if d.exclusiveOwner ≠ some pid then
      .error (.permissionDenied "open" "Device opened exclusively by another process")
    else .ok { d with openCount := d.openCount + 1 }
  else if exclusive then
    if 0 < d.openCount then
      .error (.permissionDenied "open" "Cannot open exclusively, already in use")
    else .ok { d with
      openCount := d.openCount + 1
      exclusive := true
      exclusiveOwner := some pid }
  else .ok { d with openCount := d.openCount + 1 }

/-- Close the device once. Who had it open is not looked at. -/
def close (d : Device) (pid : Pid) : Except ServiceError Device :=
  if d.openCount = 0 then .error (.invalidArguments "device" "Device not open")
  else if d.exclusive ∧ d.exclusiveOwner = some pid ∧ d.openCount - 1 = 0 then
    .ok { d with openCount := d.openCount - 1, exclusive := false, exclusiveOwner := none }
  else .ok { d with openCount := d.openCount - 1 }

/-- Somebody has the device open. -/
def inUse (d : Device) : Bool := 0 < d.openCount

/-- What an open of the device can do. -/
theorem openBy_cases (d : Device) (reported : DeviceStatus) (pid : Pid) (exclusive : Bool) :
    ((∃ e, d.openBy reported pid exclusive = .error e) ∧ (d.isReady reported = true →
      (d.exclusive = true → d.exclusiveOwner ≠ some pid) ∧
        (d.exclusive = false → exclusive = true ∧ d.openCount ≠ 0))) ∨
    (d.isReady reported = true ∧ d.exclusive = true ∧ d.exclusiveOwner = some pid ∧
      d.openBy reported pid exclusive = .ok { d with openCount := d.openCount + 1 }) ∨
    (d.isReady reported = true ∧ d.exclusive = false ∧ exclusive = true ∧ d.openCount = 0 ∧
      d.openBy reported pid exclusive = .ok { d with
        openCount := d.openCount + 1
        exclusive := true
        exclusiveOwner := some pid }) ∨
    (d.isReady reported = true ∧ d.exclusive = false ∧ exclusive = false ∧
      d.openBy reported pid exclusive = .ok { d with openCount := d.openCount + 1 }) := by
  rw [openBy]
  cases hready : d.isReady reported with
  | false => exact Or.inl ⟨⟨_, rfl⟩, fun h => Bool.noConfusion h⟩
  | true =>
    -- an exclusive device is open to its owner only, a shared one to all but a second exclusive use
    cases hexclusive : d.exclusive with
    | true =>
      by_cases howner : d.exclusiveOwner = some pid
      · refine Or.inr (Or.inl ⟨rfl, rfl, howner, ?_⟩)
        simp [howner]
      · refine Or.inl ⟨⟨_, by simp [howner]; rfl⟩, fun _ => ⟨fun _ => howner, fun h => Bool.noConfusion h⟩⟩
    | false =>
      cases exclusive with
      | false => exact Or.inr (Or.inr (Or.inr ⟨rfl, rfl, rfl, by simp⟩))
      | true =>
        by_cases hcount : d.openCount = 0
        · refine Or.inr (Or.inr (Or.inl ⟨rfl, rfl, rfl, hcount, ?_⟩))
          simp [hcount]
        · have hpos : 0 < d.openCount := UInt32.pos_iff_ne_zero.2 hcount
          refine Or.inl ⟨⟨_, by simp [hpos]; rfl⟩, fun _ => ⟨fun h => Bool.noConfusion h, fun _ => ⟨rfl, hcount⟩⟩⟩

/-- What a close of the device can do. Only the owner gives the device back, at count 0. -/
theorem close_cases (d : Device) (pid : Pid) :
    (d.openCount = 0 ∧ ∃ e, d.close pid = .error e) ∨
    (d.openCount ≠ 0 ∧ d.exclusive = true ∧ d.exclusiveOwner = some pid ∧ d.openCount - 1 = 0 ∧
      d.close pid = .ok { d with
        openCount := d.openCount - 1
        exclusive := false
        exclusiveOwner := none }) ∨
    (d.openCount ≠ 0 ∧ (d.exclusive = true → d.exclusiveOwner = some pid → d.openCount - 1 ≠ 0) ∧
      d.close pid = .ok { d with openCount := d.openCount - 1 }) := by
  rw [close]
  by_cases hcount : d.openCount = 0
  · exact Or.inl ⟨hcount, _, if_pos hcount⟩
  · rw [if_neg hcount]
    by_cases hlast : d.exclusive = true ∧ d.exclusiveOwner = some pid ∧ d.openCount - 1 = 0
    · exact Or.inr (Or.inl ⟨hcount, hlast.1, hlast.2.1, hlast.2.2, if_pos hlast⟩)
    · refine Or.inr (Or.inr ⟨hcount, ?_, if_neg hlast⟩)
      intro hexclusive howner hzero
      exact hlast ⟨hexclusive, howner, hzero⟩

/-- A ready device that is neither open nor exclusive opens for every process. -/
theorem openBy_free {d : Device} {reported : DeviceStatus} (hready : d.isReady reported = true)
    (hcount : d.openCount = 0) (hexclusive : d.exclusive = false) (pid : Pid) (exclusive : Bool) :
    ∃ d', d.openBy reported pid exclusive = .ok d' := by
  rcases d.openBy_cases reported pid exclusive with
    ⟨-, hrefused⟩ | ⟨-, -, -, hok⟩ | ⟨-, -, -, -, hok⟩ | ⟨-, -, -, hok⟩
  · exact absurd hcount ((hrefused hready).2 hexclusive).2
  · exact ⟨_, hok⟩
  · exact ⟨_, hok⟩
  · exact ⟨_, hok⟩

end Device

/-! ## Sessions -/

/-- Calls of processes. An open comes with what the operations report. -/
inductive Call where
  | openBy (pid : Pid) (exclusive : Bool) (reported : DeviceStatus)
  | close (pid : Pid)
  deriving DecidableEq

/-- A device with its holders, each once for every open that it has not closed. -/
structure Session where
  device : Device
  holders : List Pid
  deriving DecidableEq

namespace Session

/-- A new device, with operations or without, that nobody holds. -/
def fresh (info : DeviceInfo) (operations : Bool) : Session := ⟨{ Device.new info with operations }, []⟩

/-- A call, and who holds the device after it. -/
def serve (s : Session) : Call → Session
  | .openBy pid exclusive reported =>
    match s.device.openBy reported pid exclusive with
    | .error _ => s
    | .ok d => ⟨d, pid :: s.holders⟩
  | .close pid =>
    match s.device.close pid with
    | .error _ => s
    | .ok d => ⟨d, s.holders.erase pid⟩

/-- The same with its transition. -/
def serveTraced (s : Session) (call : Call) : Session × List (Transition Session Call) :=
  (s.serve call, [⟨s, call, s.serve call⟩])

/-- A device that is held exclusively is held by its owner only. -/
def Exclusive (s : Session) : Prop :=
  s.device.exclusive = true → ∀ pid ∈ s.holders, s.device.exclusiveOwner = some pid

/-- A device that is not open is not exclusive, and every process can open it when it is ready. -/
def Free (s : Session) : Prop :=
  s.device.openCount = 0 → s.device.exclusive = false ∧ ∀ reported, s.device.isReady reported = true →
    ∀ pid exclusive, ∃ d, s.device.openBy reported pid exclusive = .ok d

/-- A call leads to exclusive access that can be given back, and a close by a process that does not hold
the device is rejected. -/
structure Fair (t : Transition Session Call) : Prop where
  exclusive : t.post.Exclusive
  free : t.post.Free
  rejected : ∀ pid, t.act = .close pid → pid ∉ t.pre.holders →
    (∃ e, t.pre.device.close pid = .error e) ∧ t.post = t.pre

/-- A close is by a process that holds the device, unless the device is not open. An owner does not open
the device so often that the count wraps to 0, and nobody opens it exclusively when the count is 0 only
because it has wrapped. -/
def Orderly (s : Session) : Call → Prop
  | .openBy pid exclusive reported => s.device.isReady reported = true →
    (s.device.exclusive = true → s.device.exclusiveOwner = some pid → s.device.openCount + 1 ≠ 0) ∧
      (s.device.exclusive = false → exclusive = true → s.device.openCount = 0 → ∀ q ∈ s.holders, q = pid)
  | .close pid => s.device.openCount = 0 ∨ pid ∈ s.holders

/-- What fair calls keep. -/
structure Kept (s : Session) : Prop where
  exclusive : s.Exclusive
  free : s.device.openCount = 0 → s.device.exclusive = false

theorem Kept.free_iff {s : Session} : (s.device.openCount = 0 → s.device.exclusive = false) ↔ s.Free := by
  constructor
  · intro h hcount
    exact ⟨h hcount, fun reported hready => Device.openBy_free hready hcount (h hcount)⟩
  · intro h hcount
    exact (h hcount).1

theorem kept_fresh (info : DeviceInfo) (operations : Bool) : (fresh info operations).Kept :=
  ⟨fun h => Bool.noConfusion h, fun _ => rfl⟩

theorem Fair.kept {t : Transition Session Call} (h : Fair t) : t.post.Kept :=
  ⟨h.exclusive, Kept.free_iff.2 h.free⟩

/-- Where an open leads to a session that is kept, it is fair. -/
theorem fair_openBy {s s' : Session} {pid : Pid} {exclusive : Bool} {reported : DeviceStatus} (h : s'.Kept) :
    Fair ⟨s, .openBy pid exclusive reported, s'⟩ :=
  ⟨h.exclusive, Kept.free_iff.1 h.free, fun _ hact => by cases hact⟩

theorem fair_openBy_iff {s : Session} (h : s.Kept) (pid : Pid) (exclusive : Bool) (reported : DeviceStatus) :
    Fair ⟨s, .openBy pid exclusive reported, s.serve (.openBy pid exclusive reported)⟩ ↔
      s.Orderly (.openBy pid exclusive reported) := by
  rw [serve, Orderly]
  rcases s.device.openBy_cases reported pid exclusive with
    ⟨⟨e, herror⟩, hrefused⟩ | ⟨hready, hexclusive, howner, hok⟩ | ⟨hready, hshared, rfl, hcount, hok⟩ |
      ⟨hready, hshared, rfl, hok⟩
  · -- nothing changes
    rw [herror]
    refine iff_of_true (fair_openBy h) ?_
    intro hready
    obtain ⟨hother, hbusy⟩ := hrefused hready
    exact ⟨fun hexclusive howner => absurd howner (hother hexclusive),
      fun hshared _ hcount => absurd hcount (hbusy hshared).2⟩
  · -- the owner opens again
    rw [hok]
    constructor
    · intro hfair _
      refine ⟨fun _ _ hzero => ?_, fun hshared => ?_⟩
      · exact Bool.noConfusion (hexclusive.symm.trans (hfair.free hzero).1)
      · exact Bool.noConfusion (hexclusive.symm.trans hshared)
    · intro horderly
      have hcount := (horderly hready).1 hexclusive howner
      refine fair_openBy ⟨?_, fun hzero => absurd hzero hcount⟩
      intro _ q hq
      rcases List.mem_cons.1 hq with rfl | hq
      · exact howner
      · exact h.exclusive hexclusive q hq
  · -- a new owner
    rw [hok]
    have hcounted : s.device.openCount + 1 ≠ 0 := by
      rw [hcount]
      decide
    constructor
    · intro hfair _
      refine ⟨fun hexclusive => ?_, fun _ _ _ q hq => ?_⟩
      · exact Bool.noConfusion (hshared.symm.trans hexclusive)
      · exact (Option.some.inj (hfair.exclusive rfl q (List.mem_cons_of_mem pid hq))).symm
    · intro horderly
      have hothers := (horderly hready).2 hshared rfl hcount
      refine fair_openBy ⟨?_, fun hzero => absurd hzero hcounted⟩
      intro _ q hq
      rcases List.mem_cons.1 hq with rfl | hq
      · rfl
      · rw [hothers q hq]
  · -- a further holder of a shared device
    rw [hok]
    refine iff_of_true (fair_openBy ⟨fun hexclusive => ?_, fun _ => hshared⟩) ?_
    · exact Bool.noConfusion (hshared.symm.trans hexclusive)
    · intro _
      exact ⟨fun hexclusive => Bool.noConfusion (hshared.symm.trans hexclusive),
        fun _ hexclusive => Bool.noConfusion hexclusive⟩

/-- Where a close by a holder leads to a session that is kept, it is fair. -/
theorem fair_close {s s' : Session} {pid : Pid} (hheld : pid ∈ s.holders) (h : s'.Kept) :
    Fair ⟨s, .close pid, s'⟩ := by
  refine ⟨h.exclusive, Kept.free_iff.1 h.free, ?_⟩
  intro q hact hq
  cases hact
  exact absurd hheld hq

theorem fair_close_iff {s : Session} (h : s.Kept) (pid : Pid) :
    Fair ⟨s, .close pid, s.serve (.close pid)⟩ ↔ s.Orderly (.close pid) := by
  rw [serve, Orderly]
  -- a close that succeeds is rejected for those who do not hold the device
  have hheld : ∀ {d : Device}, s.device.close pid = .ok d →
      Fair ⟨s, .close pid, ⟨d, s.holders.erase pid⟩⟩ → s.device.openCount = 0 ∨ pid ∈ s.holders := by
    intro d hok hfair
    by_cases hpid : pid ∈ s.holders
    · exact Or.inr hpid
    · obtain ⟨⟨e, herror⟩, -⟩ := hfair.rejected pid rfl hpid
      cases hok.symm.trans herror
  rcases s.device.close_cases pid with ⟨hcount, e, herror⟩ | ⟨hcount, hexclusive, howner, hlast, hok⟩ |
    ⟨hcount, hothers, hok⟩
  · rw [herror]
    refine iff_of_true ⟨h.exclusive, Kept.free_iff.1 h.free, ?_⟩ (Or.inl hcount)
    intro q hact _
    cases hact
    exact ⟨⟨e, herror⟩, rfl⟩
  · have hend := @hheld _ hok
    rw [hok]
    refine ⟨hend, fun horderly => ?_⟩
    exact fair_close (horderly.resolve_left hcount) ⟨fun hagain => Bool.noConfusion hagain, fun _ => rfl⟩
  · have hend := @hheld _ hok
    rw [hok]
    refine ⟨hend, fun horderly => ?_⟩
    have hpid := horderly.resolve_left hcount
    refine fair_close hpid ⟨?_, ?_⟩
    · intro hexclusive q hq
      exact h.exclusive hexclusive q (List.mem_of_mem_erase hq)
    · -- the last close of an exclusive device would be the owner's
      intro hzero
      refine eq_false_of_ne_true fun hexclusive => ?_
      exact hothers hexclusive (h.exclusive hexclusive pid hpid) hzero

theorem fair_iff {s : Session} (h : s.Kept) (call : Call) :
    Fair ⟨s, call, s.serve call⟩ ↔ s.Orderly call := by
  cases call with
  | openBy pid exclusive reported => exact fair_openBy_iff h pid exclusive reported
  | close pid => exact fair_close_iff h pid

/-- In a run over any calls, exclusive access is exclusive and given back exactly when the calls are
orderly. -/
theorem exclusive_access_iff (info : DeviceInfo) (operations : Bool) (calls : List Call) :
    (∀ t ∈ (runTrace serveTraced (fresh info operations) calls).2, Fair t) ↔
      ∀ t ∈ (runTrace serveTraced (fresh info operations) calls).2, t.pre.Orderly t.act := by
  obtain ⟨hchain, hsingle⟩ := runTrace_single (fun _ _ => rfl) (fresh info operations) calls
  refine hchain.forall_iff (kept_fresh info operations) ?_
  rintro ⟨s, call, s'⟩ ht hkept
  have hpost : s' = s.serve call := hsingle _ ht
  subst hpost
  exact ⟨fair_iff hkept call, Fair.kept⟩

/-- A process closes what another one has opened exclusively. The device is not open then, and nobody else
can open it. -/
theorem closed_by_another :
    let info : DeviceInfo := ⟨"tty", .terminal, 1, .ready⟩
    let calls : List Call := [.openBy 1 true .ready, .close 2]
    (runTrace serveTraced (fresh info false) calls).1.device.openCount = 0 ∧
      (runTrace serveTraced (fresh info false) calls).1.device.exclusive = true ∧
      ¬∀ t ∈ (runTrace serveTraced (fresh info false) calls).2, Fair t := by
  refine ⟨by decide, by decide, ?_⟩
  intro hfair
  have hfree := (hfair _ (List.mem_cons_of_mem _ List.mem_cons_self)).free (by decide)
  exact absurd hfree.1 (by decide)

end Session

end GenshinOs.Devices
