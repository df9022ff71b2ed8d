import GenshinOs.Lib.HashMap
import GenshinOs.Devices.Device

/-!
# Device manager

The registered devices and their two indices, by name and by type
(`src/services/device/manager.rs`). Names need not be unique. The index by name has one entry for a name,
for the device that was registered last, and an unregistration removes the entry whatever it refers to.
The numbers of the devices are words of 32 bits, which wrap around in a build without overflow checks; a
build with them stops there. The driver manager is not modelled.

The indices agree with the devices along every run in which no device is unregistered while another one
has its name, and no number is given out while it is in use (`indices_agree`). One unregistration that is
not of this kind is enough to lose a registered device (`unregister_detaches`).
-/

set_option autoImplicit false

namespace GenshinOs.Devices

open GenshinOs.Lib

/-- The devices by number, and the two indices: a number for each name, the numbers of each type. -/
structure DeviceManager where
  devices : HashMap DeviceId Device
  nextDeviceId : DeviceId
  nameMap : HashMap String DeviceId
  typeMap : HashMap DeviceType (List DeviceId)

namespace DeviceManager

/-- No devices. The first one gets number 1. -/
def new : DeviceManager := ⟨∅, 1, ∅, ∅⟩

/-- The numbers under a type. -/
def idsOf (m : DeviceManager) (deviceType : DeviceType) : List DeviceId :=
  (m.typeMap.lookup deviceType).getD []

/-- Register a device under the next number. -/
def register (m : DeviceManager) (device : Device) : DeviceId × DeviceManager :=
  let deviceId := m.nextDeviceId
  let deviceType := device.info.deviceType
  (deviceId, {
    devices := m.devices.insert deviceId { device with info := { device.info with id := deviceId } }
    nextDeviceId := m.nextDeviceId + 1
    nameMap := m.nameMap.insert device.info.name deviceId
    typeMap := m.typeMap.insert deviceType (m.idsOf deviceType ++ [deviceId]) })

/-- The device of a number. -/
def get (m : DeviceManager) (deviceId : DeviceId) : Option Device := m.devices.lookup deviceId

/-- The error for a number without device. -/
def notFound (deviceId : DeviceId) : ServiceError := .notFound "Device" (toString deviceId)

/-- Remove a device from the three maps. -/
def remove (m : DeviceManager) (deviceId : DeviceId) (info : DeviceInfo) : DeviceManager :=
  { m with
    devices := m.devices.erase deviceId
    nameMap := m.nameMap.erase info.name
    typeMap := m.typeMap.adjust info.deviceType fun ids => ids.filter (· ≠ deviceId) }

/-- Unregister a device that is not in use. -/
def unregister (m : DeviceManager) (deviceId : DeviceId) : Except ServiceError Unit × DeviceManager :=
  match m.get deviceId with
  | none => (.error (notFound deviceId), m)
  | some device =>
    if device.inUse then (.error (.invalidArguments "device" "Device is in use"), m)
    else (.ok (), m.remove deviceId device.info)

/-- The device that was registered last under a name. -/
def getByName (m : DeviceManager) (name : String) : Option Device := (m.nameMap.lookup name).bind m.get

/-- The devices of a type, in the order of their registration. -/
def getByType (m : DeviceManager) (deviceType : DeviceType) : List Device :=
  (m.idsOf deviceType).filterMap m.get

/-- The result of a call of a device, which stays where it is. -/
def change (m : DeviceManager) (deviceId : DeviceId) (f : Device → Except ServiceError Device) :
    Except ServiceError Unit × DeviceManager :=
  match m.get deviceId with
  | none => (.error (notFound deviceId), m)
  | some device =>
    match f device with
    | .error e => (.error e, m)
    | .ok device' => (.ok (), { m with devices := m.devices.insert deviceId device' })

/-- Open a device for a process. The device says what status it reports. -/
def openBy (m : DeviceManager) (deviceId : DeviceId) (reported : DeviceStatus) (pid : Pid)
    (exclusive : Bool) : Except ServiceError Unit × DeviceManager :=
  m.change deviceId fun device => device.openBy reported pid exclusive

/-- Close a device for a process. -/
def close (m : DeviceManager) (deviceId : DeviceId) (pid : Pid) : Except ServiceError Unit × DeviceManager :=
  m.change deviceId fun device => device.close pid

/-! ## Agreement -/

/-- What the indices should answer: each registered device under its type, once, a registered device of
its name under its name, and nothing else. -/
structure IndicesAgree (m : DeviceManager) : Prop where
  by_type : ∀ id d, m.get id = some d → (m.getByType d.info.deviceType).count d = 1
  by_name : ∀ id d, m.get id = some d → ∃ d', m.getByName d.info.name = some d' ∧ d'.info.name = d.info.name
  type_registered : ∀ deviceType, ∀ d ∈ m.getByType deviceType, ∃ id, m.get id = some d
  name_registered : ∀ name d, m.getByName name = some d → ∃ id, m.get id = some d

/-- The maps describe one set of devices. -/
structure Indexed (m : DeviceManager) : Prop where
  numbered : ∀ id d, m.get id = some d → d.info.id = id
  nodup : ∀ deviceType, (m.idsOf deviceType).Nodup
  mem_idsOf : ∀ deviceType id, id ∈ m.idsOf deviceType ↔ ∃ d, m.get id = some d ∧ d.info.deviceType = deviceType
  named : ∀ name id, m.nameMap.lookup name = some id → ∃ d, m.get id = some d ∧ d.info.name = name
  findable : ∀ id d, m.get id = some d → ∃ id', m.nameMap.lookup d.info.name = some id'

theorem indexed_new : new.Indexed where
  numbered _ _ h := by cases h
  nodup _ := List.nodup_nil
  mem_idsOf _ _ := iff_of_false List.not_mem_nil fun ⟨_, h, _⟩ => by cases h
  named _ _ h := by cases h
  findable _ _ h := by cases h

theorem Indexed.count_getByType {m : DeviceManager} (h : m.Indexed) {id : DeviceId} {d : Device}
    (hd : m.get id = some d) : (m.getByType d.info.deviceType).count d = 1 := by
  have hmem : d ∈ m.getByType d.info.deviceType :=
    List.mem_filterMap.2 ⟨id, (h.mem_idsOf _ id).2 ⟨d, hd, rfl⟩, hd⟩
  -- a device is under one number only
  have hnodup : (m.getByType d.info.deviceType).Nodup := by
    refine (h.nodup _).filterMap ?_
    intro i j e hi hj
    rw [← h.numbered i e hi, ← h.numbered j e hj]
  exact List.count_eq_one_of_mem hnodup hmem

theorem Indexed.agree {m : DeviceManager} (h : m.Indexed) : m.IndicesAgree where
  by_type _ _ hd := h.count_getByType hd
  by_name id d hd := by
    obtain ⟨id', hid'⟩ := h.findable id d hd
    obtain ⟨d', hd', hname⟩ := h.named _ id' hid'
    exact ⟨d', by rw [getByName, hid']; exact hd', hname⟩
  type_registered deviceType d hd := by
    obtain ⟨id, -, hid⟩ := List.mem_filterMap.1 hd
    exact ⟨id, hid⟩
  name_registered name d hd := by
    obtain ⟨id, -, hid⟩ := Option.bind_eq_some_iff.1 hd
    exact ⟨id, hid⟩

/-! ## Calls -/

theorem get_register (m : DeviceManager) (device : Device) (id : DeviceId) :
    (m.register device).2.get id =
      if id = m.nextDeviceId then some { device with info := { device.info with id := m.nextDeviceId } }
      else m.get id := HashMap.lookup_insert_eq _ _ _ _

theorem idsOf_register (m : DeviceManager) (device : Device) (deviceType : DeviceType) :
    (m.register device).2.idsOf deviceType =
      if deviceType = device.info.deviceType then m.idsOf deviceType ++ [m.nextDeviceId]
      else m.idsOf deviceType := by
  have hlookup : (m.register device).2.idsOf deviceType =
      (if deviceType = device.info.deviceType then some (m.idsOf device.info.deviceType ++ [m.nextDeviceId])
        else m.typeMap.lookup deviceType).getD [] := by
    rw [← HashMap.lookup_insert_eq]
    rfl
  rw [hlookup]
  split
  · next htype =>
    rw [htype]
    rfl
  · rfl

/-- A number that is not in use can be given out. -/
theorem Indexed.register {m : DeviceManager} (h : m.Indexed) (hfree : m.get m.nextDeviceId = none)
    (device : Device) : (m.register device).2.Indexed := by
  -- the new number is in no index yet
  have hother : ∀ {id d}, m.get id = some d → id ≠ m.nextDeviceId := by
    rintro id d hd rfl
    cases hfree.symm.trans hd
  have hkeep : ∀ {id d}, m.get id = some d → (m.register device).2.get id = some d := by
    intro id d hd
    rw [get_register, if_neg (hother hd)]
    exact hd
  have hnew : (m.register device).2.get m.nextDeviceId =
      some { device with info := { device.info with id := m.nextDeviceId } } := by
    rw [get_register, if_pos rfl]
  constructor
  case numbered =>
    intro id d hd
    rw [get_register] at hd
    split at hd
    · next hid =>
      cases hd
      exact hid.symm
    · exact h.numbered id d hd
  case nodup =>
    intro deviceType
    rw [idsOf_register]
    split
    · refine (h.nodup deviceType).append (List.nodup_singleton _) ?_
      intro id hid hlast
      obtain ⟨d, hd, -⟩ := (h.mem_idsOf deviceType id).1 hid
      exact hother hd (List.mem_singleton.1 hlast)
    · exact h.nodup deviceType
  case mem_idsOf =>
    intro deviceType id
    rw [idsOf_register, get_register]
    -- the new device, or one that was there
    by_cases hid : id = m.nextDeviceId
    · subst hid
      rw [if_pos rfl]
      have hnone : m.nextDeviceId ∉ m.idsOf deviceType := by
        intro hmem
        obtain ⟨d, hd, -⟩ := (h.mem_idsOf deviceType _).1 hmem
        exact hother hd rfl
      split
      · next htype => simp [htype]
      · next htype => simp [hnone, Ne.symm htype]
    · rw [if_neg hid, ← h.mem_idsOf]
      split
      · simp [hid]
      · rfl
  case named =>
    intro name id hid
    rcases HashMap.lookup_of_insert hid with ⟨rfl, rfl⟩ | hid
    · exact ⟨_, hnew, rfl⟩
    · obtain ⟨d, hd, hname⟩ := h.named name id hid
      exact ⟨d, hkeep hd, hname⟩
  case findable =>
    intro id d hd
    -- the name leads to the new device when it is the same name
    have hentry : (m.register device).2.nameMap.lookup d.info.name =
        if d.info.name = device.info.name then some m.nextDeviceId else m.nameMap.lookup d.info.name :=
      HashMap.lookup_insert_eq _ _ _ _
    rw [hentry]
    rw [get_register] at hd
    split at hd
    · cases hd
      exact ⟨_, if_pos rfl⟩
    · split
      · exact ⟨_, rfl⟩
      · exact h.findable id d hd

/-- An unregistration fails and changes nothing, or removes a device that is not in use. -/
theorem unregister_cases (m : DeviceManager) (id : DeviceId) :
    (m.unregister id).2 = m ∨
      ∃ d, m.get id = some d ∧ d.inUse = false ∧ m.unregister id = (.ok (), m.remove id d.info) := by
  rw [unregister]
  cases hd : m.get id with
  | none => exact Or.inl rfl
  | some d =>
    cases huse : d.inUse with
    | true => exact Or.inl (by simp [huse])
    | false => exact Or.inr ⟨d, rfl, huse, by simp [huse]⟩

theorem get_remove (m : DeviceManager) (id : DeviceId) (info : DeviceInfo) (id' : DeviceId) :
    (m.remove id info).get id' = if id' = id then none else m.get id' :=
  HashMap.lookup_erase_eq _ _ _

theorem idsOf_remove (m : DeviceManager) (id : DeviceId) (info : DeviceInfo) (deviceType : DeviceType) :
    (m.remove id info).idsOf deviceType =
      if deviceType = info.deviceType then (m.idsOf deviceType).filter (· ≠ id) else m.idsOf deviceType := by
  have hlookup := HashMap.lookup_adjust m.typeMap info.deviceType deviceType fun ids => ids.filter (· ≠ id)
  rw [idsOf, remove, hlookup, idsOf]
  split
  · next htype =>
    rw [htype]
    cases m.typeMap.lookup info.deviceType with
    | none => rfl
    | some ids => rfl
  · rfl

/-- A device can be removed when no other one has its name. -/
theorem Indexed.remove {m : DeviceManager} (h : m.Indexed) {id : DeviceId} {d : Device}
    (hd : m.get id = some d)
    (honly : ∀ id' d', m.get id' = some d' → d'.info.name = d.info.name → id' = id) :
    (m.remove id d.info).Indexed := by
  have hgone : ∀ {id' d'}, (m.remove id d.info).get id' = some d' → id' ≠ id ∧ m.get id' = some d' := by
    intro id' d' hd'
    rw [get_remove] at hd'
    split at hd'
    · cases hd'
    · next hid => exact ⟨hid, hd'⟩
  have hkeep : ∀ {id' d'}, id' ≠ id → m.get id' = some d' → (m.remove id d.info).get id' = some d' := by
    intro id' d' hid hd'
    rw [get_remove, if_neg hid]
    exact hd'
  have hentry : ∀ name, (m.remove id d.info).nameMap.lookup name =
      if name = d.info.name then none else m.nameMap.lookup name := fun name =>
    HashMap.lookup_erase_eq _ _ _
  constructor
  case numbered => exact fun id' d' hd' => h.numbered id' d' (hgone hd').2
  case nodup =>
    intro deviceType
    rw [idsOf_remove]
    split
    · exact (h.nodup deviceType).filter _
    · exact h.nodup deviceType
  case mem_idsOf =>
    intro deviceType id'
    have hmem := h.mem_idsOf deviceType id'
    rw [idsOf_remove, get_remove]
    by_cases hid : id' = id
    · -- the type of a device is the one under which it is removed
      subst hid
      rw [if_pos rfl]
      split
      · simp
      · next htype =>
        rw [hmem]
        simp [hd, Ne.symm htype]
    · rw [if_neg hid, ← hmem]
      split
      · simp [hid]
      · rfl
  case named =>
    intro name id' hid'
    rw [hentry] at hid'
    split at hid'
    · cases hid'
    · next hname =>
      obtain ⟨d', hd', rfl⟩ := h.named name id' hid'
      refine ⟨d', hkeep ?_ hd', rfl⟩
      rintro rfl
      cases hd.symm.trans hd'
      exact hname rfl
  case findable =>
    intro id' d' hd'
    obtain ⟨hid, hd'⟩ := hgone hd'
    have hname : d'.info.name ≠ d.info.name := fun hname => hid (honly id' d' hd' hname)
    rw [hentry, if_neg hname]
    exact h.findable id' d' hd'

/-- A call of a device changes nothing, or the one device. -/
theorem change_cases (m : DeviceManager) (id : DeviceId) (f : Device → Except ServiceError Device) :
    (m.change id f).2 = m ∨ ∃ d d', m.get id = some d ∧ f d = .ok d' ∧
      (m.change id f).2 = { m with devices := m.devices.insert id d' } := by
  rw [change]
  cases hd : m.get id with
  | none => exact Or.inl rfl
  | some d =>
    simp only
    cases hf : f d with
    | error e => exact Or.inl rfl
    | ok d' => exact Or.inr ⟨d, d', rfl, hf, rfl⟩

/-- The indices do not depend on anything but name and type. -/
theorem Indexed.change {m : DeviceManager} (h : m.Indexed) (id : DeviceId)
    {f : Device → Except ServiceError Device} (hinfo : ∀ d d', f d = .ok d' → d'.info = d.info) :
    (m.change id f).2.Indexed := by
  rcases m.change_cases id f with hsame | ⟨d, d', hd, hf, hchanged⟩
  · rw [hsame]
    exact h
  rw [hchanged]
  have hget : ∀ id', ({ m with devices := m.devices.insert id d' } : DeviceManager).get id' =
      if id' = id then some d' else m.get id' := fun id' => HashMap.lookup_insert_eq _ _ _ _
  -- a device after the call has the information of the one before it
  have hback : ∀ {id' e}, ({ m with devices := m.devices.insert id d' } : DeviceManager).get id' = some e →
      ∃ e', m.get id' = some e' ∧ e'.info = e.info := by
    intro id' e he
    rw [hget] at he
    split at he
    · next hid =>
      cases he
      rw [hid]
      exact ⟨d, hd, (hinfo d d' hf).symm⟩
    · exact ⟨e, he, rfl⟩
  have hforth : ∀ {id' e}, m.get id' = some e →
      ∃ e', ({ m with devices := m.devices.insert id d' } : DeviceManager).get id' = some e' ∧
        e'.info = e.info := by
    intro id' e he
    rw [hget]
    split
    · next hid =>
      rw [hid, hd] at he
      cases he
      exact ⟨d', rfl, hinfo d d' hf⟩
    · exact ⟨e, he, rfl⟩
  constructor
  case numbered =>
    intro id' e he
    obtain ⟨e', he', hsame⟩ := hback he
    rw [← hsame]
    exact h.numbered id' e' he'
  case nodup => exact h.nodup
  case mem_idsOf =>
    intro deviceType id'
    constructor
    · intro hmem
      obtain ⟨e, he, htype⟩ := (h.mem_idsOf deviceType id').1 hmem
      obtain ⟨e', he', hsame⟩ := hforth he
      exact ⟨e', he', by rw [hsame]; exact htype⟩
    · rintro ⟨e, he, htype⟩
      obtain ⟨e', he', hsame⟩ := hback he
      exact (h.mem_idsOf deviceType id').2 ⟨e', he', by rw [hsame]; exact htype⟩
  case named =>
    intro name id' hid'
    obtain ⟨e, he, hname⟩ := h.named name id' hid'
    obtain ⟨e', he', hsame⟩ := hforth he
    exact ⟨e', he', by rw [hsame]; exact hname⟩
  case findable =>
    intro id' e he
    obtain ⟨e', he', hsame⟩ := hback he
    rw [← hsame]
    exact h.findable id' e' he'

/-- An open through the manager is an open of the device. -/
theorem openBy_session {m : DeviceManager} {id : DeviceId} {s : Session} (h : m.get id = some s.device)
    (reported : DeviceStatus) (pid : Pid) (exclusive : Bool) :
    (m.openBy id reported pid exclusive).2.get id =
      some (s.serve (.openBy pid exclusive reported)).device := by
  rw [openBy, change, h, Session.serve]
  simp only
  cases s.device.openBy reported pid exclusive with
  | error e => exact h
  | ok d => exact AList.lookup_insert _

/-- A close through the manager is a close of the device. -/
theorem close_session {m : DeviceManager} {id : DeviceId} {s : Session} (h : m.get id = some s.device)
    (pid : Pid) : (m.close id pid).2.get id = some (s.serve (.close pid)).device := by
  rw [close, change, h, Session.serve]
  simp only
  cases s.device.close pid with
  | error e => exact h
  | ok d => exact AList.lookup_insert _

theorem info_openBy {d d' : Device} {reported : DeviceStatus} {pid : Pid} {exclusive : Bool}
    (h : d.openBy reported pid exclusive = .ok d') : d'.info = d.info := by
  rcases d.openBy_cases reported pid exclusive with
    ⟨⟨e, herror⟩, -⟩ | ⟨-, -, -, hok⟩ | ⟨-, -, -, -, hok⟩ | ⟨-, -, -, hok⟩
  · cases h.symm.trans herror
  · cases h.symm.trans hok
    rfl
  · cases h.symm.trans hok
    rfl
  · cases h.symm.trans hok
    rfl

theorem info_close {d d' : Device} {pid : Pid} (h : d.close pid = .ok d') : d'.info = d.info := by
  rcases d.close_cases pid with ⟨-, e, herror⟩ | ⟨-, -, -, -, hok⟩ | ⟨-, -, hok⟩
  · cases h.symm.trans herror
  · cases h.symm.trans hok
    rfl
  · cases h.symm.trans hok
    rfl

/-! ## Runs -/

/-- Calls of the manager. -/
inductive Request where
  | register (device : Device)
  | unregister (id : DeviceId)
  | openBy (id : DeviceId) (pid : Pid) (exclusive : Bool) (reported : DeviceStatus)
  | close (id : DeviceId) (pid : Pid)
  deriving DecidableEq

/-- The manager after a call. -/
def serve (m : DeviceManager) : Request → DeviceManager
  | .register device => (m.register device).2
  | .unregister id => (m.unregister id).2
  | .openBy id pid exclusive reported => (m.openBy id reported pid exclusive).2
  | .close id pid => (m.close id pid).2

/-- The call with its transition recorded. -/
def serveTraced (m : DeviceManager) (req : Request) :
    DeviceManager × List (Transition DeviceManager Request) := (m.serve req, [⟨m, req, m.serve req⟩])

/-- A registration gets a number that is not in use. An unregistration removes the only device of its
name. -/
def Orderly (m : DeviceManager) : Request → Prop
  | .register _ => m.get m.nextDeviceId = none
  | .unregister id => ∀ d, m.get id = some d → d.inUse = false →
      ∀ id' d', m.get id' = some d' → d'.info.name = d.info.name → id' = id
  | _ => True

theorem Indexed.serve {m : DeviceManager} (h : m.Indexed) {req : Request} (horderly : m.Orderly req) :
    (m.serve req).Indexed := by
  cases req with
  | register device => exact h.register horderly device
  | unregister id =>
    rcases m.unregister_cases id with hsame | ⟨d, hd, huse, hremoved⟩
    · rw [DeviceManager.serve, hsame]
      exact h
    · rw [DeviceManager.serve, hremoved]
      exact h.remove hd (horderly d hd huse)
  | openBy id pid exclusive reported => exact h.change id fun _ _ hok => info_openBy hok
  | close id pid => exact h.change id fun _ _ hok => info_close hok

/-- A device that is unregistered takes the entry of its name with it, and another device of this name is
registered but no longer found. -/
theorem unregister_detaches {m : DeviceManager} {id id' : DeviceId} {d d' : Device}
    (hd : m.get id = some d) (huse : d.inUse = false) (hd' : m.get id' = some d') (hid : id' ≠ id)
    (hname : d'.info.name = d.info.name) : ¬(m.serve (.unregister id)).IndicesAgree := by
  have hremoved : m.serve (.unregister id) = m.remove id d.info := by
    rw [serve, unregister, hd]
    simp [huse]
  rw [hremoved]
  intro hagree
  have hkept : (m.remove id d.info).get id' = some d' := by
    rw [get_remove, if_neg hid]
    exact hd'
  obtain ⟨found, hfound, -⟩ := hagree.by_name id' d' hkept
  have hnone : (m.remove id d.info).nameMap.lookup d'.info.name = none := by
    rw [hname]
    exact AList.lookup_erase _ _
  rw [getByName, hnone] at hfound
  cases hfound

/-- Along a run of orderly calls, the indices agree in every state. -/
theorem indices_agree (reqs : List Request)
    (horderly : ∀ t ∈ (runTrace serveTraced new reqs).2, t.pre.Orderly t.act) :
    (runTrace serveTraced new reqs).1.IndicesAgree ∧
      ∀ t ∈ (runTrace serveTraced new reqs).2, t.pre.IndicesAgree ∧ t.post.IndicesAgree := by
  obtain ⟨hend, hall⟩ := runTrace_single_invariant (fun _ _ => rfl) indexed_new reqs
    fun t ht hpre => hpre.serve (horderly t ht)
  exact ⟨hend.agree, fun t ht => ⟨(hall t ht).1.agree, (hall t ht).2.agree⟩⟩

/-- Of two devices with different names the first is unregistered, and the second is still found. -/
theorem indices_agree_distinct :
    let device (name : String) := Device.new ⟨name, .terminal, 0, .ready⟩
    let reqs := [Request.register (device "tty0"), .register (device "tty1"), .unregister 1]
    (runTrace serveTraced new reqs).1.IndicesAgree ∧
      ((runTrace serveTraced new reqs).1.getByName "tty1").map (·.info.id) = some 2 := by
  intro device reqs
  refine ⟨(indices_agree reqs ?_).1, by decide⟩
  refine List.forall_mem_cons.2 ⟨rfl, List.forall_mem_cons.2 ⟨rfl, List.forall_mem_singleton.2 ?_⟩⟩
  -- the other device has the other name
  intro d hd _ id' d' hd' hname
  cases hd
  change ((new.register (device "tty0")).2.register (device "tty1")).2.get id' = some d' at hd'
  rw [get_register, get_register] at hd'
  split at hd'
  · cases hd'
    exact absurd hname (by decide)
  · split at hd'
    · next hid => exact hid
    · cases hd'

/-- Of two devices with one name the second is unregistered, and the first is not found any more. -/
theorem detached_by_name :
    let device := Device.new ⟨"tty", .terminal, 0, .ready⟩
    let m := (runTrace serveTraced new [.register device, .register device, .unregister 2]).1
    (m.get 1).isSome = true ∧ m.getByName "tty" = none ∧ ¬m.IndicesAgree := by
  intro device m
  refine ⟨by decide, by decide, ?_⟩
  have hm : m = ((new.register device).2.register device).2.serve (.unregister 2) := rfl
  rw [hm]
  refine @unregister_detaches _ 2 1 { device with info := ⟨"tty", .terminal, 2, .ready⟩ }
    { device with info := ⟨"tty", .terminal, 1, .ready⟩ } ?_ ?_ ?_ (by decide) rfl
  · rfl
  · rfl
  · rfl

end DeviceManager

end GenshinOs.Devices
