import GenshinOs.Lib.Buffer
import GenshinOs.Lib.Utf8
import GenshinOs.Messaging.Bus
import GenshinOs.Devices.Manager

/-!
# Device service

The requests to the device service (`src/services/device/service.rs`), with reading, writing and the status
of a device (`device.rs`, `manager.rs`). The service hears every message on the bus and acts on the device
requests. A read or a write makes its buffer before it looks for the device. Where there is no buffer of that
length, the thread of the service ends there, without an answer (`none`).
-/

set_option autoImplicit false

namespace GenshinOs.Devices

open GenshinOs.Lib GenshinOs.Messaging

/-! ## Operations of a device -/

/-- What the operations of a device report, if it has any. -/
structure Operations where
  read : Nat → Except ServiceError Nat
  write : List UInt8 → Except ServiceError Nat
  status : DeviceStatus

namespace Device

/-- Read into a buffer of this size. -/
def read (d : Device) (ops : Operations) (size : Nat) : Except ServiceError Nat :=
  if d.operations then ops.read size else .error (.notImplemented "Device read")

/-- Write these bytes. -/
def write (d : Device) (ops : Operations) (data : List UInt8) : Except ServiceError Nat :=
  if d.operations then ops.write data else .error (.notImplemented "Device write")

end Device

/-- A new device is still being initialized. -/
def DeviceInfo.new (name : String) (deviceType : DeviceType) (id : DeviceId) : DeviceInfo where
  name := name
  deviceType := deviceType
  id := id
  status := .initializing

/-- Debug text of a status. -/
def DeviceStatus.debug : DeviceStatus → String
  | .initializing => "Initializing"
  | .ready => "Ready"
  | .busy => "Busy"
  | .error => "Error"
  | .disabled => "Disabled"
  | .removed => "Removed"

namespace DeviceManager

/-- Ask a device that is there. -/
def ask {α : Type} (m : DeviceManager) (deviceId : DeviceId) (f : Device → Except ServiceError α) :
    Except ServiceError α :=
  match m.get deviceId with
  | none => .error (notFound deviceId)
  | some device => f device

/-- Read from a device into a buffer of this size. -/
def read (m : DeviceManager) (ops : DeviceId → Operations) (deviceId : DeviceId) (size : Nat) :
    Except ServiceError Nat :=
  m.ask deviceId fun device => device.read (ops deviceId) size

/-- Write these bytes to a device. -/
def write (m : DeviceManager) (ops : DeviceId → Operations) (deviceId : DeviceId) (data : List UInt8) :
    Except ServiceError Nat :=
  m.ask deviceId fun device => device.write (ops deviceId) data

/-- The status that a device reports, or that it has without operations. -/
def status (m : DeviceManager) (ops : DeviceId → Operations) (deviceId : DeviceId) :
    Except ServiceError DeviceStatus :=
  m.ask deviceId fun device => .ok (device.status (ops deviceId).status)

/-- Number of registered devices. -/
def count (m : DeviceManager) : Nat := m.devices.keys.length

end DeviceManager

/-! ## Service -/

/-- State of the device service: the devices and the text of the clipboard. -/
structure DeviceService where
  deviceManager : DeviceManager
  clipboard : String

/-- An answer on the response channel of a request. -/
abbrev Answer := Except MsgServiceError ResponseData

/-- Outcome of a handler. -/
structure Handled where
  service : DeviceService
  sent : List Answer
  result : Except ServiceError Unit

/-- The type that a device of this class gets. Timers have none of their own. -/
def deviceClassToType : DeviceClass → DeviceType
  | .block => .block
  | .char => .character
  | .network => .network
  | .graphics => .graphics
  | .clipboard => .clipboard
  | .timer => .unknown
  | .unknown => .unknown

namespace DeviceService

/-- A service without devices. -/
def new : DeviceService := ⟨DeviceManager.new, ""⟩

/-- A handler that reads something: an answer for success, nothing for a failure. -/
def report {α : Type} (s : DeviceService) (result : Except ServiceError α) (answer : α → List Answer) :
    Handled :=
  match result with
  | .ok a => ⟨s, answer a, .ok ()⟩
  | .error e => ⟨s, [], .error e⟩

/-- Register a device of this class, without operations. -/
def register (s : DeviceService) (deviceType : DeviceClass) (name : String) : DeviceId × DeviceService :=
  let registered := s.deviceManager.register (Device.new (DeviceInfo.new name (deviceClassToType deviceType) 0))
  (registered.1, { s with deviceManager := registered.2 })

/-- Without a response channel the number is not told. -/
def handleRegisterDevice (s : DeviceService) (deviceType : DeviceClass) (name : String) : Handled :=
  ⟨(s.register deviceType name).2, [], .ok ()⟩

/-- The answer is the number of the new device. -/
def handleRegisterDeviceWithResponse (s : DeviceService) (deviceType : DeviceClass) (name : String) :
    Handled :=
  let registered := s.register deviceType name
  ⟨registered.2, [.ok (.integer registered.1.toUInt64)], .ok ()⟩

/-- Unregister a device. A success gets these answers. -/
def unregister (s : DeviceService) (deviceId : DeviceId) (answers : List Answer) : Handled :=
  let unregistered := s.deviceManager.unregister deviceId
  report { s with deviceManager := unregistered.2 } unregistered.1 fun _ => answers

/-- Without a response channel. -/
def handleUnregisterDevice (s : DeviceService) (deviceId : DeviceId) : Handled := s.unregister deviceId []

/-- A success is answered with void. -/
def handleUnregisterDeviceWithResponse (s : DeviceService) (deviceId : DeviceId) : Handled :=
  s.unregister deviceId [.ok .void]

/-- The list is logged only. -/
def handleListDevices (s : DeviceService) : Handled := ⟨s, [], .ok ()⟩

/-- The answer is the number of devices, as text. -/
def handleListDevicesWithResponse (s : DeviceService) : Handled :=
  ⟨s, [.ok (.string ("Device count: " ++ toString s.deviceManager.count))], .ok ()⟩

variable (ops : DeviceId → Operations)

/-- The bytes that are read go nowhere. -/
def handleReadDevice (s : DeviceService) (deviceId : DeviceId) (size : Nat) : Option Handled :=
  (zeroed size).map fun buffer => s.report (s.deviceManager.read ops deviceId buffer.length) fun _ => []

/-- The answer is their number. -/
def handleReadDeviceWithResponse (s : DeviceService) (deviceId : DeviceId) (size : Nat) : Option Handled :=
  (zeroed size).map fun buffer =>
    s.report (s.deviceManager.read ops deviceId buffer.length) fun bytesRead =>
      [.ok (.bytesProcessed bytesRead)]

/-- The written data are zeros. -/
def handleWriteDevice (s : DeviceService) (deviceId : DeviceId) (size : Nat) : Option Handled :=
  (zeroed size).map fun data => s.report (s.deviceManager.write ops deviceId data) fun _ => []

/-- The answer is the number of bytes that the device took. -/
def handleWriteDeviceWithResponse (s : DeviceService) (deviceId : DeviceId) (size : Nat) : Option Handled :=
  (zeroed size).map fun data =>
    s.report (s.deviceManager.write ops deviceId data) fun bytesWritten =>
      [.ok (.bytesProcessed bytesWritten)]

/-- The status is logged only. -/
def handleGetDeviceStatus (s : DeviceService) (deviceId : DeviceId) : Handled :=
  s.report (s.deviceManager.status ops deviceId) fun _ => []

/-- The answer is the name of the status. -/
def handleGetDeviceStatusWithResponse (s : DeviceService) (deviceId : DeviceId) : Handled :=
  s.report (s.deviceManager.status ops deviceId) fun status => [.ok (.string status.debug)]

/-- A handler that only writes a line. -/
def handleLogged (s : DeviceService) : Handled := ⟨s, [], .ok ()⟩

/-- The devices of the type are counted for the log. -/
def handleGetDevicesByType (s : DeviceService) (_deviceType : DeviceClass) : Handled := s.handleLogged

/-- The operations of the device are not asked. -/
def handleIoctl (s : DeviceService) (_deviceId : DeviceId) (_request : UInt64) : Handled := s.handleLogged

/-- Nothing is initialized. -/
def handleInitDevice (s : DeviceService) (_deviceId : DeviceId) : Handled := s.handleLogged

/-- Nothing is shut down. -/
def handleShutdownDevice (s : DeviceService) (_deviceId : DeviceId) : Handled := s.handleLogged

/-- Nothing is reset. -/
def handleResetDevice (s : DeviceService) (_deviceId : DeviceId) : Handled := s.handleLogged

/-- No interrupt is switched on. -/
def handleEnableInterrupt (s : DeviceService) (_deviceId _irq : UInt32) : Handled := s.handleLogged

/-- No interrupt is switched off. -/
def handleDisableInterrupt (s : DeviceService) (_deviceId _irq : UInt32) : Handled := s.handleLogged

/-- The clipboard holds text: what is not UTF-8 in the data is replaced. -/
def setClipboard (s : DeviceService) (data : List UInt8) : DeviceService :=
  { s with clipboard := fromUtf8Lossy data }

/-- The first bytes of the text. -/
def clipboardBytes (s : DeviceService) (maxSize : Nat) : List UInt8 :=
  let data := s.clipboard.toUTF8.data.toList
  data.take (min maxSize data.length)

/-- A request that nobody waits for. -/
def handleDeviceRequest (s : DeviceService) : Messaging.DeviceRequest → Option Handled
  | .clipboardSet data => some ⟨s.setClipboard data, [], .ok ()⟩
  | .clipboardGet _ => some ⟨s, [], .ok ()⟩
  | .registerDevice deviceType name => some (s.handleRegisterDevice deviceType name)
  | .unregisterDevice deviceId => some (s.handleUnregisterDevice deviceId)
  | .listDevices => some s.handleListDevices
  | .getDevicesByType deviceType => some (s.handleGetDevicesByType deviceType)
  | .read deviceId _ size => s.handleReadDevice ops deviceId size
  | .write deviceId _ size => s.handleWriteDevice ops deviceId size
  | .ioctl deviceId request _ => some (s.handleIoctl deviceId request.toUInt64)
  | .init deviceId => some (s.handleInitDevice deviceId)
  | .shutdown deviceId => some (s.handleShutdownDevice deviceId)
  | .reset deviceId => some (s.handleResetDevice deviceId)
  | .status deviceId => some (s.handleGetDeviceStatus ops deviceId)
  | .enableInterrupt deviceId irq => some (s.handleEnableInterrupt deviceId irq)
  | .disableInterrupt deviceId irq => some (s.handleDisableInterrupt deviceId irq)
  | .setConfig _ => some s.handleLogged
  | .getConfig _ => some s.handleLogged

/-- A void answer after a success. -/
def respondVoid (h : Handled) : Handled :=
  match h.result with
  | .ok () => { h with sent := h.sent ++ [.ok .void] }
  | .error _ => h

/-- A request with a response channel. The handlers without an answer of their own get a void one. -/
def handleDeviceRequestWithResponse (s : DeviceService) (req : Messaging.DeviceRequest) : Option Handled :=
  match req with
  | .clipboardSet data => some ⟨s.setClipboard data, [.ok .void], .ok ()⟩
  | .clipboardGet maxSize => some ⟨s, [.ok (.bytes (s.clipboardBytes maxSize))], .ok ()⟩
  | .registerDevice deviceType name => some (s.handleRegisterDeviceWithResponse deviceType name)
  | .unregisterDevice deviceId => some (s.handleUnregisterDeviceWithResponse deviceId)
  | .listDevices => some s.handleListDevicesWithResponse
  | .status deviceId => some (s.handleGetDeviceStatusWithResponse ops deviceId)
  | .read deviceId _ size => s.handleReadDeviceWithResponse ops deviceId size
  | .write deviceId _ size => s.handleWriteDeviceWithResponse ops deviceId size
  | req => (s.handleDeviceRequest ops req).map respondVoid

/-- What the service does with an envelope: the responses that it sends, and the service after it. A failure
of a handler is answered by the envelope. -/
def handleEnvelope (s : DeviceService) (e : Envelope) : Option (List Response × DeviceService) :=
  match e.message with
  | .device req =>
    (if e.expectsResponse then s.handleDeviceRequestWithResponse ops req
      else s.handleDeviceRequest ops req).map fun handled =>
        match handled.result with
        | .ok () => (e.respond handled.sent, handled.service)
        | .error err => (e.respond (handled.sent ++ [.error (.other 1 err.display)]), handled.service)
  | _ => some ([], s)

end DeviceService

end GenshinOs.Devices
