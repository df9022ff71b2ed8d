import GenshinOs.Devices.Service
import GenshinOs.Lib.Server
import Mathlib.Data.Finset.Card

/-!
# What the device service is for its clients

The devices that are registered over the bus have no operations, and no message opens a device. So all that
the clients of the service can learn is a set of numbers, the next number and a text: `Registry`. The
service answers every sequence of messages as the registry does (`service_refines_registry`). In
particular no device is ever ready, read or written, and names and types make no difference.

A read or a write of more bytes than a buffer can have ends the thread of the service. Nothing else does
(`running_iff`), and from then on nothing is answered.

The clipboard gives back what was put in last, cut to the size that is asked for (`clipboard_last_text`).
-/

set_option autoImplicit false

namespace GenshinOs.Devices

open GenshinOs.Lib GenshinOs.Messaging

/-! ## Registry -/

/-- The numbers of the registered devices, the next number, and the text of the clipboard. -/
structure Registry where
  registered : Finset DeviceId
  next : DeviceId
  clipboard : String

/-- Length of the buffer that the service makes for the request. -/
def bufferSize : Messaging.DeviceRequest → Nat
  | .read _ _ size => size
  | .write _ _ size => size
  | _ => 0

/-- There is a buffer of that length. -/
def BufferFits (req : Messaging.DeviceRequest) : Prop := bufferSize req ≤ isizeMax

instance (req : Messaging.DeviceRequest) : Decidable (BufferFits req) := inferInstanceAs (Decidable (_ ≤ _))

/-- The envelope leaves the service running, whatever state it is in. -/
def Harmless (e : Envelope) : Prop := ∀ req, e.message = .device req → BufferFits req

namespace Registry

/-- Nothing is registered, and the clipboard is empty. -/
def empty : Registry := ⟨∅, 1, ""⟩

/-- The answer to a failure. -/
def refusal (e : ServiceError) : Answer := .error (.other 1 e.display)

/-- The answer for a device that is there, or that there is none. -/
def whenRegistered (r : Registry) (id : DeviceId) (answer : Answer) : Answer :=
  if id ∈ r.registered then answer else refusal (DeviceManager.notFound id)

/-- The answer to a request, and the registry after it. -/
def perform (r : Registry) : Messaging.DeviceRequest → Answer × Registry
  | .registerDevice _ _ =>
    (.ok (.integer r.next.toUInt64), { r with registered := insert r.next r.registered, next := r.next + 1 })
  | .unregisterDevice id => (r.whenRegistered id (.ok .void), { r with registered := r.registered.erase id })
  | .listDevices => (.ok (.string ("Device count: " ++ toString r.registered.card)), r)
  | .status id => (r.whenRegistered id (.ok (.string "Initializing")), r)
  | .read id _ _ => (r.whenRegistered id (refusal (.notImplemented "Device read")), r)
  | .write id _ _ => (r.whenRegistered id (refusal (.notImplemented "Device write")), r)
  | .clipboardSet data => (.ok .void, { r with clipboard := fromUtf8Lossy data })
  | .clipboardGet maxSize => (.ok (.bytes (r.clipboard.toUTF8.data.toList.take maxSize)), r)
  | _ => (.ok .void, r)

/-- A device request is answered once where it has a channel, or ends the registry where it has no buffer.
Other messages are not answered. -/
def serve (r : Registry) (e : Envelope) : Option (List Response × Registry) :=
  match e.message with
  | .device req => if BufferFits req then some (e.respond [(r.perform req).1], (r.perform req).2) else none
  | _ => some ([], r)

end Registry

/-! ## Refinement -/

/-- The registered devices are as they were made: without operations, and not opened. -/
def Device.Untouched (d : Device) : Prop :=
  d.operations = false ∧ d.openCount = 0 ∧ d.info.status = .initializing

/-- The registry shows the service. -/
structure Shows (s : DeviceService) (r : Registry) : Prop where
  registered : ∀ id, id ∈ r.registered ↔ ∃ d, s.deviceManager.get id = some d
  untouched : ∀ id d, s.deviceManager.get id = some d → d.Untouched
  next : s.deviceManager.nextDeviceId = r.next
  clipboard : s.clipboard = r.clipboard

/-- A new service shows the empty registry. -/
theorem shows_new : Shows DeviceService.new Registry.empty where
  registered _ := iff_of_false (Finset.notMem_empty _) fun ⟨_, h⟩ => by cases h
  untouched _ _ h := by cases h
  next := rfl
  clipboard := rfl

namespace Shows

variable {s : DeviceService} {r : Registry}

/-- A question to a device that is not registered fails; to one that is, an untouched device answers. -/
theorem ask (h : Shows s r) {α : Type} (id : DeviceId) {f : Device → Except ServiceError α}
    {answer : Except ServiceError α} (hf : ∀ d, d.Untouched → f d = answer) :
    s.deviceManager.ask id f = if id ∈ r.registered then answer else .error (DeviceManager.notFound id) := by
  have hmem := h.registered id
  rw [DeviceManager.ask]
  cases hd : s.deviceManager.get id with
  | none =>
    rw [if_neg]
    rintro hin
    obtain ⟨d, hsome⟩ := hmem.1 hin
    rw [hd] at hsome
    cases hsome
  | some d =>
    rw [if_pos (hmem.2 ⟨d, hd⟩)]
    exact hf d (h.untouched id d hd)

/-- As many devices are counted as are registered. -/
theorem count (h : Shows s r) : s.deviceManager.count = r.registered.card := by
  have hkeys : s.deviceManager.devices.keys.toFinset = r.registered := by
    ext id
    rw [List.mem_toFinset, h.registered id, ← AList.mem_keys, ← AList.lookup_isSome,
      Option.isSome_iff_exists]
    rfl
  rw [DeviceManager.count, ← hkeys, List.toFinset_card_of_nodup s.deviceManager.devices.keys_nodup]

/-- A device is registered under the next number. -/
theorem register (h : Shows s r) (deviceType : DeviceClass) (name : String) :
    (s.register deviceType name).1 = r.next ∧ Shows (s.register deviceType name).2
      { r with registered := insert r.next r.registered, next := r.next + 1 } := by
  have hget := DeviceManager.get_register s.deviceManager
    (Device.new (DeviceInfo.new name (deviceClassToType deviceType) 0))
  rw [h.next] at hget
  refine ⟨h.next, ?_, ?_, congrArg (· + 1) h.next, h.clipboard⟩
  · intro id
    rw [Finset.mem_insert, h.registered id]
    simp only [DeviceService.register, hget]
    split
    · next hnew => exact iff_of_true (Or.inl hnew) ⟨_, rfl⟩
    · next hnew => simp [hnew]
  · intro id d hd
    simp only [DeviceService.register, hget] at hd
    split at hd
    · cases hd
      exact ⟨rfl, rfl, rfl⟩
    · exact h.untouched id d hd

/-- A device that is registered is never in use, so it can always be unregistered. -/
theorem unregister (h : Shows s r) (id : DeviceId) :
    (s.deviceManager.unregister id).1 =
        (if id ∈ r.registered then .ok () else .error (DeviceManager.notFound id)) ∧
      Shows { s with deviceManager := (s.deviceManager.unregister id).2 }
        { r with registered := r.registered.erase id } := by
  have hmem := h.registered id
  rw [DeviceManager.unregister]
  cases hd : s.deviceManager.get id with
  | none =>
    have hout : id ∉ r.registered := by
      intro hin
      obtain ⟨d, hsome⟩ := hmem.1 hin
      rw [hd] at hsome
      cases hsome
    rw [if_neg hout, Finset.erase_eq_of_notMem hout]
    exact ⟨rfl, h⟩
  | some d =>
    have hidle : d.inUse = false := by simp [Device.inUse, (h.untouched id d hd).2.1]
    have hget := DeviceManager.get_remove s.deviceManager id d.info
    rw [if_pos (hmem.2 ⟨d, hd⟩)]
    simp only [hidle]
    refine ⟨rfl, ?_, ?_, h.next, h.clipboard⟩
    · intro id'
      rw [Finset.mem_erase, h.registered id']
      simp only [Bool.false_eq_true, if_false, hget]
      split
      · next hsame => simp [hsame]
      · next hother => simp [hother]
    · intro id' d' hd'
      simp only [Bool.false_eq_true, if_false, hget] at hd'
      split at hd'
      · cases hd'
      · exact h.untouched id' d' hd'

end Shows

/-! ## Answers of the handlers -/

/-- What the channel of a request gets: what the handler sends, and its failure. -/
def Handled.answers (h : Handled) : List Answer :=
  match h.result with
  | .ok () => h.sent
  | .error e => h.sent ++ [Registry.refusal e]

/-- A request with a channel gets the answers of its handler. -/
theorem handleEnvelope_request (s : DeviceService) (ops : DeviceId → Operations)
    (req : Messaging.DeviceRequest) (id : RequestId) :
    s.handleEnvelope ops ⟨.device req, some id⟩ = (s.handleDeviceRequestWithResponse ops req).map
      fun handled => (handled.answers.map (Response.ofAnswer id), handled.service) := by
  simp only [DeviceService.handleEnvelope, Envelope.expectsResponse, Option.isSome_some, if_true,
    Envelope.respond]
  congr 1
  funext handled
  rw [Handled.answers]
  cases handled.result with
  | ok u => rfl
  | error e => rfl

/-- Without a channel all answers go nowhere. -/
theorem handleEnvelope_message (s : DeviceService) (ops : DeviceId → Operations)
    (req : Messaging.DeviceRequest) :
    s.handleEnvelope ops ⟨.device req, none⟩ =
      (s.handleDeviceRequest ops req).map fun handled => ([], handled.service) := by
  simp only [DeviceService.handleEnvelope, Envelope.expectsResponse, Option.isSome_none, Bool.false_eq_true,
    if_false, Envelope.respond]
  congr 1
  funext handled
  cases handled.result with
  | ok u => rfl
  | error e => rfl

/-- There is a buffer when its size is one of a vector. -/
theorem isSome_zeroed {α : Type} (size : Nat) (f : List UInt8 → α) :
    ((zeroed size).map f).isSome = true ↔ size ≤ isizeMax := by
  rw [Option.isSome_map, zeroed]
  split
  · next h => exact iff_of_true rfl h
  · next h => exact iff_of_false Bool.false_ne_true h

/-- A message ends the service exactly when there is no buffer for it. -/
theorem isSome_message (s : DeviceService) (ops : DeviceId → Operations) (req : Messaging.DeviceRequest) :
    (s.handleDeviceRequest ops req).isSome = true ↔ BufferFits req := by
  cases req with
  | read id buf size => exact isSome_zeroed size _
  | write id buf size => exact isSome_zeroed size _
  | _ => exact iff_of_true rfl (Nat.zero_le isizeMax)

/-- A handler comes to its end when its buffer fits, -/
theorem isSome_request (s : DeviceService) (ops : DeviceId → Operations) (req : Messaging.DeviceRequest) :
    (s.handleDeviceRequestWithResponse ops req).isSome = true ↔ BufferFits req := by
  cases req with
  | read id buf size => exact isSome_zeroed size _
  | write id buf size => exact isSome_zeroed size _
  | _ => exact iff_of_true rfl (Nat.zero_le isizeMax)

/-- and so does the thread with an envelope. -/
theorem isSome_envelope (s : DeviceService) (ops : DeviceId → Operations) (e : Envelope) :
    (s.handleEnvelope ops e).isSome = true ↔ Harmless e := by
  obtain ⟨message, channel⟩ := e
  cases message with
  | device req =>
    have hharmless : Harmless ⟨.device req, channel⟩ ↔ BufferFits req := by
      constructor
      · intro h
        exact h req rfl
      · intro h req' hreq
        cases hreq
        exact h
    rw [hharmless]
    cases channel with
    | none =>
      rw [handleEnvelope_message, Option.isSome_map]
      exact isSome_message s ops req
    | some id =>
      rw [handleEnvelope_request, Option.isSome_map]
      exact isSome_request s ops req
  | _ => exact iff_of_true rfl fun req hreq => nomatch hreq

/-- A report changes nothing. -/
theorem report_service {α : Type} (s : DeviceService) (result : Except ServiceError α)
    (answer : α → List Answer) : (s.report result answer).service = s := by
  cases result with
  | ok a => rfl
  | error e => rfl

namespace Shows

variable {s : DeviceService} {r : Registry}

/-- No device has operations: a read of one that is registered is not implemented, -/
theorem read (h : Shows s r) (ops : DeviceId → Operations) (id : DeviceId) (size : Nat) :
    s.deviceManager.read ops id size = if id ∈ r.registered then .error (.notImplemented "Device read")
      else .error (DeviceManager.notFound id) := by
  apply h.ask
  intro d hd
  rw [Device.read, hd.1]
  rfl

/-- nor is a write, -/
theorem write (h : Shows s r) (ops : DeviceId → Operations) (id : DeviceId) (data : List UInt8) :
    s.deviceManager.write ops id data = if id ∈ r.registered then .error (.notImplemented "Device write")
      else .error (DeviceManager.notFound id) := by
  apply h.ask
  intro d hd
  rw [Device.write, hd.1]
  rfl

/-- and its status is that it is being initialised. -/
theorem status (h : Shows s r) (ops : DeviceId → Operations) (id : DeviceId) :
    s.deviceManager.status ops id =
      if id ∈ r.registered then .ok .initializing else .error (DeviceManager.notFound id) := by
  apply h.ask
  intro d hd
  rw [Device.status, hd.1, hd.2.2]
  rfl

/-- A message without channel changes the service as the registry says. -/
theorem message (h : Shows s r) {ops : DeviceId → Operations} {req : Messaging.DeviceRequest}
    {handled : Handled} (hhandled : s.handleDeviceRequest ops req = some handled) :
    Shows handled.service (r.perform req).2 := by
  cases req with
  | clipboardSet data =>
    cases hhandled
    exact ⟨h.registered, h.untouched, h.next, rfl⟩
  | registerDevice deviceType name =>
    cases hhandled
    exact (h.register deviceType name).2
  | unregisterDevice id =>
    cases hhandled
    rw [DeviceService.handleUnregisterDevice, DeviceService.unregister, report_service]
    exact (h.unregister id).2
  | read id buf size =>
    obtain ⟨buffer, -, rfl⟩ := Option.map_eq_some_iff.1 hhandled
    rw [report_service]
    exact h
  | write id buf size =>
    obtain ⟨data, -, rfl⟩ := Option.map_eq_some_iff.1 hhandled
    rw [report_service]
    exact h
  | status id =>
    cases hhandled
    rw [DeviceService.handleGetDeviceStatus, report_service]
    exact h
  | _ =>
    cases hhandled
    exact h

/-- A report on a device is answered once, and changes nothing. -/
theorem reported {α : Type} (h : Shows s r) {id : DeviceId} {result there : Except ServiceError α}
    {answer : α → Answer} {expected : Answer}
    (hresult : result = if id ∈ r.registered then there else .error (DeviceManager.notFound id))
    (hthere : (s.report there fun a => [answer a]).answers = [expected]) :
    (s.report result fun a => [answer a]).answers = [r.whenRegistered id expected] ∧
      Shows (s.report result fun a => [answer a]).service r := by
  rw [report_service, hresult, Registry.whenRegistered]
  refine ⟨?_, h⟩
  split
  · exact hthere
  · rfl

/-- A request is answered once, and changes the service, as the registry says. -/
theorem request (h : Shows s r) {ops : DeviceId → Operations} {req : Messaging.DeviceRequest}
    {handled : Handled} (hhandled : s.handleDeviceRequestWithResponse ops req = some handled) :
    handled.answers = [(r.perform req).1] ∧ Shows handled.service (r.perform req).2 := by
  cases req with
  | clipboardSet data =>
    cases hhandled
    exact ⟨rfl, h.registered, h.untouched, h.next, rfl⟩
  | clipboardGet maxSize =>
    cases hhandled
    refine ⟨?_, h⟩
    show [Except.ok (ResponseData.bytes (s.clipboardBytes maxSize))] =
      [Except.ok (ResponseData.bytes (r.clipboard.toUTF8.data.toList.take maxSize))]
    rw [DeviceService.clipboardBytes, h.clipboard, ← List.take_eq_take_min]
  | registerDevice deviceType name =>
    cases hhandled
    obtain ⟨hnumber, hshows⟩ := h.register deviceType name
    refine ⟨?_, hshows⟩
    show [Except.ok (ResponseData.integer (s.register deviceType name).1.toUInt64)] = _
    rw [hnumber]
    rfl
  | unregisterDevice id =>
    cases hhandled
    obtain ⟨hresult, hshows⟩ := h.unregister id
    rw [DeviceService.handleUnregisterDeviceWithResponse, DeviceService.unregister, report_service]
    refine ⟨?_, hshows⟩
    show (DeviceService.report _ (s.deviceManager.unregister id).1 fun _ => [Except.ok .void]).answers =
      [r.whenRegistered id (.ok .void)]
    rw [hresult, Registry.whenRegistered]
    by_cases hin : id ∈ r.registered
    · rw [if_pos hin, if_pos hin]
      rfl
    · rw [if_neg hin, if_neg hin]
      rfl
  | listDevices =>
    cases hhandled
    refine ⟨?_, h⟩
    show [Except.ok (ResponseData.string ("Device count: " ++ toString s.deviceManager.count))] = _
    rw [h.count]
    rfl
  | status id =>
    cases hhandled
    exact h.reported (h.status ops id) rfl
  | read id buf size =>
    obtain ⟨buffer, -, rfl⟩ := Option.map_eq_some_iff.1 hhandled
    exact h.reported (h.read ops id buffer.length) rfl
  | write id buf size =>
    obtain ⟨data, -, rfl⟩ := Option.map_eq_some_iff.1 hhandled
    exact h.reported (h.write ops id data) rfl
  | _ =>
    cases hhandled
    exact ⟨rfl, h⟩

/-- One envelope is answered, and changes the service, as the registry says, or it ends both. -/
theorem envelope (h : Shows s r) (ops : DeviceId → Operations) (e : Envelope) :
    Option.Rel (fun out out' => out.1 = out'.1 ∧ Shows out.2 out'.2) (s.handleEnvelope ops e) (r.serve e) := by
  obtain ⟨message, channel⟩ := e
  cases message with
  | device req =>
    have hends : ∀ {o : Option Handled}, (o.isSome = true ↔ BufferFits req) → o = none → ¬BufferFits req :=
      fun hiff hnone hfits => by
        rw [← hiff, hnone] at hfits
        cases hfits
    simp only [Registry.serve]
    cases channel with
    | none =>
      have hsome := isSome_message s ops req
      rw [handleEnvelope_message]
      cases hhandled : s.handleDeviceRequest ops req with
      | none =>
        rw [if_neg (hends hsome hhandled)]
        exact .none
      | some handled =>
        rw [if_pos (hsome.1 (by rw [hhandled]; rfl))]
        exact .some ⟨rfl, h.message hhandled⟩
    | some id =>
      have hsome := isSome_request s ops req
      rw [handleEnvelope_request]
      cases hhandled : s.handleDeviceRequestWithResponse ops req with
      | none =>
        rw [if_neg (hends hsome hhandled)]
        exact .none
      | some handled =>
        obtain ⟨hanswers, hshows⟩ := h.request hhandled
        rw [if_pos (hsome.1 (by rw [hhandled]; rfl)), Option.map_some, hanswers]
        exact .some ⟨rfl, hshows⟩
  | _ => exact .some ⟨rfl, h⟩

end Shows

/-- Whatever the devices are, a request is answered exactly once. -/
theorem length_answers {s : DeviceService} {ops : DeviceId → Operations} {req : Messaging.DeviceRequest}
    {handled : Handled} (h : s.handleDeviceRequestWithResponse ops req = some handled) :
    handled.answers.length = 1 := by
  have hreport : ∀ {α : Type} (s : DeviceService) (result : Except ServiceError α) (answer : α → Answer),
      (s.report result fun a => [answer a]).answers.length = 1 := by
    intro α s result answer
    cases result with
    | ok a => rfl
    | error e => rfl
  cases req with
  | unregisterDevice id =>
    cases h
    exact hreport _ _ _
  | status id =>
    cases h
    exact hreport _ _ _
  | read id buf size =>
    obtain ⟨buffer, -, rfl⟩ := Option.map_eq_some_iff.1 h
    exact hreport _ _ _
  | write id buf size =>
    obtain ⟨data, -, rfl⟩ := Option.map_eq_some_iff.1 h
    exact hreport _ _ _
  | _ =>
    cases h
    rfl

/-! ## Runs -/

/-- An envelope with what the operations of the devices would report. -/
structure DeviceEvent where
  envelope : Envelope
  ops : DeviceId → Operations

/-- The service takes an envelope from the bus. -/
def DeviceService.take (s : DeviceService) (e : DeviceEvent) : Option (List Response × DeviceService) :=
  s.handleEnvelope e.ops e.envelope

/-- The thread of the service takes an envelope, unless it has ended. -/
def DeviceService.thread : Option DeviceService → DeviceEvent → List Response × Option DeviceService :=
  untilStopped DeviceService.take

/-- The same of the registry. -/
def Registry.thread : Option Registry → DeviceEvent → List Response × Option Registry :=
  untilStopped fun r e => r.serve e.envelope

/-- The service after these events, unless its thread has ended. -/
def DeviceService.run (s : Option DeviceService) (events : List DeviceEvent) : Option DeviceService :=
  events.foldl (fun s e => (thread s e).2) s

/-- On every sequence of messages the service sends the responses of the registry. -/
theorem service_refines_registry (events : List DeviceEvent) :
    outputs DeviceService.thread (some DeviceService.new) events =
      outputs Registry.thread (some Registry.empty) events :=
  outputs_eq_of_related (R := Option.Rel Shows)
    (fun _ _ e h => untilStopped_related (fun _ _ e' hshows => hshows.envelope e'.ops e'.envelope) h e)
    (.some shows_new) events

/-- The thread runs after an event exactly when it ran before, and the event is harmless. -/
theorem thread_running_iff (o : Option DeviceService) (e : DeviceEvent) :
    (DeviceService.thread o e).2.isSome = true ↔ o.isSome = true ∧ Harmless e.envelope := by
  have htaken : ∀ (s : DeviceService) (e : DeviceEvent), (s.take e).isSome = true ↔ Harmless e.envelope :=
    fun s e => isSome_envelope s e.ops e.envelope
  exact untilStopped_running_iff htaken o e

/-- The thread runs after the events exactly when each of them is harmless. -/
theorem running_iff (o : Option DeviceService) (events : List DeviceEvent) :
    (DeviceService.run o events).isSome = true ↔ o.isSome = true ∧ ∀ e ∈ events, Harmless e.envelope := by
  induction events generalizing o with
  | nil => simp [DeviceService.run]
  | cons e events ih =>
    rw [List.forall_mem_cons, ← and_assoc, ← thread_running_iff o e]
    exact ih _

/-! ## Clipboard -/

/-- Bytes of a text in UTF-8. -/
def encoded (text : String) : List UInt8 := text.toUTF8.data.toList

/-- The data that are put into the clipboard, after the message. -/
def dataAfter (data : List UInt8) (e : DeviceEvent) : List UInt8 :=
  match e.envelope.message with
  | .device (.clipboardSet data') => data'
  | _ => data

/-- The data that a run put into the clipboard last. -/
def lastData (events : List DeviceEvent) : List UInt8 := events.foldl dataAfter []

/-- After an envelope the clipboard has the text of the data that were put in last. -/
theorem clipboard_serve {r : Registry} {data : List UInt8} (h : r.clipboard = fromUtf8Lossy data)
    {e : DeviceEvent} {out : List Response × Registry} (hout : r.serve e.envelope = some out) :
    out.2.clipboard = fromUtf8Lossy (dataAfter data e) := by
  obtain ⟨⟨message, channel⟩, ops⟩ := e
  cases message with
  | device req =>
    simp only [Registry.serve] at hout
    split at hout
    · cases hout
      cases req with
      | clipboardSet data' => rfl
      | _ => exact h
    · cases hout
  | _ =>
    cases hout
    exact h

/-- After harmless events the thread runs, and the clipboard has the text of the last data. -/
theorem clipboard_run {s : DeviceService} {r : Registry} {data : List UInt8} (hshows : Shows s r)
    (h : r.clipboard = fromUtf8Lossy data) {events : List DeviceEvent}
    (hharmless : ∀ e ∈ events, Harmless e.envelope) :
    ∃ s', DeviceService.run (some s) events = some s' ∧
      s'.clipboard = fromUtf8Lossy (events.foldl dataAfter data) := by
  induction events generalizing s r data with
  | nil => exact ⟨s, rfl, hshows.clipboard.trans h⟩
  | cons e events ih =>
    obtain ⟨hfirst, hrest⟩ := List.forall_mem_cons.1 hharmless
    obtain ⟨out, hout⟩ := Option.isSome_iff_exists.1 ((isSome_envelope s e.ops e.envelope).2 hfirst)
    -- the registry goes on as well
    have hrel := hshows.envelope e.ops e.envelope
    rw [hout] at hrel
    generalize hserve : r.serve e.envelope = served at hrel
    cases hrel with
    | some hboth =>
      obtain ⟨s', hrun, hclipboard⟩ := ih hboth.2 (clipboard_serve h hserve) hrest
      refine ⟨s', ?_, hclipboard⟩
      rw [DeviceService.run, List.foldl_cons, DeviceService.thread, untilStopped_some (by exact hout)]
      exact hrun

/-- After messages that leave the service running, a request for the clipboard gets the first bytes of what
was put in last: those of the data, where these are UTF-8, and else those of the repaired text. The request
changes nothing, nor does it to put in again what one got in full. -/
theorem clipboard_last_text (events : List DeviceEvent) (hharmless : ∀ e ∈ events, Harmless e.envelope)
    (ops : DeviceId → Operations) (id : RequestId) (maxSize : Nat) :
    ∃ s, DeviceService.run (some DeviceService.new) events = some s ∧
      s.handleEnvelope ops ⟨.device (.clipboardGet maxSize), some id⟩ =
        some ([.success id (.bytes ((encoded (fromUtf8Lossy (lastData events))).take maxSize))], s) ∧
      (∀ text, lastData events = encoded text →
        encoded (fromUtf8Lossy (lastData events)) = lastData events) ∧
      s.setClipboard (encoded (fromUtf8Lossy (lastData events))) = s := by
  have hempty : Registry.empty.clipboard = fromUtf8Lossy [] := rfl
  obtain ⟨s, hrun, hclipboard⟩ := clipboard_run shows_new hempty hharmless
  have hback : ∀ text, fromUtf8Lossy (encoded text) = text := fromUtf8Lossy_toUTF8
  refine ⟨s, hrun, ?_, ?_, ?_⟩
  · show some ([Response.success id (.bytes (s.clipboardBytes maxSize))], s) = _
    rw [DeviceService.clipboardBytes, hclipboard, ← List.take_eq_take_min]
    rfl
  · intro text htext
    rw [htext, hback]
  · rw [DeviceService.setClipboard, hback, lastData, ← hclipboard]

/-- Three letters are put in, a device that is not there is read, and two letters are asked for. -/
theorem clipboard_last_text_two :
    ∃ s, DeviceService.run (some DeviceService.new)
        ([.device (.clipboardSet [104, 105, 106]), .device (.read 1 0 8)].map fun message =>
          ⟨⟨message, none⟩, fun _ => ⟨fun _ => .ok 0, fun _ => .ok 0, .ready⟩⟩) = some s ∧
      s.handleEnvelope (fun _ => ⟨fun _ => .ok 0, fun _ => .ok 0, .ready⟩)
        ⟨.device (.clipboardGet 2), some 4⟩ = some ([.success 4 (.bytes [104, 105])], s) := by
  have hharmless : ∀ e ∈ ([.device (.clipboardSet [104, 105, 106]), .device (.read 1 0 8)].map
      fun message => ⟨⟨message, none⟩, fun _ => ⟨fun _ => .ok 0, fun _ => .ok 0, .ready⟩⟩ : List DeviceEvent),
      Harmless e.envelope := by
    simp only [List.map_cons, List.map_nil, List.forall_mem_cons]
    refine ⟨?_, ?_, fun e he => absurd he List.not_mem_nil⟩
    · intro req hreq
      cases hreq
      decide
    · intro req hreq
      cases hreq
      decide
  obtain ⟨s, hrun, hanswer, htext, -⟩ := clipboard_last_text _ hharmless
    (fun _ => ⟨fun _ => .ok 0, fun _ => .ok 0, .ready⟩) 4 2
  refine ⟨s, hrun, ?_⟩
  rw [hanswer, htext "hij" (by decide)]
  rfl

end GenshinOs.Devices
