import GenshinOs.Lib.Server
import GenshinOs.Files.Answers
import GenshinOs.Devices.Registry

/-!
# Services behind the bus

The file service and the device service at their ends of the bus (`src/main.rs`). Their threads run beside
those of the clients and of the kernel, and each has its state for itself. Every interleaving can be
replaced by a sequential history: the services act on the envelopes one at a time, in the order in which
these were sent to them, and each request gets on its own channel what the service answers at its place in
the history (`services_atomic`).

A request can end the thread of its service. A thread that has ended takes no more turns; should a run give
it one, the envelope is lost without an answer.
-/

set_option autoImplicit false

namespace GenshinOs.Messaging

open GenshinOs.Lib GenshinOs.Files GenshinOs.Devices Transport

/-! ## Services -/

/-- A turn, with the choices of the service that acts in it: the order of its hash maps, and what the
operations of its devices report. -/
structure Move where
  turn : Turn
  ord : HashOrder
  ops : DeviceId → Operations

/-- An envelope that a service takes, with the choices of the service. -/
inductive Item where
  | file (e : Envelope) (ord : HashOrder)
  | device (e : DeviceEvent)

/-- What the file service does with an envelope (`FileService::handle_envelope`), unless it ends its thread. -/
def fileEnvelope (s : FileService) (taken : Envelope × HashOrder) : Option (List Response × FileService) :=
  match taken.1.message, taken.1.requestId with
  | .file req, some id =>
    (s.serve taken.2 req).map fun served => (served.2.map (Response.ofAnswer id), served.1)
  | .file req, none => (s.serveMessage taken.2 req).map fun s' => ([], s')
  | _, _ => some ([], s)

/-- The two services, as long as their threads run. -/
structure Services where
  file : Option FileService
  device : Option DeviceService

/-- The service of an item acts on it. -/
def Services.serve (s : Services) : Item → List Response × Services
  | .file e ord =>
    let served := untilStopped Messaging.fileEnvelope s.file (e, ord)
    (served.1, { s with file := served.2 })
  | .device e =>
    let served := DeviceService.thread s.device e
    (served.1, { s with device := served.2 })

/-- The message is for the device service. -/
def KernelMsg.isDevice : KernelMsg → Bool
  | .device _ => true
  | _ => false

/-- The request that an item asks its service to answer. -/
def Item.request : Item → Option RequestId
  | .file e _ => e.requestId
  | .device e => if e.envelope.message.isDevice then e.envelope.requestId else none

/-- The envelopes that the services take in a turn. The device service is the first subscriber after the
kernel. -/
def Transport.items (s : Transport) (m : Move) : List Item :=
  (taken .file s m.turn).map (fun e => .file e m.ord) ++
    (received 0 s m.turn).map fun e => .device ⟨e, m.ops⟩

/-- The system with its services, and the responses that they have sent, from one turn to the next. -/
def moveStep (s : Transport) (m : Move) : Transport := s.step m.turn

/-- The services with their states at the start. -/
def Services.new (file : FileService) : Services := ⟨some file, some DeviceService.new⟩

/-- The system before its first move. -/
def Services.start (file : FileService) : Transport × Services := (boot, Services.new file)

/-- The system and its services after a run. -/
def runMoves (file : FileService) (moves : List Move) : Transport × Services :=
  moves.foldl (servedStep moveStep Transport.items Services.serve) (Services.start file)

/-- What the services have put on the response channel of a request in a run. -/
def channelOf (file : FileService) (moves : List Move) (id : RequestId) : List Response :=
  (collect (servedStep moveStep Transport.items Services.serve) (replies Transport.items Services.serve)
    (Services.start file) moves).filter fun response => response.requestId = id

/-- The items of a run, in the order in which they are taken. -/
def historyOf (moves : List Move) : List Item := collect moveStep Transport.items boot moves

/-- The envelopes that the file service takes. -/
def Item.fileEnvelope : Item → Option Envelope
  | .file e _ => some e
  | .device _ => none

/-- The envelopes that the device service takes. -/
def Item.deviceEnvelope : Item → Option Envelope
  | .file _ _ => none
  | .device e => some e.envelope

/-! ## Responses -/

/-- A service answers the request of the item, and no other. -/
theorem request_of_serve (s : Services) (item : Item) :
    ∀ response ∈ (s.serve item).1, item.request = some response.requestId := by
  have hown : ∀ id (answers : List (Except MsgServiceError ResponseData)),
      ∀ response ∈ answers.map (Response.ofAnswer id), some id = some response.requestId := by
    intro id answers response hresponse
    obtain ⟨answer, -, rfl⟩ := List.mem_map.1 hresponse
    rw [requestId_ofAnswer]
  intro response hresponse
  cases item with
  | file e ord =>
    obtain ⟨t, out, hout, hin⟩ := mem_untilStopped hresponse
    obtain ⟨message, channel⟩ := e
    cases message with
    | file req =>
      cases channel with
      | none =>
        obtain ⟨s', -, rfl⟩ := Option.map_eq_some_iff.1 hout
        exact absurd hin List.not_mem_nil
      | some id =>
        obtain ⟨served, -, rfl⟩ := Option.map_eq_some_iff.1 hout
        exact hown id served.2 response hin
    | _ =>
      cases hout
      exact absurd hin List.not_mem_nil
  | device e =>
    obtain ⟨t, out, hout, hin⟩ := mem_untilStopped hresponse
    obtain ⟨⟨message, channel⟩, ops⟩ := e
    rw [DeviceService.take] at hout
    cases message with
    | device req =>
      cases channel with
      | none =>
        rw [handleEnvelope_message] at hout
        obtain ⟨handled, -, rfl⟩ := Option.map_eq_some_iff.1 hout
        exact absurd hin List.not_mem_nil
      | some id =>
        rw [handleEnvelope_request] at hout
        obtain ⟨handled, -, rfl⟩ := Option.map_eq_some_iff.1 hout
        exact hown id handled.answers response hin
    | _ =>
      cases hout
      exact absurd hin List.not_mem_nil

/-- The device service runs after some items exactly when none of them ends it. -/
theorem device_running_iff (s : Services) (items : List Item) :
    (serveAll Services.serve s items).2.device.isSome = true ↔
      s.device.isSome = true ∧ ∀ e ∈ items.filterMap Item.deviceEnvelope, Harmless e := by
  induction items generalizing s with
  | nil => simp [serveAll]
  | cons item items ih =>
    rw [serveAll, ih]
    cases item with
    | file e ord =>
      have hskipped : Item.deviceEnvelope (.file e ord) = none := rfl
      rw [List.filterMap_cons_none hskipped]
      rfl
    | device e =>
      have htaken : Item.deviceEnvelope (.device e) = some e.envelope := rfl
      rw [List.filterMap_cons_some htaken, List.forall_mem_cons, ← and_assoc,
        ← thread_running_iff s.device e]
      rfl

/-- A request to the device service is answered once when the service runs and goes on after it. -/
theorem once_device_iff (s : Services) (req : Messaging.DeviceRequest) (id : RequestId)
    (ops : DeviceId → Operations) :
    AnsweredOnce id (s.serve (.device ⟨⟨.device req, some id⟩, ops⟩)).1 ↔
      s.device.isSome = true ∧ Harmless ⟨.device req, some id⟩ := by
  have hnever : ¬AnsweredOnce id [] := by
    rintro ⟨response, hnone, -⟩
    cases hnone
  simp only [Services.serve, DeviceService.thread]
  cases hdevice : s.device with
  | none => exact iff_of_false hnever fun h => Bool.false_ne_true h.1
  | some t =>
    rw [and_iff_right (by rfl), ← isSome_envelope t ops, handleEnvelope_request]
    cases hhandled : t.handleDeviceRequestWithResponse ops req with
    | none =>
      rw [untilStopped_stopped (by rw [DeviceService.take, handleEnvelope_request, hhandled]; rfl)]
      exact iff_of_false hnever Bool.false_ne_true
    | some handled =>
      have htake : t.take ⟨⟨.device req, some id⟩, ops⟩ =
          some (handled.answers.map (Response.ofAnswer id), handled.service) := by
        rw [DeviceService.take, handleEnvelope_request, hhandled]
        rfl
      rw [untilStopped_some htake]
      exact iff_of_true (answeredOnce_map.2 (length_answers hhandled)) rfl

/-! ## History -/

/-- The file service takes from its channel. -/
theorem file_history (moves : List Move) :
    (historyOf moves).filterMap Item.fileEnvelope = takenBy .file (moves.map Move.turn) := by
  rw [historyOf, collect_filterMap, takenBy, ← collect_map]
  congr 1
  funext s m
  simp [Transport.items, List.filterMap_append, List.filterMap_map, Function.comp_def, Item.fileEnvelope]

/-- The device service takes from its subscription. -/
theorem device_history (moves : List Move) :
    (historyOf moves).filterMap Item.deviceEnvelope =
      collect step (received 0) boot (moves.map Move.turn) := by
  rw [historyOf, collect_filterMap, ← collect_map]
  congr 1
  funext s m
  simp [Transport.items, List.filterMap_append, List.filterMap_map, Function.comp_def, Item.deviceEnvelope]

/-- A run of the turns of moves. -/
theorem run_moves (s : Transport) (moves : List Move) :
    moves.foldl moveStep s = s.run (moves.map Move.turn) := by
  rw [Transport.run, List.foldl_map]
  rfl

section wired

variable {moves : List Move} {before after : List Turn}
  (hturns : moves.map Move.turn = before ++ .subscribe :: after) (hbefore : Turn.subscribe ∉ before)
  (hafter : Turn.unsubscribe 0 ∉ after)

include hturns hbefore hafter

/-- The messages since the device service has subscribed are those that it has taken, and those that wait
for it. -/
theorem sent_since :
    collect step sent ((boot.run before).step .subscribe) after =
      (historyOf moves).filterMap Item.deviceEnvelope ++ (boot.run (moves.map Move.turn)).bus.queue 1 := by
  obtain ⟨hlength, hnone⟩ := alone_run (s := boot) rfl hbefore
  have hreceived := received_eq before after hlength hafter
  rw [device_history, hturns, hreceived, collect_append, hnone, List.nil_append]
  rfl

/-- What the device service takes was sent. -/
theorem device_sublist : ((historyOf moves).filterMap Item.deviceEnvelope).Sublist
    (collect step sent boot (moves.map Move.turn)) := by
  have hsince := sent_since hturns hbefore hafter
  rw [hturns, collect_append, collect, ← run, hsince]
  exact (List.sublist_append_left _ _).trans
    ((List.sublist_append_right _ _).trans (List.sublist_append_right _ _))

/-- The device service acts on no request that the file service takes. -/
theorem file_not_device {e e' : Envelope} (he : e ∈ (historyOf moves).filterMap Item.fileEnvelope)
    (he' : e' ∈ (historyOf moves).filterMap Item.deviceEnvelope) (hdevice : e'.message.isDevice = true)
    {id : RequestId} (hid : e.requestId = some id) : e'.requestId ≠ some id := by
  intro hid'
  rw [file_history] at he
  obtain ⟨hsent, hchannel⟩ := mem_takenBy he
  have hsent' := (device_sublist hturns hbefore hafter).subset he'
  rw [sent_unique hsent hsent' hid hid'] at hchannel
  cases hmessage : e'.message with
  | device req =>
    rw [hmessage] at hchannel
    cases hchannel
  | _ =>
    rw [hmessage] at hdevice
    cases hdevice

/-- No request is taken twice in the history. -/
theorem nodup_history : ((historyOf moves).filterMap Item.request).Nodup := by
  have hfile : (historyOf moves).filterMap (fun i => i.fileEnvelope.bind Envelope.requestId) =
      requestIds (takenBy .file (moves.map Move.turn)) := by
    rw [← file_history, requestIds, List.filterMap_filterMap]
  have hdevice : (historyOf moves).filterMap (fun i =>
      (i.deviceEnvelope.filter fun e => e.message.isDevice).bind Envelope.requestId) =
      requestIds (((historyOf moves).filterMap Item.deviceEnvelope).filter fun e => e.message.isDevice) := by
    rw [requestIds, List.filter_filterMap, List.filterMap_filterMap]
  have hsublist : ∀ {es : List Envelope}, es.Sublist (collect step sent boot (moves.map Move.turn)) →
      (requestIds es).Nodup := fun h => (nodup_sent_ids (moves.map Move.turn)).sublist (h.filterMap _)
  apply nodup_filterMap_of_parts (f := fun i => i.fileEnvelope.bind Envelope.requestId)
    (g := fun i => (i.deviceEnvelope.filter fun e => e.message.isDevice).bind Envelope.requestId)
  case hparts =>
    intro item id hid
    cases item with
    | file e ord => exact Or.inl hid
    | device e =>
      right
      simp only [Item.request] at hid
      split at hid
      · next hmessage => simpa [Item.deviceEnvelope, Option.filter, hmessage] using hid
      · cases hid
  case hf =>
    rw [hfile]
    exact hsublist ((takenBy_sublist .file _).trans List.filter_sublist)
  case hg =>
    rw [hdevice]
    exact hsublist (List.filter_sublist.trans (device_sublist hturns hbefore hafter))
  case hdisjoint =>
    rw [hfile, hdevice]
    intro id hid hid'
    obtain ⟨e, he, heid⟩ := List.mem_filterMap.1 hid
    obtain ⟨e', he', heid'⟩ := List.mem_filterMap.1 hid'
    obtain ⟨hmem, hmessage⟩ := List.mem_filter.1 he'
    rw [← file_history] at he
    exact file_not_device hturns hbefore hafter he hmem hmessage heid heid'

/-- A request that the device service takes is answered once exactly when no envelope up to it ends the
service. -/
theorem device_answered_iff {file : FileService} {earlier later : List Envelope} {req : Messaging.DeviceRequest}
    {id : RequestId}
    (hsplit : (historyOf moves).filterMap Item.deviceEnvelope = earlier ++ ⟨.device req, some id⟩ :: later) :
    AnsweredOnce id (answersTo Services.serve Item.request id (Services.new file) (historyOf moves)) ↔
      ∀ e ∈ earlier ++ [⟨.device req, some id⟩], Harmless e := by
  obtain ⟨front, back, hhistory, hfront, hback⟩ := List.filterMap_eq_append_iff.1 hsplit
  obtain ⟨skipped, item, rest, rfl, hskipped, hitem, -⟩ := List.filterMap_eq_cons_iff.1 hback
  -- the request is the one of its item, and of no item before
  have howner : item.request = some id := by
    cases item with
    | file e ord => cases hitem
    | device e =>
      have he : e.envelope = ⟨.device req, some id⟩ := Option.some.inj hitem
      rw [Item.request, he]
      rfl
  have hnodup := nodup_history hturns hbefore hafter
  rw [hhistory, ← List.append_assoc, List.filterMap_append, List.filterMap_cons_some howner] at hnodup
  have hothers : ∀ other ∈ front ++ skipped, other.request ≠ some id := fun other hother hrequest =>
    (List.nodup_append.1 hnodup).2.2 id (List.mem_filterMap.2 ⟨other, hother, hrequest⟩) id
      List.mem_cons_self rfl
  have htaken : (front ++ skipped).filterMap Item.deviceEnvelope = earlier := by
    rw [List.filterMap_append, hfront, List.filterMap_eq_nil_iff.2 hskipped, List.append_nil]
  rw [hhistory, ← List.append_assoc, answersTo_append howner hothers]
  cases item with
  | file e ord => cases hitem
  | device e =>
    obtain ⟨envelope, ops⟩ := e
    cases hitem
    rw [once_device_iff, device_running_iff, htaken]
    simp [Services.new, or_imp, forall_and]

/-- Beside any threads that send, subscribe and take their turns in any order, the file service and the
device service act as if they were alone and got one envelope at a time: the file service those that were
sent to it, the device service all that were sent since it subscribed, both in the order of the sending,
without those that still wait. What a request finds on its channel is what its service answers at its
place in this history, and a device request is answered once, unless an envelope up to it has ended the
device service. -/
theorem services_atomic (file : FileService) : ∃ history : List Item,
    (runMoves file moves).2 = (serveAll Services.serve (Services.new file) history).2 ∧
    (∀ id, channelOf file moves id =
      answersTo Services.serve Item.request id (Services.new file) history) ∧
    sentFor .file (moves.map Move.turn) =
      history.filterMap Item.fileEnvelope ++ pending .file (runMoves file moves).1 ∧
    collect step sent ((boot.run before).step .subscribe) after =
      history.filterMap Item.deviceEnvelope ++ (runMoves file moves).1.bus.queue 1 ∧
    ∀ earlier req id later,
      history.filterMap Item.deviceEnvelope = earlier ++ ⟨.device req, some id⟩ :: later →
        (AnsweredOnce id (channelOf file moves id) ↔ ∀ e ∈ earlier ++ [⟨.device req, some id⟩], Harmless e) := by
  obtain ⟨hstate, hreplies⟩ := served_run moveStep Transport.items Services.serve boot (Services.new file) moves
  have hend : (runMoves file moves).1 = boot.run (moves.map Move.turn) := by
    rw [runMoves, Services.start, hstate, run_moves]
  have hchannel : ∀ id, channelOf file moves id =
      answersTo Services.serve Item.request id (Services.new file) (historyOf moves) := by
    intro id
    rw [channelOf, Services.start, hreplies]
    exact marked_serveAll request_of_serve id _ (nodup_history hturns hbefore hafter)
  refine ⟨historyOf moves, ?_, hchannel, ?_, ?_, ?_⟩
  · rw [runMoves, Services.start, hstate]
    rfl
  · rw [hend, file_history]
    exact sentFor_eq .file (moves.map Move.turn)
  · rw [hend]
    exact sent_since hturns hbefore hafter
  · intro earlier req id later hsplit
    rw [hchannel]
    exact device_answered_iff hturns hbefore hafter hsplit

end wired

/-- A client makes a directory before the device service is there, and two others use the clipboard. -/
def clipboardMoves : List Move :=
  [.sendRequest (.file (.createDirectory "/d")), .kernel, .subscribe,
    .sendRequest (.device (.clipboardSet [104, 105])), .sendRequest (.device (.clipboardGet 1)), .recv 0, .kernel,
    .take .file, .recv 0].map fun turn => ⟨turn, .stored, fun _ => ⟨fun _ => .ok 0, fun _ => .ok 0, .ready⟩⟩

/-- Both requests to the clipboard are answered once. -/
theorem services_atomic_clipboard :
    AnsweredOnce 2 (channelOf (FileService.boot 4096 256 []) clipboardMoves 2) ∧
      AnsweredOnce 3 (channelOf (FileService.boot 4096 256 []) clipboardMoves 3) := by
  have hturns : clipboardMoves.map Move.turn =
      [.sendRequest (.file (.createDirectory "/d")), .kernel] ++
        .subscribe :: [.sendRequest (.device (.clipboardSet [104, 105])),
          .sendRequest (.device (.clipboardGet 1)), .recv 0, .kernel, .take .file, .recv 0] := rfl
  obtain ⟨history, -, -, -, hdevice, honce⟩ := services_atomic hturns (by decide) (by decide)
    (FileService.boot 4096 256 [])
  have htaken : [⟨.device (.clipboardSet [104, 105]), some 2⟩, ⟨.device (.clipboardGet 1), some 3⟩] =
      history.filterMap Item.deviceEnvelope ++ [] := hdevice
  rw [List.append_nil] at htaken
  -- neither request has a buffer
  have hset : Harmless ⟨.device (.clipboardSet [104, 105]), some 2⟩ := by
    intro req hreq
    cases hreq
    decide
  have hget : Harmless ⟨.device (.clipboardGet 1), some 3⟩ := by
    intro req hreq
    cases hreq
    decide
  refine ⟨(honce [] _ 2 _ htaken.symm).2 ?_, (honce [_] _ 3 [] htaken.symm).2 ?_⟩
  · simpa using hset
  · simpa using ⟨hset, hget⟩

end GenshinOs.Messaging
