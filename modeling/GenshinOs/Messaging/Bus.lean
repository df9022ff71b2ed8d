import GenshinOs.Lib.Fifo
import GenshinOs.Messaging

/-!
# Message bus and kernel

The bus sends every message to all its subscribers (`LockedBus` in `src/messaging/bus.rs`), and the kernel,
the first of them, passes the messages on to the channels of the services (`src/services/kernel.rs`,
`src/main.rs`). Any thread may send, and the kernel and each service take one envelope at a time, in any
order of turns.

No message is lost, doubled or overtaken on its way to the one service that it is for, and the identifiers
of the requests do not repeat: `messages_conveyed`.
-/

set_option autoImplicit false

namespace GenshinOs.Messaging

open GenshinOs.Lib

/-! ## Messages -/

/-- Device class. -/
inductive DeviceClass where
  | block
  | char
  | network
  | timer
  | graphics
  | clipboard
  | unknown
  deriving DecidableEq, Repr

/-- Requests to the device service, those that no system call sends included. -/
inductive DeviceRequest where
  | read (deviceId : UInt32) (buf : VirtAddr) (size : Nat)
  | write (deviceId : UInt32) (buf : VirtAddr) (size : Nat)
  | init (deviceId : UInt32)
  | shutdown (deviceId : UInt32)
  | reset (deviceId : UInt32)
  | status (deviceId : UInt32)
  | registerDevice (deviceType : DeviceClass) (name : String)
  | unregisterDevice (deviceId : UInt32)
  | listDevices
  | getDevicesByType (deviceType : DeviceClass)
  | ioctl (deviceId : UInt32) (request : UInt32) (arg : VirtAddr)
  | enableInterrupt (deviceId irq : UInt32)
  | disableInterrupt (deviceId irq : UInt32)
  | setConfig (deviceId : UInt32)
  | getConfig (deviceId : UInt32)
  | clipboardSet (data : List UInt8)
  | clipboardGet (maxSize : Nat)
  deriving DecidableEq, Repr

/-- Messages on the bus, with the device requests in full. -/
inductive KernelMsg where
  | syscall (req : Syscall)
  | interrupt (int : Interrupt)
  | process (req : ProcessRequest)
  | memory (req : MemoryRequest)
  | file (req : FileRequest)
  | device (req : DeviceRequest)
  deriving DecidableEq

/-- A message with the identifier of its response channel, if it is a request. -/
structure Envelope where
  message : KernelMsg
  requestId : Option RequestId
  deriving DecidableEq

namespace Envelope

/-- An envelope that nobody waits for. -/
def fireAndForget (message : KernelMsg) : Envelope := ⟨message, none⟩

/-- An envelope with the channel of a request. -/
def withResponse (message : KernelMsg) (requestId : RequestId) : Envelope := ⟨message, some requestId⟩

/-- Somebody waits for a response. -/
def expectsResponse (e : Envelope) : Bool := e.requestId.isSome

/-- The responses that an envelope makes of answers. Without a channel they go nowhere. -/
def respond (e : Envelope) (answers : List (Except MsgServiceError ResponseData)) : List Response :=
  match e.requestId with
  | some id => answers.map (Response.ofAnswer id)
  | none => []

end Envelope

/-! ## Bus -/

/-- Errors of the bus. -/
inductive BusError where
  | disconnected
  | full
  | noReceiver (messageType : String)
  deriving DecidableEq, Repr

/-- What each subscriber has still to take, for those whose receiver is there. -/
structure LockedBus where
  subscribers : List (Option (List Envelope))
  deriving DecidableEq

namespace LockedBus

/-- A bus that nobody listens to. -/
def new : LockedBus := ⟨[]⟩

/-- One copy for every subscriber. A queue without receiver refuses it, which is ignored. -/
def broadcast (b : LockedBus) (e : Envelope) : LockedBus :=
  ⟨b.subscribers.map fun queue => queue.map (· ++ [e])⟩

/-- Send a message to all. Without a subscriber it is lost. -/
def send (b : LockedBus) (msg : KernelMsg) : LockedBus :=
  if b.subscribers.isEmpty then b else b.broadcast (Envelope.fireAndForget msg)

/-- Send a request; its identifier is taken when there is a subscriber. -/
def sendRequest (b : LockedBus) (msg : KernelMsg) (nextRequestId : RequestId) : Except BusError LockedBus :=
  if b.subscribers.isEmpty then .error .disconnected
  else .ok (b.broadcast (Envelope.withResponse msg nextRequestId))

/-- One more subscriber. -/
def subscribe (b : LockedBus) : LockedBus := ⟨b.subscribers ++ [some []]⟩

/-- The receiver of a subscriber goes away. -/
def unsubscribe (b : LockedBus) (k : Nat) : LockedBus := ⟨b.subscribers.set k none⟩

/-- What a subscriber has still to take. -/
def queue (b : LockedBus) (k : Nat) : List Envelope := (b.subscribers.getD k none).getD []

/-- A subscriber takes its next envelope. -/
def recv (b : LockedBus) (k : Nat) : LockedBus :=
  ⟨b.subscribers.set k ((b.subscribers.getD k none).map List.tail)⟩

/-- The subscriber is there. -/
def Attached (b : LockedBus) (k : Nat) : Prop := ∃ queue, b.subscribers[k]? = some (some queue)

theorem queue_eq {b : LockedBus} {k : Nat} {waiting : List Envelope}
    (h : b.subscribers[k]? = some (some waiting)) : b.queue k = waiting := by
  simp [queue, h]

theorem Attached.not_isEmpty {b : LockedBus} {k : Nat} (h : b.Attached k) :
    b.subscribers.isEmpty = false := by
  obtain ⟨waiting, hk⟩ := h
  cases hs : b.subscribers with
  | nil => simp [hs] at hk
  | cons q qs => rfl

theorem Attached.broadcast {b : LockedBus} {k : Nat} (h : b.Attached k) (e : Envelope) :
    (b.broadcast e).Attached k ∧ (b.broadcast e).queue k = b.queue k ++ [e] := by
  obtain ⟨waiting, hk⟩ := h
  have hafter : (b.broadcast e).subscribers[k]? = some (some (waiting ++ [e])) := by
    simp [LockedBus.broadcast, hk]
  exact ⟨⟨_, hafter⟩, by rw [queue_eq hafter, queue_eq hk]⟩

theorem Attached.subscribe {b : LockedBus} {k : Nat} (h : b.Attached k) :
    b.subscribe.Attached k ∧ b.subscribe.queue k = b.queue k := by
  obtain ⟨waiting, hk⟩ := h
  have hlt : k < b.subscribers.length := List.getElem?_eq_some_iff.1 hk |>.1
  have hafter : b.subscribe.subscribers[k]? = some (some waiting) := by
    rw [LockedBus.subscribe, List.getElem?_append_left hlt, hk]
  exact ⟨⟨_, hafter⟩, by rw [queue_eq hafter, queue_eq hk]⟩

/-- A new subscriber has nothing to take. -/
theorem attached_subscribe (b : LockedBus) :
    b.subscribe.Attached b.subscribers.length ∧ b.subscribe.queue b.subscribers.length = [] := by
  have hafter : b.subscribe.subscribers[b.subscribers.length]? = some (some []) := by
    simp [LockedBus.subscribe]
  exact ⟨⟨_, hafter⟩, queue_eq hafter⟩

/-- What another subscriber does is not seen. -/
theorem Attached.set {b : LockedBus} {k j : Nat} (h : b.Attached k) (hne : j ≠ k)
    (other : Option (List Envelope)) :
    (⟨b.subscribers.set j other⟩ : LockedBus).Attached k ∧
      (⟨b.subscribers.set j other⟩ : LockedBus).queue k = b.queue k := by
  obtain ⟨waiting, hk⟩ := h
  have hafter : (b.subscribers.set j other)[k]? = some (some waiting) := by
    rw [List.getElem?_set_ne hne, hk]
  exact ⟨⟨_, hafter⟩, by rw [queue_eq hafter, queue_eq hk]⟩

theorem Attached.recv {b : LockedBus} {k : Nat} (h : b.Attached k) :
    (b.recv k).Attached k ∧ (b.recv k).queue k = (b.queue k).tail := by
  obtain ⟨waiting, hk⟩ := h
  have hlt : k < b.subscribers.length := List.getElem?_eq_some_iff.1 hk |>.1
  have hafter : (b.recv k).subscribers[k]? = some (some waiting.tail) := by
    simp [LockedBus.recv, hk, List.getElem?_set_self hlt]
  exact ⟨⟨_, hafter⟩, by rw [queue_eq hafter, queue_eq hk]⟩

end LockedBus

/-! ## Kernel -/

/-- The channels from the kernel to the services. -/
inductive Channel where
  | process
  | interrupt
  | memory
  | file
  deriving DecidableEq, Repr

/-- The channel that the kernel routes a message to. Nothing is routed to the device service. -/
def KernelMsg.channel : KernelMsg → Option Channel
  | .interrupt _ => some .interrupt
  | .process _ => some .process
  | .syscall _ => some .process
  | .memory _ => some .memory
  | .file _ => some .file
  | .device _ => none

/-- The message of the envelope is for this channel. -/
def Envelope.isFor (c : Channel) (e : Envelope) : Bool := e.message.channel == some c

/-- The bus, what the services have still to take from the kernel, and the counter of the requests. The
kernel is the subscriber with number 0. -/
structure Transport where
  nextRequestId : RequestId
  bus : LockedBus
  channels : Channel → List Envelope

namespace Transport

/-- The kernel has subscribed before anything is sent. -/
def boot : Transport := ⟨1, LockedBus.new.subscribe, fun _ => []⟩

/-- Put the envelope into the channel of its service. -/
def route (s : Transport) (e : Envelope) : Transport :=
  match e.message.channel with
  | some c => { s with channels := Function.update s.channels c (s.channels c ++ [e]) }
  | none => s

/-- One turn of the kernel: it waits for an envelope, and routes it. -/
def kernelTurn (s : Transport) : Transport :=
  match s.bus.queue 0 with
  | e :: _ => { s with bus := s.bus.recv 0 }.route e
  | [] => s

end Transport

/-- What a thread does: it sends a message or a request, starts to listen to the bus or stops, or takes
its next envelope. The subscribers other than the kernel are counted from 0. -/
inductive Turn where
  | send (msg : KernelMsg)
  | sendRequest (msg : KernelMsg)
  | subscribe
  | unsubscribe (k : Nat)
  | kernel
  | take (c : Channel)
  | recv (k : Nat)
  deriving DecidableEq

namespace Transport

/-- One turn. -/
def step (s : Transport) : Turn → Transport
  | .send msg => { s with bus := s.bus.send msg }
  | .sendRequest msg =>
    match s.bus.sendRequest msg s.nextRequestId with
    | .ok bus => { s with nextRequestId := s.nextRequestId + 1, bus := bus }
    | .error _ => s
  | .subscribe => { s with bus := s.bus.subscribe }
  | .unsubscribe k => { s with bus := s.bus.unsubscribe (k + 1) }
  | .kernel => s.kernelTurn
  | .take c => { s with channels := Function.update s.channels c (s.channels c).tail }
  | .recv k => { s with bus := s.bus.recv (k + 1) }

/-- Turns one after the other. -/
def run (s : Transport) (turns : List Turn) : Transport := turns.foldl step s

/-- The envelope that a turn puts on the bus. -/
def sent (s : Transport) : Turn → List Envelope
  | .send msg => [Envelope.fireAndForget msg]
  | .sendRequest msg =>
    match s.bus.sendRequest msg s.nextRequestId with
    | .ok _ => [Envelope.withResponse msg s.nextRequestId]
    | .error _ => []
  | _ => []

/-- The envelope that a service takes from its channel in a turn. -/
def taken (c : Channel) (s : Transport) : Turn → List Envelope
  | .take c' => if c' = c then (s.channels c).head?.toList else []
  | _ => []

/-- The envelope that a subscriber other than the kernel takes in a turn. -/
def received (k : Nat) (s : Transport) : Turn → List Envelope
  | .recv k' => if k' = k then (s.bus.queue (k + 1)).head?.toList else []
  | _ => []

/-- What has been sent for a service and not been taken by it. -/
def pending (c : Channel) (s : Transport) : List Envelope :=
  s.channels c ++ (s.bus.queue 0).filter (Envelope.isFor c)

/-! ## One turn -/

/-- The kernel listens. -/
def Listening (s : Transport) : Prop := s.bus.Attached 0

theorem listening_boot : boot.Listening := (LockedBus.attached_subscribe LockedBus.new).1

theorem route_bus (s : Transport) (e : Envelope) : (s.route e).bus = s.bus := by
  rw [route]
  split
  · rfl
  · rfl

/-- The envelope goes behind those that wait for its service. -/
theorem route_channels (s : Transport) (e : Envelope) (c : Channel) :
    (s.route e).channels c = s.channels c ++ [e].filter (Envelope.isFor c) := by
  rw [route]
  cases hc : e.message.channel with
  | none => simp [Envelope.isFor, hc]
  | some c' =>
    by_cases hsame : c = c'
    · subst hsame
      simp [Envelope.isFor, hc]
    · have hother : (some c' == some c) = false := by simp [Ne.symm hsame]
      simp [Envelope.isFor, hc, Function.update_of_ne hsame, Ne.symm hsame]

/-- The kernel takes its next envelope from the bus. -/
theorem kernelTurn_bus (s : Transport) (h : s.Listening) : s.kernelTurn.bus.Attached 0 ∧
    s.kernelTurn.bus.queue 0 = (s.bus.queue 0).tail := by
  rw [kernelTurn]
  cases hqueue : s.bus.queue 0 with
  | nil => exact ⟨h, hqueue⟩
  | cons e rest =>
    have hrecv := LockedBus.Attached.recv h
    rw [hqueue] at hrecv
    exact (route_bus { s with bus := s.bus.recv 0 } e).symm ▸ hrecv

end Transport

/-- The subscriber takes an envelope in this turn. -/
def Turn.takesFrom (j : Nat) : Turn → Bool
  | .kernel => j == 0
  | .recv k => k + 1 == j
  | _ => false

/-- The subscriber goes away in this turn. -/
def Turn.leaves (j : Nat) : Turn → Bool
  | .unsubscribe k => k + 1 == j
  | _ => false

namespace Transport

/-- In each turn a subscriber gets what is sent, behind what it has, or takes what is first. -/
theorem queue_step {s : Transport} {j : Nat} (h : s.bus.Attached j) {t : Turn} (hstay : t.leaves j = false) :
    (s.step t).bus.Attached j ∧ (s.step t).bus.queue j =
      if t.takesFrom j then (s.bus.queue j).tail else s.bus.queue j ++ s.sent t := by
  cases t with
  | send msg =>
    simp only [step, LockedBus.send, h.not_isEmpty, Turn.takesFrom, sent]
    exact h.broadcast _
  | sendRequest msg =>
    simp only [step, sent, LockedBus.sendRequest, h.not_isEmpty, Turn.takesFrom]
    exact h.broadcast _
  | subscribe =>
    simp only [step, Turn.takesFrom, sent, List.append_nil]
    exact h.subscribe
  | unsubscribe k =>
    have hne : k + 1 ≠ j := by simpa [Turn.leaves] using hstay
    simp only [step, Turn.takesFrom, sent, List.append_nil]
    exact h.set hne none
  | kernel =>
    simp only [step, Turn.takesFrom, sent, List.append_nil]
    by_cases hzero : j = 0
    · subst hzero
      exact kernelTurn_bus s h
    · have hother := h.set (Ne.symm hzero) ((s.bus.subscribers.getD 0 none).map List.tail)
      simp only [kernelTurn, beq_eq_false_iff_ne.2 hzero]
      split
      · rw [route_bus]
        exact hother
      · exact ⟨h, rfl⟩
  | take c =>
    simp only [step, Turn.takesFrom, sent, List.append_nil]
    exact ⟨h, rfl⟩
  | recv k =>
    simp only [step, Turn.takesFrom, sent, List.append_nil]
    by_cases hsame : k + 1 = j
    · subst hsame
      simpa using h.recv
    · simp only [beq_eq_false_iff_ne.2 hsame]
      exact h.set hsame ((s.bus.subscribers.getD (k + 1) none).map List.tail)

/-- The kernel listens all the time. -/
theorem listening_step {s : Transport} (h : s.Listening) (t : Turn) : (s.step t).Listening := by
  have hstay : t.leaves 0 = false := by
    cases t with
    | unsubscribe k => rfl
    | _ => rfl
  exact (queue_step h hstay).1

/-- Only the kernel and the service itself touch the channel of a service. -/
theorem channels_step (s : Transport) (t : Turn) (c : Channel) :
    (s.step t).channels c =
      match t with
      | .kernel => s.channels c ++ (s.bus.queue 0).head?.toList.filter (Envelope.isFor c)
      | .take c' => if c' = c then (s.channels c).tail else s.channels c
      | _ => s.channels c := by
  cases t with
  | sendRequest msg =>
    simp only [step]
    split
    · rfl
    · rfl
  | kernel =>
    simp only [step, kernelTurn]
    cases s.bus.queue 0 with
    | nil => simp
    | cons e rest => exact route_channels _ e c
  | take c' =>
    simp only [step]
    by_cases hsame : c' = c
    · subst hsame
      simp
    · simp [hsame, Function.update_of_ne (Ne.symm hsame)]
  | _ => rfl

/-- In each turn what waits for a service, and then what is sent for it, is what the service takes, and
then what waits for it. -/
theorem pending_step {s : Transport} (h : s.Listening) (t : Turn) (c : Channel) :
    pending c s ++ (s.sent t).filter (Envelope.isFor c) = taken c s t ++ pending c (s.step t) := by
  have hstay : t.leaves 0 = false := by
    cases t with
    | unsubscribe k => rfl
    | _ => rfl
  have hqueue := (queue_step h hstay).2
  rw [pending, pending, hqueue, channels_step]
  cases t with
  | kernel =>
    -- the first envelope leaves the queue of the kernel for the channel of its service
    simp only [sent, taken, Turn.takesFrom]
    cases s.bus.queue 0 with
    | nil => simp
    | cons e rest => simp [List.filter_cons]; split <;> simp
  | take c' =>
    simp only [sent, taken, Turn.takesFrom]
    by_cases hsame : c' = c
    · subst hsame
      cases s.channels c' with
      | nil => simp
      | cons e rest => simp
    · simp [hsame]
  | recv k => simp [sent, taken, Turn.takesFrom]
  | _ => simp [taken, Turn.takesFrom]

/-- The same for what a subscriber other than the kernel takes from the bus. -/
theorem received_step {s : Transport} {k : Nat} (h : s.bus.Attached (k + 1)) {t : Turn}
    (hstay : t.leaves (k + 1) = false) :
    s.bus.queue (k + 1) ++ s.sent t = received k s t ++ (s.step t).bus.queue (k + 1) := by
  rw [(queue_step h hstay).2]
  cases t with
  | recv k' =>
    simp only [sent, received, Turn.takesFrom]
    by_cases hsame : k' = k
    · subst hsame
      cases s.bus.queue (k' + 1) with
      | nil => simp
      | cons e rest => simp
    · simp [hsame]
  | _ => simp [received, Turn.takesFrom]

/-! ## Identifiers -/

/-- A turn sends at most one request, with the next number. -/
theorem sent_ids_step (s : Transport) (t : Turn) :
    ∃ n, (s.sent t).filterMap Envelope.requestId = List.range' s.nextRequestId n ∧
      (s.step t).nextRequestId = s.nextRequestId + n := by
  cases t with
  | sendRequest msg =>
    simp only [sent, step]
    cases s.bus.sendRequest msg s.nextRequestId with
    | error e => exact ⟨0, rfl, rfl⟩
    | ok bus => exact ⟨1, rfl, rfl⟩
  | kernel =>
    refine ⟨0, rfl, ?_⟩
    simp only [step, kernelTurn]
    split
    · rw [route]
      split
      · rfl
      · rfl
    · rfl
  | _ => exact ⟨0, rfl, rfl⟩

/-- The requests of a run have consecutive numbers. -/
theorem sent_ids (s : Transport) (turns : List Turn) :
    ∃ n, (collect step sent s turns).filterMap Envelope.requestId = List.range' s.nextRequestId n := by
  induction turns generalizing s with
  | nil => exact ⟨0, rfl⟩
  | cons t turns ih =>
    obtain ⟨m, hfirst, hnext⟩ := sent_ids_step s t
    obtain ⟨n, hrest⟩ := ih (s.step t)
    refine ⟨m + n, ?_⟩
    rw [collect, List.filterMap_append, hfirst, hrest, hnext, List.range'_append_1]

/-! ## Runs -/

/-- The messages for a service that a run has sent. -/
def sentFor (c : Channel) (turns : List Turn) : List Envelope :=
  (collect step sent boot turns).filter (Envelope.isFor c)

/-- What a service has taken, in a run from the start. -/
def takenBy (c : Channel) (turns : List Turn) : List Envelope := collect step (taken c) boot turns

/-- A service has taken the first of the messages that were sent for it, in the order of the sending, and
the others wait for it. -/
theorem sentFor_eq (c : Channel) (turns : List Turn) :
    sentFor c turns = takenBy c turns ++ pending c (boot.run turns) := by
  have hstep : ∀ (s : Transport) (t : Turn), s.Listening → True → (s.step t).Listening ∧
      pending c s ++ (s.sent t).filter (Envelope.isFor c) = taken c s t ++ pending c (s.step t) :=
    fun s t h _ => ⟨listening_step h t, pending_step h t c⟩
  rw [sentFor, collect_filter]
  exact collect_keeps_order_of hstep listening_boot fun _ _ => trivial

theorem run_append (s : Transport) (before after : List Turn) (t : Turn) :
    s.run (before ++ t :: after) = ((s.run before).step t).run after := by
  rw [run, List.foldl_append, List.foldl_cons, run, run]

/-- A subscriber has received the first of the messages that were sent since it came, and the others wait
for it. -/
theorem received_eq (before after : List Turn) {k : Nat}
    (hk : (boot.run before).bus.subscribers.length = k + 1) (hstay : Turn.unsubscribe k ∉ after) :
    collect step sent ((boot.run before).step .subscribe) after =
      collect step (received k) ((boot.run before).step .subscribe) after ++
        (boot.run (before ++ .subscribe :: after)).bus.queue (k + 1) := by
  have hnew : ((boot.run before).step .subscribe).bus.Attached (k + 1) ∧
      ((boot.run before).step .subscribe).bus.queue (k + 1) = [] := by
    rw [← hk]
    exact LockedBus.attached_subscribe (boot.run before).bus
  have hok : ∀ t ∈ after, t.leaves (k + 1) = false := by
    intro t ht
    cases t with
    | unsubscribe j =>
      have hne : j ≠ k := fun heq => hstay (heq ▸ ht)
      simp [Turn.leaves, hne]
    | _ => rfl
  have hstep : ∀ (s : Transport) (t : Turn), s.bus.Attached (k + 1) → t.leaves (k + 1) = false →
      (s.step t).bus.Attached (k + 1) ∧
        s.bus.queue (k + 1) ++ s.sent t = received k s t ++ (s.step t).bus.queue (k + 1) :=
    fun s t h ht => ⟨(queue_step h ht).1, received_step h ht⟩
  have horder := collect_keeps_order_of hstep hnew.1 hok
  rw [hnew.2, List.nil_append] at horder
  rw [run_append]
  exact horder

/-- Only a subscription adds a subscriber. -/
theorem length_subscribers_step (s : Transport) {t : Turn} (h : t ≠ .subscribe) :
    (s.step t).bus.subscribers.length = s.bus.subscribers.length := by
  cases t with
  | send msg =>
    simp only [step, LockedBus.send]
    split
    · rfl
    · exact List.length_map _
  | sendRequest msg =>
    simp only [step, LockedBus.sendRequest]
    split
    · next bus hbus =>
      split at hbus
      · cases hbus
      · cases hbus
        exact List.length_map _
    · rfl
  | subscribe => exact absurd rfl h
  | unsubscribe k => exact List.length_set
  | kernel =>
    simp only [step, kernelTurn]
    split
    · rw [route_bus]
      exact List.length_set
    · rfl
  | take c => rfl
  | recv k => exact List.length_set

/-- Before anyone else subscribes, the kernel is alone, and nobody else receives anything. -/
theorem alone_run {s : Transport} (halone : s.bus.subscribers.length = 1) {turns : List Turn}
    (h : Turn.subscribe ∉ turns) :
    (s.run turns).bus.subscribers.length = 1 ∧ collect step (received 0) s turns = [] := by
  induction turns generalizing s with
  | nil => exact ⟨halone, rfl⟩
  | cons t turns ih =>
    rw [List.mem_cons, not_or] at h
    obtain ⟨hlength, hrest⟩ := ih ((length_subscribers_step s (Ne.symm h.1)).trans halone) h.2
    refine ⟨hlength, ?_⟩
    have hnone : received 0 s t = [] := by
      cases t with
      | recv k =>
        have hqueue : s.bus.queue 1 = [] := by
          simp [LockedBus.queue, List.getElem?_eq_none (Nat.le_of_eq halone)]
        simp [received, hqueue]
      | _ => rfl
    rw [collect, hnone, hrest, List.nil_append]

/-- The requests in a list of envelopes. -/
def requestIds (envelopes : List Envelope) : List RequestId := envelopes.filterMap Envelope.requestId

theorem nodup_sent_ids (turns : List Turn) : (requestIds (collect step sent boot turns)).Nodup := by
  obtain ⟨n, hids⟩ := sent_ids boot turns
  rw [requestIds, hids]
  exact List.nodup_range'

theorem takenBy_sublist (c : Channel) (turns : List Turn) :
    (takenBy c turns).Sublist (sentFor c turns) := by
  rw [sentFor_eq]
  exact List.sublist_append_left _ _

/-- Two envelopes that were sent with one identifier are the same. -/
theorem sent_unique {turns : List Turn} {e e' : Envelope} (h : e ∈ collect step sent boot turns)
    (h' : e' ∈ collect step sent boot turns) {id : RequestId} (hid : e.requestId = some id)
    (hid' : e'.requestId = some id) : e = e' := by
  have hnodup := nodup_sent_ids turns
  rw [requestIds, List.Nodup, List.pairwise_filterMap] at hnodup
  have hdistinct : (collect step sent boot turns).Pairwise fun e e' =>
      ¬∃ id, e.requestId = some id ∧ e'.requestId = some id := by
    apply hnodup.imp
    rintro e e' hdiff ⟨id, hid, hid'⟩
    exact hdiff id hid id hid' rfl
  have : Std.Symm fun e e' : Envelope => ¬∃ id, e.requestId = some id ∧ e'.requestId = some id :=
    ⟨fun e e' hdiff ⟨id, hid, hid'⟩ => hdiff ⟨id, hid', hid⟩⟩
  by_contra hne
  exact hdistinct.forall h h' hne ⟨id, hid, hid'⟩

/-- What a service has taken was sent for it. -/
theorem mem_takenBy {c : Channel} {turns : List Turn} {e : Envelope} (h : e ∈ takenBy c turns) :
    e ∈ collect step sent boot turns ∧ e.message.channel = some c := by
  have hmem := List.mem_filter.1 ((takenBy_sublist c turns).subset h)
  exact ⟨hmem.1, beq_iff_eq.1 hmem.2⟩

/-- For every order of turns: each service takes the messages that are sent for it, in the order of the
sending, none of them twice, and those that it has not taken wait for it; a subscriber does so with all
messages that are sent after it came; no two requests have the same identifier, no service takes a request
twice and no two services take the same one. -/
theorem messages_conveyed (turns : List Turn) :
    (∀ c, sentFor c turns = takenBy c turns ++ pending c (boot.run turns)) ∧
    (∀ before after k, turns = before ++ .subscribe :: after →
      (boot.run before).bus.subscribers.length = k + 1 → Turn.unsubscribe k ∉ after →
      collect step sent ((boot.run before).step .subscribe) after =
        collect step (received k) ((boot.run before).step .subscribe) after ++
          (boot.run turns).bus.queue (k + 1)) ∧
    (requestIds (collect step sent boot turns)).Nodup ∧
    (∀ c, (requestIds (takenBy c turns)).Nodup) ∧
    ∀ c c' id, id ∈ requestIds (takenBy c turns) → id ∈ requestIds (takenBy c' turns) → c = c' := by
  refine ⟨fun c => sentFor_eq c turns, ?_, nodup_sent_ids turns, ?_, ?_⟩
  · rintro before after k rfl hk hstay
    exact received_eq before after hk hstay
  · intro c
    have hsent := (takenBy_sublist c turns).trans List.filter_sublist
    exact (nodup_sent_ids turns).sublist (hsent.filterMap Envelope.requestId)
  · intro c c' id hc hc'
    obtain ⟨e, he, hid⟩ := List.mem_filterMap.1 hc
    obtain ⟨e', he', hid'⟩ := List.mem_filterMap.1 hc'
    obtain ⟨hsent, hchannel⟩ := mem_takenBy he
    obtain ⟨hsent', hchannel'⟩ := mem_takenBy he'
    rw [sent_unique hsent hsent' hid hid', hchannel'] at hchannel
    exact (Option.some.inj hchannel).symm

end Transport

end GenshinOs.Messaging
