import GenshinOs.Lib.Fifo
import GenshinOs.Process.Service

/-!
# Delivery of messages

Messages between processes (`handle_send_message`, `handle_receive_message` and `handle_peek_message` in
`src/services/process/service.rs`). A sender stores the queue of the receiver if it is missing, a receiver
looks at a made-up one then. Both see the same messages, so that the queue of every process keeps the order
(`stepKeepsOrder`), and what a process receives is a prefix of what was sent to it (`messages_in_order`).
-/

set_option autoImplicit false

namespace GenshinOs.Process

open GenshinOs.Lib

namespace Kernel

/-- The messages that wait for a process. -/
def pending (k : Kernel) (pid : Pid) : List QueuedMessage := (k.ipcManager.getMessageQueue pid).messages

/-- The tables after a request. -/
def handle (k : Kernel) (req : ProcessRequest) : Kernel := (k.handleProcessRequest req).1

/-- What a request sends to a process, if it succeeds. -/
def sentTo (pid : Pid) (k : Kernel) : ProcessRequest → List QueuedMessage
  | .sendMessage fromPid toPid msg =>
    match (k.handleSendMessage fromPid toPid msg).2 with
    | .ok () => if toPid = pid then [⟨msg, fromPid, 1⟩] else []
    | .error _ => []
  | _ => []

/-- What a request takes out for a process. -/
def takenBy (pid : Pid) (k : Kernel) : ProcessRequest → List QueuedMessage
  | .receiveMessage receiver _ =>
    if receiver = pid then (k.ipcManager.getMessageQueue receiver).receive.1.toList else []
  | _ => []

/-! ## Queues -/

theorem getMessageQueue_put (m : IPCManager) (pid pid' : Pid) (q : MessageQueue) :
    (m.putMessageQueue pid q).getMessageQueue pid' =
      if pid' = pid ∧ (m.messageQueues.lookup pid).isSome then q else m.getMessageQueue pid' := by
  rw [IPCManager.getMessageQueue, IPCManager.putMessageQueue, HashMap.lookup_adjust]
  by_cases hpid : pid' = pid
  -- only a queue that is stored can be changed
  · subst hpid
    cases hqueue : m.messageQueues.lookup pid' with
    | none => simp [IPCManager.getMessageQueue, hqueue]
    | some old => simp
  · simp [hpid, IPCManager.getMessageQueue]

/-- To store a missing queue changes nothing that anybody sees. -/
theorem getMessageQueue_ensure (m : IPCManager) (pid pid' : Pid) :
    (m.ensureMessageQueue pid).2.getMessageQueue pid' = m.getMessageQueue pid' := by
  rw [IPCManager.ensureMessageQueue]
  cases hqueue : m.messageQueues.lookup pid with
  | some q => rfl
  | none =>
    simp only [IPCManager.getMessageQueue, HashMap.lookup_insert_eq]
    split
    · next hpid =>
      rw [hpid, hqueue]
      rfl
    · rfl

theorem ensureMessageQueue_spec (m : IPCManager) (pid : Pid) :
    (m.ensureMessageQueue pid).1 = m.getMessageQueue pid ∧
      ((m.ensureMessageQueue pid).2.messageQueues.lookup pid).isSome := by
  rw [IPCManager.ensureMessageQueue, IPCManager.getMessageQueue]
  cases hqueue : m.messageQueues.lookup pid with
  | some q =>
    refine ⟨rfl, ?_⟩
    simp only [hqueue, Option.isSome_some]
  | none =>
    refine ⟨rfl, ?_⟩
    simp only [HashMap.lookup_insert_eq, if_true, Option.isSome_some]

/-- A queue with messages is stored. -/
theorem stored_of_messages {m : IPCManager} {pid : Pid} (h : (m.getMessageQueue pid).messages ≠ []) :
    (m.messageQueues.lookup pid).isSome := by
  rw [IPCManager.getMessageQueue] at h
  cases hqueue : m.messageQueues.lookup pid with
  | some q => rfl
  | none =>
    rw [hqueue] at h
    exact absurd rfl h

theorem send_messages {q q' : MessageQueue} {fromPid : Pid} {fromTid : Tid} {msg : IPCMessage}
    (h : q.send fromPid fromTid msg = .ok q') : q'.messages = q.messages ++ [⟨msg, fromPid, fromTid⟩] := by
  rw [MessageQueue.send] at h
  split at h
  · cases h
  · cases h
    rfl

/-! ## Requests -/

/-- A send appends the message to the queue of the receiver, or changes nothing that anybody sees. -/
theorem pending_send (k : Kernel) (fromPid toPid : Pid) (msg : IPCMessage) (pid : Pid) :
    (k.handleSendMessage fromPid toPid msg).1.pending pid =
      k.pending pid ++ k.sentTo pid (.sendMessage fromPid toPid msg) := by
  rw [sentTo]
  simp only [handleSendMessage]
  split
  · exact (List.append_nil _).symm
  · split
    · exact (List.append_nil _).symm
    · obtain ⟨hqueue, hstored⟩ := ensureMessageQueue_spec k.ipcManager toPid
      split
      · -- the queue is full
        show ((k.ipcManager.ensureMessageQueue toPid).2.getMessageQueue pid).messages = _
        rw [getMessageQueue_ensure]
        exact (List.append_nil _).symm
      · next q hsent =>
        -- the message is appended, and the queue is stored back
        show (((k.ipcManager.ensureMessageQueue toPid).2.putMessageQueue toPid q).getMessageQueue
          pid).messages = _
        rw [getMessageQueue_put, getMessageQueue_ensure]
        by_cases hpid : pid = toPid
        · subst hpid
          rw [if_pos ⟨rfl, hstored⟩, if_pos rfl, send_messages hsent, hqueue]
          rfl
        · rw [if_neg (fun h => hpid h.1), if_neg (Ne.symm hpid)]
          exact (List.append_nil _).symm

/-- A receive takes the first message of its own queue, if there is one. -/
theorem pending_receive (k : Kernel) (receiver : Pid) (blocking : Bool) (pid : Pid) :
    k.pending pid = k.takenBy pid (.receiveMessage receiver blocking) ++
      (k.handleReceiveMessage receiver blocking).pending pid := by
  rw [takenBy]
  simp only [handleReceiveMessage]
  cases hmessages : (k.ipcManager.getMessageQueue receiver).messages with
  | nil =>
    -- nothing is taken, and a blocked process leaves the queues alone
    have hnone : (k.ipcManager.getMessageQueue receiver).receive =
        (none, k.ipcManager.getMessageQueue receiver) := by
      rw [MessageQueue.receive, hmessages]
    rw [hnone]
    cases blocking with
    | false => simp
    | true =>
      simp only [if_true, Option.toList_none, ite_self, List.nil_append]
      rfl
  | cons first rest =>
    have hsome : (k.ipcManager.getMessageQueue receiver).receive =
        (some first, { k.ipcManager.getMessageQueue receiver with
          messages := rest
          totalReceived := (k.ipcManager.getMessageQueue receiver).totalReceived + 1 }) := by
      rw [MessageQueue.receive, hmessages]
    -- the receiver looks at a queue that may be made up; one with messages is stored
    have hstored : (k.ipcManager.messageQueues.lookup receiver).isSome := by
      apply stored_of_messages
      rw [hmessages]
      exact List.cons_ne_nil first rest
    rw [hsome]
    show k.pending pid = _ ++ ((k.ipcManager.putMessageQueue receiver _).getMessageQueue pid).messages
    rw [getMessageQueue_put]
    by_cases hpid : pid = receiver
    · subst hpid
      rw [if_pos rfl, if_pos ⟨rfl, hstored⟩, pending, hmessages]
      rfl
    · rw [if_neg (Ne.symm hpid), if_neg (fun h => hpid h.1), List.nil_append]
      rfl

/-- Other tables than those of the queues. -/
theorem pending_congr {k k' : Kernel} (h : k'.ipcManager.messageQueues = k.ipcManager.messageQueues)
    (pid : Pid) : k'.pending pid = k.pending pid := by
  rw [pending, pending, IPCManager.getMessageQueue, IPCManager.getMessageQueue, h]

theorem queues_attachSharedMemory (k : Kernel) (pid : Pid) (shmid : Nat) :
    (k.handleAttachSharedMemory pid shmid).1.ipcManager.messageQueues = k.ipcManager.messageQueues := by
  simp only [handleAttachSharedMemory, IPCManager.attachSharedMemory]
  cases k.ipcManager.sharedMemory.lookup shmid with
  | none => rfl
  | some region => rfl

theorem queues_detachSharedMemory (k : Kernel) (pid : Pid) (shmid : Nat) :
    (k.handleDetachSharedMemory pid shmid).1.ipcManager.messageQueues = k.ipcManager.messageQueues := by
  simp only [handleDetachSharedMemory, IPCManager.detachSharedMemory]
  cases k.ipcManager.sharedMemory.lookup shmid with
  | none => rfl
  | some region => rfl

theorem ipcManager_waitSemaphore (k : Kernel) (pid : Pid) (semid : SemaphoreId) :
    (k.handleWaitSemaphore pid semid).1.ipcManager = k.ipcManager := by
  simp only [handleWaitSemaphore]
  split
  · rfl
  · rfl
  · rfl

theorem ipcManager_acquireLock (k : Kernel) (pid : Pid) (lockId : LockId) :
    (k.handleAcquireLock pid lockId).ipcManager = k.ipcManager := by
  simp only [handleAcquireLock]
  split
  · rfl
  · rfl

theorem ipcManager_waitChild (k : Kernel) (pid : Pid) (childPid : Option Pid) :
    (k.handleWaitChild pid childPid).1.ipcManager = k.ipcManager := by
  simp only [handleWaitChild]
  split
  · split
    · rfl
    · rfl
  · rfl
  · rfl

theorem ipcManager_signal (k : Kernel) (pid : Pid) (signal : SignalType) :
    (k.handleSignal pid signal).1.ipcManager = k.ipcManager := by
  simp only [handleSignal]
  split
  · rfl
  · cases signal with
    | terminate => rfl
    | kill => rfl
    | stop => rfl
    | «continue» => rfl
    | user1 => rfl
    | user2 => rfl
    | alarm => rfl
    | child => rfl
    | segmentationFault => rfl
    | illegalInstruction => rfl
    | floatingPointException => rfl

/-- Every request of the tables keeps the order of the messages of every process. -/
theorem stepKeepsOrder (pid : Pid) :
    StepKeepsOrder handle (fun k => k.pending pid) (sentTo pid) (takenBy pid) := by
  intro k req
  -- all requests but two leave the queues alone
  have hother : ∀ {k' : Kernel}, k'.ipcManager.messageQueues = k.ipcManager.messageQueues →
      k.pending pid ++ [] = [] ++ k'.pending pid := by
    intro k' h
    rw [pending_congr h, List.append_nil, List.nil_append]
  cases req with
  | sendMessage fromPid toPid msg => exact (pending_send k fromPid toPid msg pid).symm
  | receiveMessage receiver blocking =>
    rw [sentTo, List.append_nil]
    · exact pending_receive k receiver blocking pid
    · intro _ _ _ h
      cases h
  | peekMessage receiver => exact hother rfl
  | schedule receiver tid => exact hother rfl
  | block receiver tid reason => exact hother rfl
  | unblock receiver tid => exact hother rfl
  | queryState receiver => exact hother rfl
  | contextSwitch fromPid toPid => exact hother rfl
  | createSharedMemory creator size prot => exact hother rfl
  | attachSharedMemory receiver shmid => exact hother (queues_attachSharedMemory k receiver shmid)
  | detachSharedMemory receiver shmid => exact hother (queues_detachSharedMemory k receiver shmid)
  | createSemaphore creator initialValue => exact hother rfl
  | waitSemaphore receiver semid =>
    exact hother (congrArg IPCManager.messageQueues (ipcManager_waitSemaphore k receiver semid))
  | signalSemaphore receiver semid => exact hother rfl
  | createLock creator => exact hother rfl
  | acquireLock receiver lockId =>
    exact hother (congrArg IPCManager.messageQueues (ipcManager_acquireLock k receiver lockId))
  | releaseLock receiver lockId => exact hother rfl
  | waitChild receiver childPid =>
    exact hother (congrArg IPCManager.messageQueues (ipcManager_waitChild k receiver childPid))
  | signal receiver signal =>
    exact hother (congrArg IPCManager.messageQueues (ipcManager_signal k receiver signal))
  | getProcessInfo receiver => exact hother rfl
  | listProcesses => exact hother rfl
  | getStats => exact hother rfl
  | getMemoryMap => exact hother rfl
  | forkProcess parent => exact hother rfl
  | execProcess receiver executable args env => exact hother rfl
  | spawn program args => exact hother rfl

/-- A send that fails leaves all messages as they were. -/
theorem pending_send_failed {k : Kernel} {fromPid toPid : Pid} {msg : IPCMessage} {e : ServiceError}
    (h : (k.handleSendMessage fromPid toPid msg).2 = .error e) (pid : Pid) :
    (k.handle (.sendMessage fromPid toPid msg)).pending pid = k.pending pid := by
  have hsent := pending_send k fromPid toPid msg pid
  simp only [sentTo, h] at hsent
  exact hsent.trans (List.append_nil _)

theorem pending_send_other (k : Kernel) (fromPid : Pid) {toPid : Pid} (msg : IPCMessage) {pid : Pid}
    (h : toPid ≠ pid) : (k.handle (.sendMessage fromPid toPid msg)).pending pid = k.pending pid := by
  have hsent := pending_send k fromPid toPid msg pid
  have hnothing : k.sentTo pid (.sendMessage fromPid toPid msg) = [] := by
    simp only [sentTo, if_neg h]
    split
    · rfl
    · rfl
  rw [hnothing] at hsent
  exact hsent.trans (List.append_nil _)

theorem pending_receive_other (k : Kernel) {receiver : Pid} (blocking : Bool) {pid : Pid}
    (h : receiver ≠ pid) : (k.handle (.receiveMessage receiver blocking)).pending pid = k.pending pid := by
  have htaken := pending_receive k receiver blocking pid
  rw [takenBy, if_neg h] at htaken
  exact htaken.symm

/-- Over any requests, what a process takes out, followed by what still waits for it, is what waited before
and what was sent to it with success, in the same order. A send that fails, a look at a queue and what
other processes do change nothing for it. -/
theorem messages_in_order (k : Kernel) (reqs : List ProcessRequest) (pid : Pid) :
    collect handle (takenBy pid) k reqs ++ (reqs.foldl handle k).pending pid =
        k.pending pid ++ collect handle (sentTo pid) k reqs ∧
      (k.pending pid = [] →
        collect handle (takenBy pid) k reqs <+: collect handle (sentTo pid) k reqs) ∧
      (∀ fromPid toPid msg e, ((reqs.foldl handle k).handleSendMessage fromPid toPid msg).2 = .error e →
        ((reqs.foldl handle k).handle (.sendMessage fromPid toPid msg)).pending pid =
          (reqs.foldl handle k).pending pid) ∧
      (∀ receiver, (reqs.foldl handle k).handle (.peekMessage receiver) = reqs.foldl handle k) ∧
      (∀ fromPid toPid msg, toPid ≠ pid →
        ((reqs.foldl handle k).handle (.sendMessage fromPid toPid msg)).pending pid =
          (reqs.foldl handle k).pending pid) ∧
      ∀ receiver blocking, receiver ≠ pid →
        ((reqs.foldl handle k).handle (.receiveMessage receiver blocking)).pending pid =
          (reqs.foldl handle k).pending pid := by
  refine ⟨(collect_keeps_order (stepKeepsOrder pid) k reqs).symm, ?_, ?_, fun _ => rfl, ?_, ?_⟩
  · intro hempty
    exact collect_prefix (stepKeepsOrder pid) hempty reqs
  · intro fromPid toPid msg e hfailed
    exact pending_send_failed hfailed pid
  · intro fromPid toPid msg hother
    exact pending_send_other _ fromPid msg hother
  · intro receiver blocking hother
    exact pending_receive_other _ blocking hother

end Kernel

end GenshinOs.Process
