import GenshinOs.Process.Delivery
import GenshinOs.Process.Observations

/-!
# Sleeping on a mailbox

A blocking receive on an empty queue blocks its process (`handle_receive_message` in
`src/services/process/service.rs`). `Receivers` follows the processes that were blocked so, until they are
made ready.

A send only writes the queue of the receiver (`handle_send_message`). It looks neither at the state of the
receiver nor at the scheduler, so that the receiver sleeps on, now with mail. `receivers_have_no_mail` says
that this is the only way to it: all along a run the queues of these receivers are empty exactly when no
process of the table sends to one of them.
-/

set_option autoImplicit false

namespace GenshinOs.Process

open GenshinOs.Lib GenshinOs.Hardware GenshinOs.Memory

/-! ## What a transition does to the queues -/

theorem ForkStep.ipcManager_eq {k k' : Kernel} {parent : Pid} (h : ForkStep k parent k') :
    k'.ipcManager = k.ipcManager := by
  cases h with
  | refused => rfl
  | aborted => rfl
  | fresh => rfl
  | child => rfl

theorem ExecStep.ipcManager_eq {k k' : Kernel} {pid : Pid} (h : ExecStep k pid k') :
    k'.ipcManager = k.ipcManager := by
  cases h with
  | failed => rfl
  | started => rfl

/-- Only requests touch the queues. -/
theorem TableStep.ipcManager_eq {k k' : Kernel} {act : Act} (h : TableStep k act k')
    (hact : ∀ req channel, act ≠ .request req channel) : k'.ipcManager = k.ipcManager := by
  cases h with
  | dispatch cpuId scheduled =>
    obtain ⟨updates, scheduler, lastRunning, hframe⟩ := k.dispatch_frame cpuId scheduled
    rw [hframe]
  | zombified cpuId pid =>
    obtain ⟨updates, scheduler, sync, waiting, responses, hframe⟩ := k.zombify_frame pid
    rw [hframe]
  | forkCall cpuId pid h => exact h.ipcManager_eq
  | execCall cpuId pid h => exact h.ipcManager_eq
  | fork h => exact h.ipcManager_eq
  | exec h => exact h.ipcManager_eq
  | request channel h => exact absurd rfl (hact _ channel)
  | waitChild pid childPid channel => exact absurd rfl (hact _ (some channel))
  | _ => rfl

namespace Kernel

theorem handleWaitChildWithResponse_ipcManager (k : Kernel) (pid : Pid) (childPid : Option Pid)
    (channel : RequestId) :
    (k.handleWaitChildWithResponse pid childPid channel).1.ipcManager = k.ipcManager := by
  simp only [handleWaitChildWithResponse]
  split
  · rfl
  · split
    · rfl
    · split
      · rfl
      · split
        · rfl
        · rfl

end Kernel

namespace Machine

/-- What a transition sends to a process. -/
def mailIn (pid : Pid) (s : Machine) : Act → List QueuedMessage
  | .request req _ => s.toKernel.sentTo pid req
  | _ => []

/-- What a transition takes out for a process. -/
def mailOut (pid : Pid) (s : Machine) : Act → List QueuedMessage
  | .request req _ => s.toKernel.takenBy pid req
  | _ => []

end Machine

open Machine

theorem Machine.handleSimpleRequest_mail (w : World) (s : Machine) (req : ProcessRequest)
    (channel : Option RequestId) (pid : Pid) :
    s.pending pid ++ s.toKernel.sentTo pid req =
      s.toKernel.takenBy pid req ++ (s.handleSimpleRequest w req channel).1.pending pid := by
  -- the plain handler keeps the order; those with a channel of their own leave the queues alone
  have hplain := Kernel.stepKeepsOrder pid s.toKernel req
  simp only [handleSimpleRequest]
  split
  · next id parent childPid =>
    have hqueues := congrArg IPCManager.messageQueues
      (s.toKernel.handleWaitChildWithResponse_ipcManager parent childPid id)
    show s.pending pid ++ [] = [] ++ (s.handleWaitChildWithResponse parent childPid id).1.pending pid
    rw [Kernel.pending_congr hqueues, List.append_nil, List.nil_append]
  · exact hplain
  · exact hplain
  · exact hplain
  · exact hplain
  · exact hplain

/-- Every transition keeps the order of the messages of every process. -/
theorem Performed.mail {w : World} {s s' : Machine} {act : Act} (h : Performed w s act s') (pid : Pid) :
    s.pending pid ++ mailIn pid s act = mailOut pid s act ++ s'.pending pid := by
  by_cases hrequest : ∃ req channel, act = .request req channel
  · obtain ⟨req, channel, rfl⟩ := hrequest
    cases h
    exact handleSimpleRequest_mail w s req channel pid
  · push Not at hrequest
    have hqueues := congrArg IPCManager.messageQueues (h.step_of.table.ipcManager_eq hrequest)
    rw [Kernel.pending_congr hqueues]
    -- nothing goes in and nothing comes out
    cases act with
    | request req channel => exact absurd rfl (hrequest req channel)
    | _ => simp [mailIn, mailOut]

/-! ## Sends -/

/-- A send changes no state and leaves the scheduler alone. -/
theorem TableStep.send_unnoticed {k k' : Kernel} {fromPid toPid : Pid} {msg : IPCMessage}
    {channel : Option RequestId}
    (h : TableStep k (.request (.sendMessage fromPid toPid msg) channel) k') :
    k'.stateOf = k.stateOf ∧ k'.scheduler = k.scheduler := by
  cases h with
  | idle hidle => cases hidle
  | request channel h =>
    cases h with
    | inert hreq h => exact ⟨h.stateOf, h.scheduler⟩

namespace Kernel

theorem lookup_isSome_iff {k : Kernel} {pid : Pid} :
    (k.processTable.lookup pid).isNone = false ↔ (k.stateOf pid).isSome = true := by
  rw [stateOf, Option.isSome_map]
  cases k.processTable.lookup pid with
  | none => simp
  | some pcb => simp

/-- Between processes of the table a send to an empty queue succeeds. -/
theorem sentTo_of_empty {k : Kernel} {fromPid toPid : Pid} (msg : IPCMessage)
    (hfrom : (k.stateOf fromPid).isSome = true) (hto : (k.stateOf toPid).isSome = true)
    (hempty : k.pending toPid = []) :
    k.sentTo toPid (.sendMessage fromPid toPid msg) = [⟨msg, fromPid, 1⟩] := by
  have hqueue := (ensureMessageQueue_spec k.ipcManager toPid).1
  -- an empty queue is not full, whatever its capacity
  have hroom : ¬(0 < (k.ipcManager.getMessageQueue toPid).capacity ∧
      (k.ipcManager.getMessageQueue toPid).capacity ≤
        (k.ipcManager.getMessageQueue toPid).messages.length) := by
    rintro ⟨hpos, hfull⟩
    rw [show (k.ipcManager.getMessageQueue toPid).messages = [] from hempty] at hfull
    exact absurd hpos (Nat.not_lt.2 hfull)
  have hok : (k.handleSendMessage fromPid toPid msg).2 = .ok () := by
    simp only [handleSendMessage]
    rw [lookup_isSome_iff.2 hfrom, lookup_isSome_iff.2 hto, hqueue, MessageQueue.send, if_neg hroom]
    rfl
  simp only [sentTo, hok, if_true]

/-- A sender that is not in the table sends nothing. -/
theorem sentTo_of_unknown {k : Kernel} {fromPid : Pid} (toPid : Pid) (msg : IPCMessage) (pid : Pid)
    (hfrom : k.stateOf fromPid = none) : k.sentTo pid (.sendMessage fromPid toPid msg) = [] := by
  have hnone : (k.processTable.lookup fromPid).isNone = true := by
    rw [Option.isNone_iff_eq_none]
    exact Option.map_eq_none_iff.1 hfrom
  simp only [sentTo, handleSendMessage, hnone, if_true]

end Kernel

/-! ## Receivers -/

/-- The processes that were blocked by a receive and have not been made ready since. -/
abbrev Receivers := List Pid

namespace Receivers

/-- The process that a transition blocks on its empty queue. -/
def begun (t : Tr) : Receivers :=
  match t.act with
  | .request (.receiveMessage pid true) _ => if (t.pre.pending pid).isEmpty then [pid] else []
  | _ => []

/-- The process is in the table and not ready. -/
def asleep (k : Kernel) (pid : Pid) : Bool := (k.stateOf pid).any fun st => decide (st ≠ .ready)

/-- A process is followed until it is made ready or leaves the table. -/
def record (g : Receivers) (t : Tr) : Receivers := (begun t ++ g).filter (asleep t.post.toKernel)

/-- No process of the table sends to a sleeping receiver. -/
def Unposted (g : Receivers) (t : Tr) : Prop :=
  match t.act with
  | .request (.sendMessage fromPid toPid _) _ => toPid ∈ g → t.pre.stateOf fromPid = none
  | _ => True

/-- No sleeping receiver has mail. -/
def NoMail (g : Receivers) (k : Kernel) : Prop := ∀ pid ∈ g, k.pending pid = []

theorem mem_begun {t : Tr} {pid : Pid} (h : pid ∈ begun t) :
    (∃ channel, t.act = .request (.receiveMessage pid true) channel) ∧ t.pre.pending pid = [] := by
  simp only [begun] at h
  split at h
  · next receiver channel hact =>
    split at h
    · next hempty =>
      rw [List.mem_singleton.1 h]
      exact ⟨⟨channel, hact⟩, List.isEmpty_iff.1 hempty⟩
    · cases h
  · cases h

theorem mem_record {g : Receivers} {t : Tr} {pid : Pid} :
    pid ∈ record g t ↔ (pid ∈ begun t ∨ pid ∈ g) ∧ asleep t.post.toKernel pid = true := by
  rw [record, List.mem_filter, List.mem_append]

/-- Sends to others, and requests that are no sends, put nothing into the mailbox. -/
theorem mailIn_eq_nil {t : Tr} {pid : Pid}
    (h : ∀ fromPid msg channel, t.act = .request (.sendMessage fromPid pid msg) channel →
      t.pre.stateOf fromPid = none) : mailIn pid t.pre t.act = [] := by
  simp only [mailIn]
  split
  · next req channel hact =>
    cases req with
    | sendMessage fromPid toPid msg =>
      by_cases hto : toPid = pid
      · rw [hto] at hact ⊢
        exact Kernel.sentTo_of_unknown pid msg pid (h fromPid msg channel hact)
      · simp only [Kernel.sentTo, if_neg hto]
        split
        · rfl
        · rfl
    | _ => rfl
  · rfl

section step

variable {w : World} {g : Receivers} {t : Tr} (ht : Performed w t.pre t.act t.post)

include ht

theorem send_unnoticed {fromPid toPid : Pid} {msg : IPCMessage} {channel : Option RequestId}
    (hact : t.act = .request (.sendMessage fromPid toPid msg) channel) :
    t.post.stateOf = t.pre.stateOf ∧ t.post.scheduler = t.pre.scheduler := by
  have htable := ht.step_of.table
  rw [hact] at htable
  exact htable.send_unnoticed

/-- Without a send to a sleeping receiver, who sleeps afterwards has no mail. -/
theorem NoMail.step (h : NoMail g t.pre.toKernel) (hunposted : Unposted g t) :
    NoMail (record g t) t.post.toKernel := by
  intro pid hpid
  obtain ⟨hold, -⟩ := mem_record.1 hpid
  -- the mailbox was empty before
  have hempty : t.pre.pending pid = [] := by
    rcases hold with hbegun | hmem
    · exact (mem_begun hbegun).2
    · exact h pid hmem
  -- and nothing came in
  have hin : mailIn pid t.pre t.act = [] := by
    apply mailIn_eq_nil
    intro fromPid msg channel hact
    rcases hold with hbegun | hmem
    · obtain ⟨⟨other, hreceive⟩, -⟩ := mem_begun hbegun
      rw [hact] at hreceive
      cases hreceive
    · rw [Unposted, hact] at hunposted
      exact hunposted hmem
  have hmail := ht.mail pid
  rw [hempty, hin] at hmail
  exact (List.append_eq_nil_iff.1 hmail.symm).2

/-- A send to a sleeping receiver leaves it asleep, with mail. -/
theorem unposted_of_noMail (h : NoMail g t.pre.toKernel)
    (hasleep : ∀ pid ∈ g, asleep t.pre.toKernel pid = true)
    (hpost : NoMail (record g t) t.post.toKernel) : Unposted g t := by
  rw [Unposted]
  split
  · next fromPid toPid msg channel hact =>
    intro hmem
    by_contra hknown
    have hfrom : (t.pre.stateOf fromPid).isSome = true := Option.isSome_iff_ne_none.2 hknown
    have hto : (t.pre.stateOf toPid).isSome = true := by
      obtain ⟨st, hst, -⟩ := (Option.any_eq_true _ _).1 (hasleep toPid hmem)
      rw [hst]
      rfl
    -- the message is in the queue
    have hmail := ht.mail toPid
    rw [hact, h toPid hmem] at hmail
    have hin : mailIn toPid t.pre (.request (.sendMessage fromPid toPid msg) channel) =
        [⟨msg, fromPid, 1⟩] := Kernel.sentTo_of_empty msg hfrom hto (h toPid hmem)
    have hout : mailOut toPid t.pre (.request (.sendMessage fromPid toPid msg) channel) = [] := rfl
    rw [hin, hout] at hmail
    -- and the receiver is still asleep
    have hsleeps : toPid ∈ record g t := by
      apply mem_record.2
      refine ⟨Or.inr hmem, ?_⟩
      rw [asleep, (send_unnoticed ht hact).1]
      exact hasleep toPid hmem
    rw [hpost toPid hsleeps] at hmail
    cases hmail
  · trivial

end step

end Receivers

open Receivers in
/-- All along a run the sleeping receivers have no mail exactly when no process of the table ever sends to one of
them. For no send makes its receiver ready or puts it into the ready queue. -/
theorem receivers_have_no_mail (w : World) (memory : MemoryService) (events : List Event) :
    (Along record Unposted [] (run w memory events).2 ↔
      Along record (fun g t => NoMail (record g t) t.post.toKernel) [] (run w memory events).2) ∧
    ∀ t ∈ (run w memory events).2, ∀ fromPid toPid msg channel,
      t.act = .request (.sendMessage fromPid toPid msg) channel →
        t.post.stateOf = t.pre.stateOf ∧ t.post.scheduler = t.pre.scheduler := by
  have htraced := run_traced w memory events
  constructor
  · -- along the trace the list holds processes that sleep without mail
    have hstep : ∀ t ∈ (run w memory events).2, ∀ g : Receivers,
        NoMail g t.pre.toKernel ∧ (∀ pid ∈ g, asleep t.pre.toKernel pid = true) →
        (Unposted g t ↔ NoMail (record g t) t.post.toKernel) ∧
          (Unposted g t → NoMail (record g t) t.post.toKernel ∧
            ∀ pid ∈ record g t, asleep t.post.toKernel pid = true) := by
      rintro t ht g ⟨hempty, hasleep⟩
      have hperformed := htraced.performed t ht
      have hkept := fun hunposted => hempty.step hperformed hunposted
      refine ⟨⟨hkept, unposted_of_noMail hperformed hempty hasleep⟩, ?_⟩
      intro hunposted
      exact ⟨hkept hunposted, fun pid hpid => (mem_record.1 hpid).2⟩
    have hboot : NoMail [] (boot w memory).toKernel ∧
        ∀ pid ∈ ([] : Receivers), asleep (boot w memory).toKernel pid = true :=
      ⟨fun pid hpid => absurd hpid List.not_mem_nil, fun pid hpid => absurd hpid List.not_mem_nil⟩
    exact @Chain.along_congr _ _ _ record Unposted _
      (fun g s => NoMail g s.toKernel ∧ ∀ pid ∈ g, asleep s.toKernel pid = true) _ _ _
      htraced.chain [] hboot hstep
  · intro t ht fromPid toPid msg channel hact
    exact send_unnoticed (htraced.performed t ht) hact

/-- Process 2 waits for a message, and process 1 sends it one. -/
def mailedEvents : List Event :=
  [.envelope (.process (.forkProcess 1)) false,
    .envelope (.process (.receiveMessage 2 true)) false,
    .envelope (.process (.sendMessage 1 2 (.text "hello"))) false]

open Receivers in
theorem mailed_receiver_sleeps :
    ¬NoMail (history record [] (run (World.calm []) (bootMemory 8192 fun _ => 0) mailedEvents).2)
      (run (World.calm []) (bootMemory 8192 fun _ => 0) mailedEvents).1.toKernel := by
  intro h
  have hsleeps : 2 ∈ history record []
      (run (World.calm []) (bootMemory 8192 fun _ => 0) mailedEvents).2 := by decide +kernel
  have hmail : (run (World.calm []) (bootMemory 8192 fun _ => 0) mailedEvents).1.pending 2 ≠ [] := by
    decide +kernel
  exact hmail (h 2 hsleeps)

end GenshinOs.Process
