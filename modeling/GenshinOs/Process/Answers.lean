import GenshinOs.Files.Answers
import GenshinOs.Memory.Answers
import GenshinOs.Process.Footprint
import GenshinOs.Process.Numbers

/-!
# Answers of the services

Every request that carries a response channel should be answered exactly once, with its own identifier.
For the process service the channel is followed through the rest of the run: an answer can be stored for
later, when the child of a `WaitChild` ends. A channel is named by the identifier of its request, which is
fresh; so nothing comes to a channel that the service neither answers at once nor keeps a waiter for
(`skips_events`). What is answered at once is answered once. A waiter for a living child never gets its
answer: when the child halts the answer has the identifier 0, and when the child is killed there is none.
`answeredOnce_iff` puts the three services together.
-/

set_option autoImplicit false

namespace GenshinOs.Process

open GenshinOs.Lib GenshinOs.Hardware GenshinOs.Memory

open Machine Kernel

/-! ## Channels -/

namespace Kernel

/-- The responses that were put on a channel. -/
def answersOn (k : Kernel) (id : RequestId) : List Response :=
  (k.responses.filter fun r => r.1 == id).map Prod.snd

/-- No parent waits on the channel. -/
def Vacant (k : Kernel) (id : RequestId) : Prop := ∀ waiter ∈ k.waitingParents, waiter.channel ≠ id

/-- Nothing comes to the channel, and nobody starts to wait on it. -/
structure Skips (id : RequestId) (k k' : Kernel) : Prop where
  answers : k'.answersOn id = k.answersOn id
  vacant : k'.Vacant id

/-- Nothing is said on any channel. -/
theorem Skips.of_eq {id : RequestId} {k k' : Kernel} (hvacant : k.Vacant id)
    (hwaiting : k'.waitingParents = k.waitingParents) (hresponses : k'.responses = k.responses) :
    Skips id k k' := by
  refine ⟨?_, ?_⟩
  · rw [answersOn, hresponses]
    rfl
  · rw [Vacant, hwaiting]
    exact hvacant

/-- A response is on its own channel only. -/
theorem answersOn_respond (k : Kernel) (id channel : RequestId) (response : Response) :
    (k.respond channel response).answersOn id =
      k.answersOn id ++ if channel = id then [response] else [] := by
  simp only [answersOn, respond, List.filter_append, List.map_append]
  congr 1
  by_cases heq : channel = id
  · simp [heq]
  · simp [heq]

/-- A response on another channel. -/
theorem Skips.respond {id channel : RequestId} {k k' : Kernel} (h : Skips id k k') (hne : channel ≠ id)
    (response : Response) : Skips id k (k'.respond channel response) := by
  refine ⟨?_, h.vacant⟩
  rw [answersOn_respond, if_neg hne, List.append_nil]
  exact h.answers

/-- A dispatch says nothing on any channel. -/
theorem dispatch_channels (k : Kernel) (cpuId : Fin 2) (scheduledThisTick : List Pid) :
    (k.dispatch cpuId scheduledThisTick).2.waitingParents = k.waitingParents ∧
      (k.dispatch cpuId scheduledThisTick).2.responses = k.responses := by
  obtain ⟨updates, scheduler, lastRunning, hframe⟩ := k.dispatch_frame cpuId scheduledThisTick
  rw [hframe]
  exact ⟨rfl, rfl⟩

/-- A halted process: at most the first parent that waits for it is told. -/
theorem skips_zombify {id : RequestId} {k : Kernel} (hvacant : k.Vacant id) (pid : Pid) :
    Skips id k (k.zombify pid) := by
  rw [zombify]
  split
  · exact Skips.of_eq hvacant rfl rfl
  next state _ =>
  split
  · exact Skips.of_eq hvacant rfl rfl
  · rw [notifyParent]
    split
    · next waiter hfound =>
      have hother : waiter.channel ≠ id := hvacant waiter (List.mem_of_find?_eq_some hfound)
      apply Skips.respond _ hother
      refine ⟨rfl, ?_⟩
      intro waiter' hmem
      exact hvacant waiter' (List.mem_of_mem_eraseP hmem)
    · exact Skips.of_eq hvacant rfl rfl

end Kernel

/-- The channel on which a transition may answer at once. -/
def Act.channel : Act → Option RequestId
  | .request _ channel => channel
  | .respond channel => channel
  | _ => none

/-- A request without an answer of its own says nothing. -/
theorem RequestEffect.channels {k k' : Kernel} {req : ProcessRequest} (h : RequestEffect k req k') :
    k'.waitingParents = k.waitingParents ∧ k'.responses = k.responses := by
  cases h with
  | inert hreq h => exact ⟨h.waitingParents, h.responses⟩
  | received pid blocking h => exact ⟨h.waitingParents, h.responses⟩
  | signalQueued pid signal h => exact ⟨h.waitingParents, h.responses⟩
  | _ => exact ⟨rfl, rfl⟩

/-- The wait of another parent does not use the channel. -/
theorem skips_waitChild {id channel : RequestId} {k : Kernel} (hvacant : k.Vacant id)
    (hne : channel ≠ id) (pid : Pid) (childPid : Option Pid) :
    Skips id k (k.handleWaitChildWithResponse pid childPid channel).1 := by
  have hsame : Skips id k k := Skips.of_eq hvacant rfl rfl
  cases childPid with
  | none => exact hsame
  | some child =>
  simp only [handleWaitChildWithResponse]
  split
  · exact hsame.respond hne _
  split
  · exact hsame.respond hne _
  split
  · have hremoved : Skips id k ((k.blockThread child 1).removeProcess child) :=
      Skips.of_eq hvacant rfl rfl
    exact hremoved.respond hne _
  · refine ⟨rfl, ?_⟩
    intro waiter hmem
    rcases List.mem_append.1 hmem with hmem | hmem
    · exact hvacant waiter hmem
    · rw [List.mem_singleton.1 hmem]
      exact hne

/-- A transition that does not answer on the channel, when nobody waits on it. -/
theorem TableStep.skips {k k' : Kernel} {act : Act} (h : TableStep k act k') {id : RequestId}
    (hchannel : act.channel ≠ some id) (hvacant : k.Vacant id) : Skips id k k' := by
  cases h with
  | dispatch cpuId scheduled =>
    have hsame := k.dispatch_channels cpuId scheduled
    exact Skips.of_eq hvacant hsame.1 hsame.2
  | forkCall cpuId pid h => cases h <;> exact Skips.of_eq hvacant rfl rfl
  | execCall cpuId pid h => cases h <;> exact Skips.of_eq hvacant rfl rfl
  | fork h => cases h <;> exact Skips.of_eq hvacant rfl rfl
  | exec h => cases h <;> exact Skips.of_eq hvacant rfl rfl
  | zombified cpuId pid => exact skips_zombify hvacant pid
  | request channel h => exact Skips.of_eq hvacant h.channels.1 h.channels.2
  | waitChild pid childPid channel =>
    exact skips_waitChild hvacant (fun heq => hchannel (congrArg some heq)) pid childPid
  | responded channel response =>
    have hsame : Skips id k k := Skips.of_eq hvacant rfl rfl
    exact hsame.respond (fun heq => hchannel (congrArg some heq)) response
  | _ => exact Skips.of_eq hvacant rfl rfl

/-- The same along a trace. -/
theorem skips_trace {w : World} {s s' : Machine} {trace : List Tr} (h : Traced w s trace s')
    {id : RequestId} (hchannel : ∀ t ∈ trace, t.act.channel ≠ some id) (hvacant : s.toKernel.Vacant id) :
    Skips id s.toKernel s'.toKernel := by
  have hkept := h.chain.invariant (I := fun x => Skips id s.toKernel x.toKernel)
    (Skips.of_eq hvacant rfl rfl)
  refine (hkept ?_).1
  intro t ht hpre
  have hstep := (h.performed t ht).step_of.table.skips (hchannel t ht) hpre.vacant
  exact ⟨hstep.answers.trans hpre.answers, hstep.vacant⟩

/-- Numbers of requests are only taken. -/
theorem numbers_trace {w : World} {s s' : Machine} {trace : List Tr} (h : Traced w s trace s') :
    s.nextRequestId ≤ s'.nextRequestId := by
  have hkept := h.chain.invariant (I := fun x => s.nextRequestId ≤ x.nextRequestId) (Nat.le_refl _)
  refine (hkept ?_).1
  intro t ht hpre
  rcases (h.performed t ht).works with hworks | hnumber
  · rw [hworks.nextRequestId_eq]
    exact hpre
  · rw [hnumber]
    exact Nat.le_succ_of_le hpre

/-! ## Which channel an event answers on -/

/-- What the trace answers at once goes to this channel. -/
def Addressed (channel : Option RequestId) (trace : List Tr) : Prop :=
  ∀ t ∈ trace, t.act.channel = none ∨ t.act.channel = channel

namespace Addressed

variable {channel : Option RequestId} {trace trace' : List Tr}

/-- Nothing is addressed. -/
theorem nil (channel : Option RequestId) : Addressed channel [] := by
  intro t ht
  cases ht

/-- Two traces with one channel. -/
theorem append (h : Addressed channel trace) (h' : Addressed channel trace') :
    Addressed channel (trace ++ trace') := by
  intro t ht
  rcases List.mem_append.1 ht with ht | ht
  · exact h t ht
  · exact h' t ht

/-- One transition, -/
theorem single {s s' : Machine} {act : Act} (h : act.channel = none ∨ act.channel = channel) :
    Addressed channel [⟨s, act, s'⟩] := by
  intro t ht
  rw [List.mem_singleton.1 ht]
  exact h

/-- and one before others. -/
theorem cons {s s' : Machine} {act : Act} (h : act.channel = none ∨ act.channel = channel)
    (h' : Addressed channel trace) : Addressed channel (⟨s, act, s'⟩ :: trace) :=
  (single h).append h'

end Addressed

section traces

variable (w : World) (s : Machine) (channel : Option RequestId)

/-- A system call of a process uses no channel, -/
theorem addressed_runSyscall (cpuId : Fin 2) (pid : Pid) : Addressed channel (runSyscall w cpuId pid s).2 := by
  simp only [runSyscall]
  split
  · exact Addressed.nil channel
  · split
    · exact Addressed.nil channel
    · exact Addressed.single (Or.inl rfl)

/-- nor does a fault that is passed on, -/
theorem addressed_forwardFault (cpuId : Fin 2) (pid : Pid) :
    Addressed channel (forwardFault w cpuId pid s).2 := by
  simp only [forwardFault]
  split
  · exact Addressed.nil channel
  · split
    · exact Addressed.nil channel
    · exact Addressed.single (Or.inl rfl)

/-- a time slice, -/
theorem addressed_execute (cpuId : Fin 2) (pid : Pid) (n : Nat) :
    Addressed channel (execute w cpuId pid n s).2 := by
  induction n generalizing s with
  | zero => exact Addressed.nil channel
  | succ n ih =>
    simp only [execute]
    split
    · exact Addressed.nil channel
    next cpu _ =>
    split
    · exact Addressed.nil channel
    have hstep : Addressed channel [⟨s, Act.step cpuId pid, (s.stepCpu w pid cpu).2⟩] :=
      Addressed.single (Or.inl rfl)
    split
    · exact hstep
    have hcalled := hstep.append (addressed_runSyscall w (s.stepCpu w pid cpu).2 channel cpuId pid)
    split
    · exact hcalled
    · exact (hcalled.append (addressed_forwardFault w _ channel cpuId pid)).append (ih _)

/-- a turn, -/
theorem addressed_turn (cpuId : Fin 2) (scheduledThisTick : List Pid) :
    Addressed channel (turn w cpuId scheduledThisTick s).2.1 := by
  have hfirst : Addressed channel
      [⟨s, Act.dispatch cpuId, (s.dispatch cpuId scheduledThisTick).2⟩] := Addressed.single (Or.inl rfl)
  simp only [turn]
  split
  · next pid _ _ =>
    refine (hfirst.append (addressed_execute w _ channel cpuId pid 3)).append ?_
    exact Addressed.cons (Or.inl rfl) (Addressed.single (Or.inl rfl))
  · exact hfirst.append (Addressed.single (Or.inl rfl))

/-- or a tick. -/
theorem addressed_tick : Addressed channel (s.handleTimerInterrupt w).2 :=
  (addressed_turn w s channel 0 []).append (addressed_turn w _ channel 1 _)

/-- A creation uses none on its own, -/
theorem addressed_createProcess (executable : String) (args : List String) :
    Addressed channel (s.createProcess w executable args).2.1 := by
  have hforked : Addressed channel (s.forkTraced w 0).2.1 := Addressed.single (Or.inl rfl)
  simp only [createProcess]
  split
  · next heq =>
    rw [heq] at hforked
    exact hforked
  · next heq =>
    rw [heq] at hforked
    exact hforked.append (Addressed.single (Or.inl rfl))

/-- nor do several, -/
theorem addressed_spawnStrict (name : String) (n : Nat) :
    Addressed channel (spawnStrict w name n s).2.1 := by
  induction n generalizing s with
  | zero => exact Addressed.nil channel
  | succ n ih =>
    have hcreated := addressed_createProcess w s channel name []
    simp only [spawnStrict]
    split
    · next heq =>
      rw [heq] at hcreated
      exact hcreated
    · next heq =>
      rw [heq] at hcreated
      exact hcreated.append (ih _)

/-- where each may fail, -/
theorem addressed_spawnLenient (name : String) (n : Nat) :
    Addressed channel (spawnLenient w name n s).2.1 := by
  induction n generalizing s with
  | zero => exact Addressed.nil channel
  | succ n ih =>
    have hforked : Addressed channel (s.forkTraced w 0).2.1 := Addressed.single (Or.inl rfl)
    simp only [spawnLenient]
    split
    · next heq =>
      rw [heq] at hforked
      exact hforked.append (ih _)
    · next heq =>
      rw [heq] at hforked
      exact (hforked.append (Addressed.single (Or.inl rfl))).append (ih _)

/-- or the message that asks for them. -/
theorem addressed_spawnMessage (program : String) :
    Addressed channel (s.handleSpawnMessage w program).2 := by
  have hprepared : Addressed channel (s.prepareShared w (spawnPlan program).1).2.1 := by
    simp only [prepareShared]
    split
    · exact Addressed.single (Or.inl rfl)
    · exact Addressed.nil channel
  have hspawned := hprepared.append (addressed_spawnLenient w
    (s.prepareShared w (spawnPlan program).1).1 channel (spawnPlan program).1 (spawnPlan program).2)
  simp only [handleSpawnMessage]
  split
  · exact hspawned
  · exact hspawned.append (Addressed.single (Or.inl rfl))

/-- An answer uses the channel of its envelope, -/
theorem addressed_respond (answer : Option Answer) : Addressed channel (s.respondTraced channel answer).2 :=
  Addressed.single (Or.inr rfl)

/-- and so does a request, -/
theorem addressed_request (req : ProcessRequest) : Addressed channel (s.handleRequest w req channel).2 := by
  simp only [handleRequest]
  split
  · exact Addressed.cons (Or.inl rfl) (addressed_respond _ channel _)
  · exact Addressed.cons (Or.inl rfl) (addressed_respond _ channel _)
  · exact (addressed_spawnStrict w s _ _ _).append (addressed_respond _ _ _)
  · exact addressed_spawnMessage w s _ _
  · exact Addressed.cons (Or.inr rfl) (addressed_respond _ _ _)

/-- and every message. -/
theorem addressed_message (msg : KernelMsg) : Addressed channel (s.handleMessage w msg channel).2 := by
  cases msg with
  | process req => exact addressed_request w s channel req
  | syscall call =>
    cases call with
    | createProcess executable args =>
      exact (addressed_createProcess w s channel executable args).append (addressed_respond _ channel _)
    | _ => exact addressed_respond s channel _
  | interrupt int =>
    cases int with
    | timer => exact addressed_tick w s channel
    | pageFault addr access => exact Addressed.single (Or.inl rfl)
    | _ => exact Addressed.nil channel
  | _ => exact Addressed.nil channel

end traces

/-- An event answers at once on one channel at most, and its number is then taken. -/
theorem event_channel {w : World} {s : Machine} {event : Event} {t : Tr}
    (ht : t ∈ (s.handleEvent w event).2) {id : RequestId} (hchannel : t.act.channel = some id) :
    id = s.nextRequestId ∧ id < (s.handleEvent w event).1.nextRequestId := by
  have hnone : Addressed none (s.handleEvent w event).2 → False := by
    intro haddressed
    rcases haddressed t ht with h | h
    · cases h.symm.trans hchannel
    · cases h.symm.trans hchannel
  cases event with
  | timer => exact absurd (addressed_tick w s none) hnone
  | envelope msg expectsResponse =>
    cases expectsResponse with
    | false => exact absurd (addressed_message w s none msg) hnone
    | true =>
      have hnumber := numbers_trace (handleMessage_traced w { s with nextRequestId := s.nextRequestId + 1 } msg
        (some s.nextRequestId))
      rcases List.mem_cons.1 ht with rfl | ht
      · cases hchannel
      · rcases addressed_message w _ (some s.nextRequestId) msg t ht with h | h
        · cases h.symm.trans hchannel
        · cases h.symm.trans hchannel
          exact ⟨rfl, hnumber⟩

/-! ## Channels in a run -/

/-- No later channel has been used. -/
def Fresh (s : Machine) : Prop :=
  ∀ id, s.nextRequestId ≤ id → s.toKernel.Vacant id ∧ s.toKernel.answersOn id = []

/-- At boot no channel has been used. -/
theorem fresh_boot (w : World) (memory : MemoryService) : Fresh (boot w memory) := by
  intro id _
  have hempty : (boot w memory).waitingParents = [] ∧ (boot w memory).responses = [] := by
    cases boot_tables w memory
    exact ⟨rfl, rfl⟩
  refine ⟨?_, ?_⟩
  · rw [Vacant, hempty.1]
    intro waiter hmem
    cases hmem
  · rw [answersOn, hempty.2]
    rfl

/-- An event uses the channels that were handed out, -/
theorem fresh_event (w : World) (s : Machine) (event : Event) (h : Fresh s) :
    Fresh (s.handleEvent w event).1 := by
  intro id hid
  have htraced := handleEvent_traced w s event
  obtain ⟨hvacant, hnone⟩ := h id (Nat.le_trans (numbers_trace htraced) hid)
  have hskips := skips_trace htraced (fun t ht hchannel =>
    Nat.lt_irrefl _ (Nat.lt_of_lt_of_le (event_channel ht hchannel).2 hid)) hvacant
  exact ⟨hskips.vacant, hskips.answers.trans hnone⟩

/-- and so does a run. -/
theorem fresh_run (w : World) (memory : MemoryService) (events : List Event) :
    Fresh (run w memory events).1 :=
  runTrace_invariant (fresh_event w) (fresh_boot w memory) events

/-- Nothing more comes to a channel of an earlier request that nobody waits on. -/
theorem skips_events (w : World) {s : Machine} {id : RequestId} (hid : id < s.nextRequestId)
    (hvacant : s.toKernel.Vacant id) (events : List Event) :
    Skips id s.toKernel (runTrace (handleEvent w) s events).1.toKernel := by
  have hstep : ∀ s' event, id < s'.nextRequestId ∧ Skips id s.toKernel s'.toKernel →
      id < (handleEvent w s' event).1.nextRequestId ∧
        Skips id s.toKernel (handleEvent w s' event).1.toKernel := by
    rintro s' event ⟨hlt, hskips⟩
    have htraced := handleEvent_traced w s' event
    have hnext := skips_trace htraced (fun t ht hchannel =>
      Nat.ne_of_lt hlt (event_channel ht hchannel).1) hskips.vacant
    exact ⟨Nat.lt_of_lt_of_le hlt (numbers_trace htraced), hnext.answers.trans hskips.answers, hnext.vacant⟩
  exact (runTrace_invariant hstep ⟨hid, Skips.of_eq hvacant rfl rfl⟩ events).2

/-! ## Requests that are answered at once -/

/-- The request is done with: it has its answer, and nobody waits on its channel. -/
structure Settled (id : RequestId) (k : Kernel) : Prop where
  once : AnsweredOnce id (k.answersOn id)
  vacant : k.Vacant id

/-- The channel has not been used. -/
structure Unused (id : RequestId) (k : Kernel) : Prop where
  vacant : k.Vacant id
  answers : k.answersOn id = []

section processing

variable {id : RequestId}

/-- A channel stays unused while nothing is said. -/
theorem Unused.of_eq {k k' : Kernel} (h : Unused id k) (hwaiting : k'.waitingParents = k.waitingParents)
    (hresponses : k'.responses = k.responses) : Unused id k' := by
  have hskips := Skips.of_eq h.vacant hwaiting hresponses
  exact ⟨hskips.vacant, hskips.answers.trans h.answers⟩

/-- One response settles it. -/
theorem Unused.respond {k : Kernel} (h : Unused id k) {response : Response} (hid : response.requestId = id) :
    Settled id (k.respond id response) := by
  refine ⟨⟨response, ?_, hid⟩, h.vacant⟩
  rw [answersOn_respond, if_pos rfl, h.answers, List.nil_append]

/-- The answer of a handler that has ended. -/
theorem Unused.finish {s : Machine} (h : Unused id s.toKernel) (answer : Answer) :
    Settled id (s.finish (some id) (some answer)).toKernel := by
  cases answer with
  | ok data => exact h.respond rfl
  | error e => exact h.respond rfl

/-- The same after operations that answer nothing. -/
theorem Unused.after {w : World} {s s' : Machine} {trace : List Tr} (h : Unused id s.toKernel)
    (htraced : Traced w s trace s') (haddressed : Addressed none trace) : Unused id s'.toKernel := by
  have helse : ∀ t ∈ trace, t.act.channel ≠ some id := by
    intro t ht hchannel
    rcases haddressed t ht with hnone | hnone
    · cases hnone.symm.trans hchannel
    · cases hnone.symm.trans hchannel
  have hskips := skips_trace htraced helse h.vacant
  exact ⟨hskips.vacant, hskips.answers.trans h.answers⟩

/-- A wait that names a child sends its answer itself, or stores the channel. -/
theorem waitChild_toKernel (s : Machine) (w : World) (pid child : Pid) :
    (s.handleRequest w (.waitChild pid (some child)) (some id)).1.toKernel =
      (s.toKernel.handleWaitChildWithResponse pid (some child) id).1 := by
  have hok : (s.toKernel.handleWaitChildWithResponse pid (some child) id).2 = .ok () := by
    simp only [handleWaitChildWithResponse]
    split
    · rfl
    · split
      · rfl
      · split
        · rfl
        · rfl
  simp only [handleRequest, handleSimpleRequest, respondTraced, hok]
  rfl

/-- A wait for a child that is answered at once: the process is not a child, or it is not alive. -/
theorem settled_waitChild {s : Machine} (h : Unused id s.toKernel) (w : World) {pid child : Pid}
    (hdone : ¬(s.isChild pid child = true ∧ ∃ state, s.stateOf child = some state ∧
      state.isTerminated = false)) :
    Settled id (s.handleRequest w (.waitChild pid (some child)) (some id)).1.toKernel := by
  rw [waitChild_toKernel]
  simp only [handleWaitChildWithResponse]
  split
  · exact h.respond rfl
  next hchild =>
  split
  · exact h.respond rfl
  next state hstate =>
  split
  · have hremoved : Unused id ((s.toKernel.blockThread child 1).removeProcess child) := h.of_eq rfl rfl
    exact hremoved.respond rfl
  · next halive =>
    refine absurd ⟨?_, state, hstate, ?_⟩ hdone
    · simpa using hchild
    · simpa using halive

/-- The other requests. -/
theorem settled_request {s : Machine} (h : Unused id s.toKernel) (w : World) (req : ProcessRequest)
    (hreq : ∀ pid child, req ≠ .waitChild pid (some child)) :
    Settled id (s.handleRequest w req (some id)).1.toKernel := by
  -- requests that the tables answer without a channel
  have hplain : Unused id (s.toKernel.handleProcessRequest req).1 := by
    have hchannels := (s.toKernel.handleProcessRequest_effect req).channels
    exact h.of_eq hchannels.1 hchannels.2
  cases req with
  | forkProcess parent =>
    have hforked := h.after (forkTraced_served w s parent).toTraced (Addressed.single (Or.inl rfl))
    exact hforked.finish _
  | execProcess pid executable args path =>
    have hexeced := h.after (execTraced_served w s pid executable args).toTraced
      (Addressed.single (Or.inl rfl))
    exact hexeced.finish _
  | spawn program params =>
    have hspawned := h.after (spawnStrict_served w (spawnPlan program).1 (spawnPlan program).2 s).toTraced
      (addressed_spawnStrict w s none _ _)
    exact hspawned.finish _
  | waitChild pid childPid =>
    cases childPid with
    | none => exact Unused.finish (s := s.onKernel fun _ => s.toKernel) h _
    | some child => exact absurd rfl (hreq pid child)
  | getProcessInfo pid =>
    simp only [handleRequest, handleSimpleRequest, respondTraced]
    split
    · exact h.finish _
    · exact h.finish _
  | getStats => exact Unused.finish (s := s.advance) h _
  | getMemoryMap => exact Unused.finish (s := s.advance) h _
  | listProcesses => exact Unused.finish (s := s.advance) h _
  | _ => exact Unused.finish (s := s.onKernel fun _ => _) hplain _

/-- The message of a system call settles its channel at once. -/
theorem settled_syscall {s : Machine} (h : Unused id s.toKernel) (w : World) (call : Syscall) :
    Settled id (s.handleSyscallMessage w call (some id)).1.toKernel := by
  cases call with
  | createProcess executable args =>
    have hcreated := h.after (createProcess_served w s executable args).toTraced
      (addressed_createProcess w s none executable args)
    exact hcreated.finish _
  | _ => exact h.finish _

end processing

/-! ## Requests to the process service -/

/-- The requests that the process service answers. -/
def isProcessRequest : KernelMsg → Bool
  | .process _ => true
  | .syscall _ => true
  | _ => false

/-- The answer is due: for a wait, once the child is not alive any more. -/
def Due (s : Machine) : KernelMsg → Prop
  | .process (.waitChild _ (some child)) => ∀ state, s.stateOf child = some state → state.isTerminated = true
  | _ => True

/-- Whenever the answer is due, in the rest of every run, the channel has one response, with the
identifier of the request. -/
def AnsweredWhenDue (w : World) (s : Machine) (msg : KernelMsg) : Prop :=
  ∀ more : List Event,
    Due (runTrace (handleEvent w) s (.envelope msg true :: more)).1 msg →
      AnsweredOnce s.nextRequestId
        ((runTrace (handleEvent w) s (.envelope msg true :: more)).1.toKernel.answersOn s.nextRequestId)

/-- The requests that are answered so: all but a wait for a child that is alive. -/
def ProcessOnce (s : Machine) : KernelMsg → Prop
  | .process (.waitChild pid (some child)) =>
    ¬(s.isChild pid child = true ∧ ∃ state, s.stateOf child = some state ∧ state.isTerminated = false)
  | _ => True

/-- A channel that is settled at once is answered when it is due. -/
theorem answeredWhenDue_of_settled {w : World} {s : Machine} {msg : KernelMsg}
    (h : Settled s.nextRequestId (s.handleEvent w (.envelope msg true)).1.toKernel) :
    AnsweredWhenDue w s msg := by
  intro more _
  have htaken : s.nextRequestId < (s.handleEvent w (.envelope msg true)).1.nextRequestId :=
    numbers_trace (handleMessage_traced w { s with nextRequestId := s.nextRequestId + 1 } msg
      (some s.nextRequestId))
  have hskips := skips_events w htaken h.vacant more
  show AnsweredOnce s.nextRequestId
    ((runTrace (handleEvent w) (s.handleEvent w (.envelope msg true)).1 more).1.toKernel.answersOn _)
  rw [hskips.answers]
  exact h.once

/-- A kill by message: the process is a zombie, and that is all. -/
theorem kill_toKernel (w : World) (s : Machine) {pid : Pid} {state : ProcessState}
    (hstate : s.stateOf pid = some state) :
    (s.handleEvent w (.envelope (.process (.signal pid .kill)) false)).1.toKernel =
      (s.toKernel.releaseGlobals pid).setState pid (.zombie 0) := by
  have hthere : (s.processTable.lookup pid).isNone = false := by
    rw [stateOf, Option.map_eq_some_iff] at hstate
    obtain ⟨pcb, hpcb, -⟩ := hstate
    rw [hpcb]
    rfl
  show (s.toKernel.handleSignal pid .kill).1 = _
  simp [handleSignal, hthere]

/-- A wait for a living child, which is then killed: it is a zombie, and nobody is told. -/
theorem waitChild_unanswered {w : World} {s : Machine} (h : Unused s.nextRequestId s.toKernel)
    {pid child : Pid} {state : ProcessState} (hchild : s.isChild pid child = true)
    (hstate : s.stateOf child = some state) (halive : state.isTerminated = false) :
    ¬AnsweredWhenDue w s (.process (.waitChild pid (some child))) := by
  intro hanswered
  have hwaits : (s.handleEvent w (.envelope (.process (.waitChild pid (some child))) true)).1.toKernel =
      { s.toKernel with waitingParents := s.waitingParents ++ [⟨child, pid, s.nextRequestId⟩] } := by
    show (({ s with nextRequestId := s.nextRequestId + 1 } : Machine).handleRequest w
      (.waitChild pid (some child)) (some s.nextRequestId)).1.toKernel = _
    rw [waitChild_toKernel]
    simp [handleWaitChildWithResponse, hchild, hstate, halive]
  have hlives : (s.handleEvent w (.envelope (.process (.waitChild pid (some child))) true)).1.stateOf child =
      some state := by
    rw [hwaits]
    exact hstate
  -- the kill ends the child and looks for no parent that waits
  have hkilled := kill_toKernel w _ hlives
  rw [hwaits] at hkilled
  -- so the answer is due after the kill, and there is none
  have hdue := hanswered [.envelope (.process (.signal child .kill)) false]
  simp only [runTrace, Due] at hdue
  rw [hkilled] at hdue
  have hzombie : ∀ state', ((({ s.toKernel with waitingParents := s.waitingParents ++
      [⟨child, pid, s.nextRequestId⟩] } : Kernel).releaseGlobals child).setState child (.zombie 0)).stateOf child =
      some state' → state'.isTerminated = true := by
    intro state' hstate'
    rw [setState_stateOf, if_pos rfl] at hstate'
    obtain ⟨_, -, rfl⟩ := Option.map_eq_some_iff.1 hstate'
    rfl
  obtain ⟨response, hone, -⟩ := hdue hzombie
  have hnothing : s.toKernel.answersOn s.nextRequestId = [response] := hone
  rw [h.answers] at hnothing
  cases hnothing

/-- Exactly when the process service answers a message once, when the answer is due. -/
theorem process_answeredWhenDue_iff {w : World} {s : Machine} (h : Fresh s) {msg : KernelMsg}
    (hmsg : isProcessRequest msg = true) : AnsweredWhenDue w s msg ↔ ProcessOnce s msg := by
  obtain ⟨hvacant, hnone⟩ := h s.nextRequestId (Nat.le_refl _)
  have hunused : Unused s.nextRequestId s.toKernel := ⟨hvacant, hnone⟩
  have hnumbered : Unused s.nextRequestId
      ({ s with nextRequestId := s.nextRequestId + 1 } : Machine).toKernel := hunused
  cases msg with
  | syscall call =>
    exact iff_of_true (answeredWhenDue_of_settled (settled_syscall hnumbered w call)) trivial
  | process req =>
    by_cases hreq : ∃ pid child, req = .waitChild pid (some child)
    · obtain ⟨pid, child, rfl⟩ := hreq
      constructor
      · rintro hanswered ⟨hchild, state, hstate, halive⟩
        exact waitChild_unanswered hunused hchild hstate halive hanswered
      · intro hdone
        exact answeredWhenDue_of_settled (settled_waitChild hnumbered w hdone)
    · have hother : ∀ pid child, req ≠ .waitChild pid (some child) :=
        fun pid child heq => hreq ⟨pid, child, heq⟩
      refine iff_of_true (answeredWhenDue_of_settled (settled_request hnumbered w req hother)) ?_
      cases req with
      | waitChild pid childPid =>
        cases childPid with
        | none => trivial
        | some child => exact absurd rfl (hother pid child)
      | _ => trivial
  | _ => cases hmsg

/-! ## The three services -/

/-- In every run of the memory service the frames are counted exactly. -/
theorem exact_memoryRun (size : UInt64) (swapImage : Nat → UInt8) (events : List MemoryEvent) :
    (runTrace memoryTransition (bootMemory size swapImage) events).1.memoryManager.Exact := by
  have hregular : RegularService size (runTrace memoryTransition (bootMemory size swapImage) events).1 := by
    apply runTrace_invariant _ (regular_boot size swapImage)
    intro m event hm
    exact regular_serve hm event.ord (event.req, event.answered)
  exact hregular.history.fit.exact

/-- Which requests are answered exactly once and with their own identifier: to the file service in every
reachable state, to the memory service and to the process service in every state of every run. -/
theorem answeredOnce_iff {diskSize maxFds : Nat} {file : Files.FileService}
    (hfile : Files.Reachable diskSize maxFds file) (fileReq : FileRequest)
    (size : UInt64) (swapImage : Nat → UInt8) (memoryEvents : List MemoryEvent) (memoryReq : MemoryRequest)
    (w : World) (memory : MemoryService) (events : List Event) {msg : KernelMsg}
    (hmsg : isProcessRequest msg = true) (ord : HashOrder) (id : RequestId) :
    (AnsweredOnce id (file.responses ord id fileReq) ↔ Files.FileOnce file fileReq) ∧
    (AnsweredOnce id ((runTrace memoryTransition (bootMemory size swapImage) memoryEvents).1.responses ord id
        memoryReq) ↔
      MemoryOnce (runTrace memoryTransition (bootMemory size swapImage) memoryEvents).1 ord memoryReq) ∧
    (AnsweredWhenDue w (run w memory events).1 msg ↔ ProcessOnce (run w memory events).1 msg) := by
  refine ⟨?_, ?_, ?_⟩
  · have hgrown := Files.VirtualFileSystem.grown_of_evolved (Files.tended_of_reachable hfile).1
    exact Files.file_answeredOnce_iff hgrown.toSprouted ord id fileReq
  · exact memory_answeredOnce_iff (exact_memoryRun size swapImage memoryEvents) ord id memoryReq
  · exact process_answeredWhenDue_iff (fresh_run w memory events) hmsg

/-- A file is open for writing through descriptor 3. -/
def writableFile : Files.FileService :=
  (Files.FileService.boot 4096 256 []).take ⟨.stored, .open "/tmp/a" ⟨true, true, true, false, false⟩, true⟩

/-- Eight bytes are written, a frame is taken, and a process is forked. -/
theorem answeredOnce_written :
    AnsweredOnce 7 (writableFile.responses .stored 7 (.write 3 0 0 8)) ∧
    AnsweredOnce 7 ((bootMemory 4096 fun _ => 0).responses .stored 7 (.allocFrame 1 2)) ∧
    AnsweredWhenDue (World.calm []) (run (World.calm []) (bootMemory 4096 fun _ => 0) []).1
      (.process (.forkProcess 0)) := by
  have hreachable : Files.Reachable 4096 256 writableFile := .take _ (.boot [])
  have hfork : isProcessRequest (.process (.forkProcess 0)) = true := rfl
  obtain ⟨hfile, hmemory, hprocess⟩ := answeredOnce_iff hreachable (.write 3 0 0 8) 4096 (fun _ => 0)
    [] (.allocFrame 1 2) (World.calm []) (bootMemory 4096 fun _ => 0) [] hfork .stored 7
  refine ⟨hfile.2 ⟨by decide, ?_⟩, hmemory.2 ?_, hprocess.2 trivial⟩
  · have hopen : (writableFile.fileOf 0 3).any (fun found => decide (found.2.WriteGoesOn 8)) = true := by
      decide +kernel
    obtain ⟨⟨i, f⟩, hf, hgoes⟩ := (Option.any_eq_true _ _).1 hopen
    exact ⟨i, f, hf, of_decide_eq_true hgoes⟩
  · show 1 ≤ (bootMemory 4096 fun _ => 0).memoryManager.allocator.freeQueue.length
    decide +kernel

/-- A path that does not exist is refused twice: by the handler and by the envelope. A write for which there
is no vector is not answered at all. -/
theorem answered_twice_or_never :
    Files.Reachable 4096 256 (Files.FileService.boot 4096 256 []) ∧
    (Files.FileService.boot 4096 256 []).responses .stored 7 (.open "/tmp/a" .readOnly) =
      [.error 7 (.notFound "File" "/tmp/a"),
        .error 7 (.other 1 "[Service] Path component not found: a")] ∧
    ¬AnsweredOnce 7 ((Files.FileService.boot 4096 256 []).responses .stored 7 (.open "/tmp/a" .readOnly)) ∧
    (Files.FileService.boot 4096 256 []).responses .stored 7 (.write 3 0 0 (2 ^ 63)) = [] := by
  have htwice : (Files.FileService.boot 4096 256 []).responses .stored 7 (.open "/tmp/a" .readOnly) =
      [.error 7 (.notFound "File" "/tmp/a"),
        .error 7 (.other 1 "[Service] Path component not found: a")] := by
    decide +kernel
  refine ⟨.boot [], htwice, ?_, ?_⟩
  · rintro ⟨response, hone, -⟩
    rw [htwice] at hone
    cases hone
  · apply Files.responses_of_panics
    rw [Files.FileService.panics, zeroed_isNone_iff.2 (by decide), Bool.true_or]

end GenshinOs.Process
