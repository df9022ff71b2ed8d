import GenshinOs.Process.Answers
import GenshinOs.Process.Endings

/-!
# Exit codes for waiting parents

A parent that waits for a child on a response channel should get the exit code of the child there, once,
whenever it asks. `Deaths` keeps what the service may have forgotten: with which code each process ended,
and on which channels parents have asked.

Three paths end a process and only one of them, the clean-up after a halt, tells a parent that waits, and
only the first one. A parent that asks later is told what the table still says: the exit code of the
zombie, or 0 when the reaper was faster. `Deaths.Orderly` excludes the steps at which this goes wrong, and
`exit_code_delivered` says that in all other runs every parent has its answer as soon as the child has
ended.
-/

set_option autoImplicit false

namespace GenshinOs.Process

open GenshinOs.Lib GenshinOs.Hardware GenshinOs.Memory

open Machine Kernel

/-! ## A channel -/

namespace Kernel

/-- The parents that wait on a channel. -/
def waitersOn (k : Kernel) (id : RequestId) : List Waiter :=
  k.waitingParents.filter fun waiter => waiter.channel == id

theorem mem_waitersOn {k : Kernel} {id : RequestId} {waiter : Waiter} :
    waiter ∈ k.waitersOn id ↔ waiter ∈ k.waitingParents ∧ waiter.channel = id := by
  rw [waitersOn, List.mem_filter, beq_iff_eq]

theorem waitersOn_eq_nil {k : Kernel} {id : RequestId} : k.waitersOn id = [] ↔ k.Vacant id := by
  rw [waitersOn, List.filter_eq_nil_iff]
  simp only [Vacant, beq_iff_eq]

/-- Nothing happens on the channel. -/
structure Undisturbed (id : RequestId) (k k' : Kernel) : Prop where
  answers : k'.answersOn id = k.answersOn id
  waiters : k'.waitersOn id = k.waitersOn id

namespace Undisturbed

variable {id channel : RequestId} {k k' k'' : Kernel}

theorem of_eq (hwaiting : k'.waitingParents = k.waitingParents) (hresponses : k'.responses = k.responses) :
    Undisturbed id k k' := by
  refine ⟨?_, ?_⟩
  · rw [answersOn, hresponses]
    rfl
  · rw [waitersOn, hwaiting]
    rfl

theorem trans (h : Undisturbed id k k') (h' : Undisturbed id k' k'') : Undisturbed id k k'' :=
  ⟨h'.answers.trans h.answers, h'.waiters.trans h.waiters⟩

theorem respond (h : Undisturbed id k k') (hne : channel ≠ id) (response : Response) :
    Undisturbed id k (k'.respond channel response) := by
  refine ⟨?_, h.waiters⟩
  rw [answersOn_respond, if_neg hne, List.append_nil]
  exact h.answers

end Undisturbed

/-- A wait with another channel. -/
theorem undisturbed_waitChild {id channel : RequestId} (k : Kernel) (hne : channel ≠ id) (pid : Pid)
    (childPid : Option Pid) :
    Undisturbed id k (k.handleWaitChildWithResponse pid childPid channel).1 := by
  have hsame : Undisturbed id k k := .of_eq rfl rfl
  cases childPid with
  | none => exact hsame
  | some child =>
    simp only [handleWaitChildWithResponse]
    split
    · exact hsame.respond hne _
    split
    · exact hsame.respond hne _
    split
    · have hremoved : Undisturbed id k ((k.blockThread child 1).removeProcess child) := .of_eq rfl rfl
      exact hremoved.respond hne _
    · refine ⟨rfl, ?_⟩
      have hother : [(⟨child, pid, channel⟩ : Waiter)].filter (fun waiter => waiter.channel == id) = [] :=
        List.filter_cons_of_neg (by simpa using hne)
      simp only [waitersOn, List.filter_append]
      rw [hother, List.append_nil]

/-- The first parent that waits for a process, and the others. -/
theorem notifyParent_cases (k : Kernel) (pid : Pid) (code : Int32) :
    (∀ waiter ∈ k.waitingParents, waiter.child ≠ pid) ∧ k.notifyParent pid code = k ∨
      ∃ waiter before after, k.waitingParents = before ++ waiter :: after ∧ waiter.child = pid ∧
        (∀ other ∈ before, other.child ≠ pid) ∧
        k.notifyParent pid code =
          ({ k with waitingParents := before ++ after }).respond waiter.channel
            (.success 0 (.integer (exitCodeWord code))) := by
  rw [notifyParent]
  cases hfound : k.waitingParents.find? (·.child == pid) with
  | none =>
    refine Or.inl ⟨fun waiter hmem => ?_, rfl⟩
    simpa using List.find?_eq_none.1 hfound waiter hmem
  | some waiter =>
    obtain ⟨hchild, before, after, hsplit, hbefore⟩ := List.find?_eq_some_iff_append.1 hfound
    refine Or.inr ⟨waiter, before, after, hsplit, by simpa using hchild, ?_, ?_⟩
    · intro other hother
      simpa using hbefore other hother
    · have herase : k.waitingParents.eraseP (·.child == pid) = before ++ after := by
        have hskip : ∀ other ∈ before, ¬(other.child == pid) = true :=
          fun other hother => by simpa using hbefore other hother
        rw [hsplit, List.eraseP_append_right _ hskip]
        exact congrArg (before ++ ·) (List.eraseP_cons_of_pos hchild)
      simp only [herase]

/-- Nobody on the channel waits for the process. -/
theorem undisturbed_notifyParent {k : Kernel} {id : RequestId} {pid : Pid} (code : Int32)
    (h : ∀ waiter ∈ k.waitersOn id, waiter.child ≠ pid) :
    Undisturbed id k (k.notifyParent pid code) := by
  rcases k.notifyParent_cases pid code with ⟨-, heq⟩ | ⟨waiter, before, after, hsplit, hchild, -, heq⟩
  · rw [heq]
    exact .of_eq rfl rfl
  · have hother : waiter.channel ≠ id := by
      intro hchannel
      refine h waiter (mem_waitersOn.2 ⟨?_, hchannel⟩) hchild
      rw [hsplit]
      exact List.mem_append_right _ List.mem_cons_self
    have hleft : Undisturbed id k { k with waitingParents := before ++ after } := by
      refine ⟨rfl, ?_⟩
      rw [waitersOn, waitersOn, hsplit, List.filter_append, List.filter_append,
        List.filter_cons_of_neg (by simpa using hother)]
    rw [heq]
    exact hleft.respond hother _

/-- The only parent that waits for the process is told. -/
theorem notifyParent_tells {k : Kernel} {id : RequestId} {pid parent : Pid} (code : Int32)
    (hwaits : k.waitersOn id = [⟨pid, parent, id⟩]) (hnone : k.answersOn id = [])
    (honly : k.waitingParents.countP (·.child == pid) ≤ 1) :
    (k.notifyParent pid code).answersOn id = [.success 0 (.integer (exitCodeWord code))] ∧
      (k.notifyParent pid code).waitersOn id = [] := by
  have hmem : (⟨pid, parent, id⟩ : Waiter) ∈ k.waitingParents :=
    (mem_waitersOn.1 (by rw [hwaits]; exact List.mem_singleton_self _)).1
  rcases k.notifyParent_cases pid code with ⟨hall, -⟩ | ⟨waiter, before, after, hsplit, hchild, hbefore, heq⟩
  · exact absurd rfl (hall _ hmem)
  · -- a second parent would be counted
    have hafter : ∀ other ∈ after, other.child ≠ pid := by
      intro other hother hsame
      have hpos : 0 < after.countP (·.child == pid) :=
        List.countP_pos_iff.2 ⟨other, hother, by simpa using hsame⟩
      rw [hsplit, List.countP_append, List.countP_cons_of_pos (by simpa using hchild)] at honly
      omega
    have hwaiter : waiter = ⟨pid, parent, id⟩ := by
      rw [hsplit] at hmem
      rcases List.mem_append.1 hmem with hin | hin
      · exact absurd rfl (hbefore _ hin)
      · rcases List.mem_cons.1 hin with hself | hin
        · exact hself.symm
        · exact absurd rfl (hafter _ hin)
    rw [waitersOn, hsplit, hwaiter, List.filter_append, List.filter_cons_of_pos (by simp)] at hwaits
    have hlength := congrArg List.length hwaits
    simp only [List.length_append, List.length_cons, List.length_nil] at hlength
    rw [heq, hwaiter]
    refine ⟨?_, ?_⟩
    · rw [answersOn_respond, if_pos rfl]
      have hsame : ({ k with waitingParents := before ++ after } : Kernel).answersOn id = k.answersOn id := rfl
      rw [hsame, hnone, List.nil_append]
    · show (before ++ after).filter _ = []
      rw [List.filter_append]
      exact List.append_eq_nil_iff.2
        ⟨List.length_eq_zero_iff.1 (by omega), List.length_eq_zero_iff.1 (by omega)⟩

theorem undisturbed_zombify {k : Kernel} {id : RequestId} {pid : Pid}
    (h : ∀ st, k.stateOf pid = some st → st.isTerminated = true) : Undisturbed id k (k.zombify pid) := by
  rw [zombify_of_dead k pid h]
  exact .of_eq rfl rfl

end Kernel

/-- A transition that is no clean-up and does not answer on the channel. -/
theorem TableStep.undisturbed {k k' : Kernel} {act : Act} (h : TableStep k act k') {id : RequestId}
    (hchannel : act.channel ≠ some id) (hact : ∀ cpuId pid, act ≠ .settle cpuId pid) :
    Undisturbed id k k' := by
  cases h with
  | dispatch cpuId scheduled =>
    have hsame := k.dispatch_channels cpuId scheduled
    exact .of_eq hsame.1 hsame.2
  | forkCall cpuId pid h => cases h <;> exact .of_eq rfl rfl
  | execCall cpuId pid h => cases h <;> exact .of_eq rfl rfl
  | fork h => cases h <;> exact .of_eq rfl rfl
  | exec h => cases h <;> exact .of_eq rfl rfl
  | zombified cpuId pid => exact absurd rfl (hact cpuId pid)
  | request channel h => exact .of_eq h.channels.1 h.channels.2
  | waitChild pid childPid channel =>
    exact undisturbed_waitChild k (fun heq => hchannel (congrArg some heq)) pid childPid
  | responded channel response =>
    have hsame : Undisturbed id k k := .of_eq rfl rfl
    exact hsame.respond (fun heq => hchannel (congrArg some heq)) response
  | _ => exact .of_eq rfl rfl

/-! ## Children -/

namespace Kernel

theorem isChild_congr {k k' : Kernel} (h : k'.parentChildren = k.parentChildren) (p q : Pid) :
    k'.isChild p q = k.isChild p q := by
  rw [isChild, isChild, h]

theorem dispatch_parentChildren (k : Kernel) (cpuId : Fin 2) (scheduledThisTick : List Pid) :
    (k.dispatch cpuId scheduledThisTick).2.parentChildren = k.parentChildren := by
  obtain ⟨updates, scheduler, lastRunning, hframe⟩ := k.dispatch_frame cpuId scheduledThisTick
  rw [hframe]

theorem zombify_parentChildren (k : Kernel) (pid : Pid) :
    (k.zombify pid).parentChildren = k.parentChildren := by
  obtain ⟨updates, scheduler, sync, waiting, responses, hframe⟩ := k.zombify_frame pid
  rw [hframe]

/-- The forked process is a child, and no other process becomes one. -/
theorem isChild_forkChild {k : Kernel} {parent p q : Pid} (h : (k.forkChild parent).isChild p q = true) :
    k.isChild p q = true ∨ q = k.nextPid := by
  rw [isChild] at h ⊢
  by_cases hp : p = parent
  · have hlookup : (k.forkChild parent).parentChildren.lookup parent =
        some ((k.parentChildren.lookup parent).getD [] ++ [k.nextPid]) := AList.lookup_insert _
    rw [hp, hlookup] at h
    rcases List.mem_append.1 (of_decide_eq_true h) with hold | hnew
    · refine Or.inl ?_
      rw [hp]
      cases hlook : k.parentChildren.lookup parent with
      | none =>
        rw [hlook] at hold
        cases hold
      | some children =>
        rw [hlook] at hold
        exact decide_eq_true hold
    · exact Or.inr (List.mem_singleton.1 hnew)
  · have hlookup : (k.forkChild parent).parentChildren.lookup p = k.parentChildren.lookup p :=
      AList.lookup_insert_ne hp
    rw [hlookup] at h
    exact Or.inl h

end Kernel

theorem ForkStep.isChild {k k' : Kernel} {parent p q : Pid} (h : ForkStep k parent k')
    (hchild : k'.isChild p q = true) : k.isChild p q = true ∨ (k'.stateOf q).isSome = true := by
  cases h with
  | child hparent =>
    rcases isChild_forkChild hchild with hold | rfl
    · exact Or.inl hold
    · refine Or.inr ?_
      rw [forkChild_stateOf, if_pos rfl]
      rfl
  | _ => exact Or.inl hchild

theorem RequestEffect.parentChildren_eq {k k' : Kernel} {req : ProcessRequest} (h : RequestEffect k req k') :
    k'.parentChildren = k.parentChildren := by
  cases h with
  | inert hreq h => exact h.parentChildren
  | received pid blocking h => exact h.parentChildren
  | signalQueued pid signal h => exact h.parentChildren
  | _ => rfl

/-- A new child is in the table. -/
theorem TableStep.isChild {k k' : Kernel} {act : Act} {p q : Pid} (h : TableStep k act k')
    (hchild : k'.isChild p q = true) : k.isChild p q = true ∨ (k'.stateOf q).isSome = true := by
  cases h with
  | forkCall cpuId pid h => exact h.isChild hchild
  | fork h => exact h.isChild hchild
  | dispatch cpuId scheduled =>
    rw [isChild_congr (k.dispatch_parentChildren cpuId scheduled)] at hchild
    exact Or.inl hchild
  | zombified cpuId pid =>
    rw [isChild_congr (k.zombify_parentChildren pid)] at hchild
    exact Or.inl hchild
  | execCall cpuId pid h => cases h <;> exact Or.inl hchild
  | exec h => cases h <;> exact Or.inl hchild
  | request channel h =>
    rw [isChild_congr h.parentChildren_eq] at hchild
    exact Or.inl hchild
  | waitChild pid childPid channel =>
    -- children stay in the list of their parent when they are reaped
    have hsame : (k.handleWaitChildWithResponse pid childPid channel).1.parentChildren =
        k.parentChildren := by
      simp only [handleWaitChildWithResponse]
      split
      · rfl
      split
      · rfl
      split
      · rfl
      split
      · rfl
      · rfl
    rw [isChild_congr hsame] at hchild
    exact Or.inl hchild
  | _ => exact Or.inl hchild

/-! ## Deaths and waits -/

/-- With which code each process has ended, and for which children parents have asked on which channels. -/
structure Deaths where
  ended : Pid → Option Int32
  waits : List (Pid × RequestId)

namespace Deaths

/-- Nobody has ended. -/
def empty : Deaths := ⟨fun _ => none, []⟩

/-- The exit code of a process that ends in a transition. -/
def codeAt (t : Tr) (q : Pid) : Option Int32 :=
  if (t.pre.stateOf q).any ProcessState.isTerminated then none
  else ((t.post.stateOf q).filter ProcessState.isTerminated).map ProcessState.exitCode

/-- Follow the deaths and the waits of recorded parents. What counts is the first death. -/
def record (g : Deaths) (t : Tr) : Deaths where
  ended := fun q => (g.ended q).or (codeAt t q)
  waits :=
    match t.act with
    | .request (.waitChild pid (some child)) (some channel) =>
      if t.pre.isChild pid child then (child, channel) :: g.waits else g.waits
    | _ => g.waits

/-- What the table says about a child that has ended with the given code is right: it still has the code,
or the child is gone and the code was 0. -/
def tells (k : Kernel) (child : Pid) (code : Int32) : Bool :=
  match k.stateOf child with
  | some st => st.isTerminated && st.exitCode == code
  | none => code == 0

/-- Nobody waits for a process that ends by exit or by a signal, one parent at most for one that halts, and
a parent that comes late finds the right code. -/
def Orderly (g : Deaths) (t : Tr) : Prop :=
  match t.act with
  | .syscall _ pid (.exit _) => pid ≠ 1 → ∀ waiter ∈ t.pre.waitingParents, waiter.child ≠ pid
  | .request (.signal pid signal) _ =>
    SignalType.isFatal signal = true → ∀ waiter ∈ t.pre.waitingParents, waiter.child ≠ pid
  | .settle _ pid => t.pre.CleansUp pid → t.pre.waitingParents.countP (·.child == pid) ≤ 1
  | .request (.waitChild pid (some child)) (some _) =>
    t.pre.isChild pid child = true → (g.ended child).all (tells t.pre.toKernel child) = true
  | _ => True

instance (g : Deaths) (t : Tr) : Decidable (Orderly g t) := by
  induction t using Transition.casesOn with
  | mk pre act post =>
    induction act using Act.casesOn with
    | syscall cpuId pid call =>
      induction call using SystemCall.casesOn <;> dsimp only [Orderly] <;> infer_instance
    | request req channel =>
      induction req using ProcessRequest.casesOn with
      | waitChild pid childPid =>
        induction childPid using Option.casesOn <;> induction channel using Option.casesOn <;>
          dsimp only [Orderly] <;> infer_instance
      | _ => dsimp only [Orderly]; infer_instance
    | _ => dsimp only [Orderly]; infer_instance

/-- Every parent that asked for a child that has ended has one response, and it carries the exit code. -/
def Delivered (g : Deaths) (k : Kernel) : Prop :=
  ∀ x ∈ g.waits, ∀ code, g.ended x.1 = some code →
    (k.answersOn x.2).map Response.data = [some (.integer (exitCodeWord code))]

/-- What the service knows of the deaths and the waits. -/
structure Accounted (g : Deaths) (k : Kernel) : Prop where
  dead : ∀ q st, k.stateOf q = some st → st.isTerminated = true → g.ended q ≠ none
  child : ∀ p q, k.isChild p q = true → g.ended q = none → (k.stateOf q).isSome = true
  waiting : ∀ x ∈ g.waits, g.ended x.1 = none →
    k.answersOn x.2 = [] ∧ ∃ parent, k.waitersOn x.2 = [⟨x.1, parent, x.2⟩]
  told : ∀ x ∈ g.waits, ∀ code, g.ended x.1 = some code →
    (k.answersOn x.2).map Response.data = [some (.integer (exitCodeWord code))] ∧ k.waitersOn x.2 = []

theorem Accounted.delivered {g : Deaths} {k : Kernel} (h : Accounted g k) : Delivered g k :=
  fun x hx code hcode => (h.told x hx code hcode).1

section record

variable {g : Deaths} {t : Tr} {q : Pid}

theorem ended_of_some {code : Int32} (h : g.ended q = some code) : (record g t).ended q = some code := by
  show (g.ended q).or (codeAt t q) = some code
  rw [h]
  rfl

theorem ended_of_none (h : g.ended q = none) : (record g t).ended q = codeAt t q := by
  show (g.ended q).or (codeAt t q) = codeAt t q
  rw [h]
  rfl

theorem ended_none_of_record (h : (record g t).ended q = none) : g.ended q = none := by
  cases hq : g.ended q with
  | none => rfl
  | some code => cases (ended_of_some hq).symm.trans h

/-- The process is not over afterwards, or nothing happens to it. -/
theorem codeAt_of_same (h : t.post.stateOf q = t.pre.stateOf q) : codeAt t q = none := by
  rw [codeAt, h]
  split
  · rfl
  · next hlive =>
    cases hq : t.pre.stateOf q with
    | none => rfl
    | some st =>
      rw [hq, Option.any_some, Bool.not_eq_true] at hlive
      simp [hlive]

/-- Who ends in a transition is ended by its act. -/
theorem ends_of_codeAt {w : World} (ht : Performed w t.pre t.act t.post) {code : Int32}
    (h : codeAt t q = some code) :
    t.act.ends q = true ∧ t.post.stateOf q = some (.zombie code) ∧
      ∃ st, t.pre.stateOf q = some st ∧ st.isTerminated = false := by
  rw [codeAt] at h
  split at h
  · cases h
  next hlive =>
  obtain ⟨st, hst, hcode⟩ := Option.map_eq_some_iff.1 h
  obtain ⟨hpost, hterm⟩ := Option.filter_eq_some_iff.1 hst
  have hfate := ht.step_of.table.fate q
  rw [hpost] at hfate
  generalize hpre : t.pre.stateOf q = o at hfate hlive
  cases hfate with
  | kept => exact absurd hterm hlive
  | moved _ hb => cases hb.symm.trans hterm
  | ended a code' hends =>
    refine ⟨hends, ?_, a, rfl, by simpa using hlive⟩
    rw [hpost, ← hcode]
    rfl

/-- A process that is over afterwards has ended, before or now. -/
theorem ended_of_terminated
    (hdead : ∀ st, t.pre.stateOf q = some st → st.isTerminated = true → g.ended q ≠ none)
    {st : ProcessState} (hst : t.post.stateOf q = some st) (hterm : st.isTerminated = true) :
    (record g t).ended q ≠ none := by
  intro hnone
  have hold := ended_none_of_record hnone
  rw [ended_of_none hold, codeAt, hst] at hnone
  have hlive : (t.pre.stateOf q).any ProcessState.isTerminated = false := by
    cases hpre : t.pre.stateOf q with
    | none => rfl
    | some st' =>
      rw [Option.any_some, Bool.eq_false_iff]
      exact fun hterm' => hdead st' hpre hterm' hold
  rw [hlive] at hnone
  simp [hterm] at hnone

/-- A child that has not ended stays in the table. -/
theorem isSome_of_child {w : World} (ht : Performed w t.pre t.act t.post) (h : Accounted g t.pre.toKernel)
    {p : Pid} (hchild : t.post.isChild p q = true) (hnone : (record g t).ended q = none) :
    (t.post.stateOf q).isSome = true := by
  have hold := ended_none_of_record hnone
  rcases ht.step_of.table.isChild hchild with hpre | hpost
  · obtain ⟨st, hst⟩ := Option.isSome_iff_exists.1 (h.child p q hpre hold)
    have hfate := ht.step_of.table.fate q
    rw [hst] at hfate
    generalize t.post.stateOf q = o at hfate
    cases hfate with
    | kept => rfl
    | moved => rfl
    | ended => rfl
    | removed hterm => exact absurd hold (h.dead q st hst hterm)
  · exact hpost

end record

/-! ## One transition -/

section step

variable {w : World} {g : Deaths} {t : Tr}

/-- A transition that leaves the channels of the waits alone and ends no process that a parent waits for. -/
theorem Accounted.keep (h : Accounted g t.pre.toKernel) (ht : Performed w t.pre t.act t.post)
    (hwaits : (record g t).waits = g.waits)
    (hchannels : ∀ x ∈ g.waits, Undisturbed x.2 t.pre.toKernel t.post.toKernel)
    (hends : ∀ x ∈ g.waits, g.ended x.1 = none → codeAt t x.1 = none) :
    Accounted (record g t) t.post.toKernel := by
  refine ⟨?_, ?_, ?_, ?_⟩
  · exact fun q st hst hterm => ended_of_terminated (h.dead q) hst hterm
  · exact fun p q hchild hnone => isSome_of_child ht h hchild hnone
  · intro x hx hnone
    rw [hwaits] at hx
    rw [(hchannels x hx).answers, (hchannels x hx).waiters]
    exact h.waiting x hx (ended_none_of_record hnone)
  · intro x hx code hcode
    rw [hwaits] at hx
    rw [(hchannels x hx).answers, (hchannels x hx).waiters]
    cases hold : g.ended x.1 with
    | none =>
      rw [ended_of_none hold, hends x hx hold] at hcode
      cases hcode
    | some code' =>
      rw [ended_of_some hold] at hcode
      cases hcode
      exact h.told x hx code hold

/-- A process ends in the clean-up after its slice, and the parent that waits for it is told. -/
theorem Accounted.cleanUp {pid : Pid} {st : ProcessState} (h : Accounted g t.pre.toKernel)
    (ht : Performed w t.pre t.act t.post) (hwaits : (record g t).waits = g.waits)
    (hst : t.pre.stateOf pid = some st) (hlive : st.isTerminated = false)
    (hpost : t.post.toKernel = t.pre.toKernel.zombify pid)
    (honly : t.pre.waitingParents.countP (·.child == pid) ≤ 1) :
    Accounted (record g t) t.post.toKernel := by
  have hstate : ∀ q, t.post.stateOf q = if q = pid then some (.zombie 0) else t.pre.stateOf q := by
    intro q
    rw [hpost, zombify_stateOf, hst]
    simp [hlive]
  -- the tables before the parent is told
  obtain ⟨k, hk⟩ : ∃ k, ((t.pre.toKernel.onScheduler fun s => (s.remove pid 1).2).setState pid
      (.zombie 0)).releaseGlobals pid = k := ⟨_, rfl⟩
  have hnotified : t.post.toKernel = k.notifyParent pid 0 := by
    rw [hpost, zombify_of_alive _ pid hst hlive, hk]
  have hbefore : ∀ id, Undisturbed id t.pre.toKernel k := by
    intro id
    rw [← hk]
    exact .of_eq rfl rfl
  have hparents : k.waitingParents = t.pre.waitingParents := by
    rw [← hk]
    rfl
  have hother : ∀ id, (∀ waiter ∈ t.pre.waitersOn id, waiter.child ≠ pid) →
      Undisturbed id t.pre.toKernel t.post.toKernel := by
    intro id hnobody
    rw [hnotified]
    refine (hbefore id).trans (undisturbed_notifyParent 0 ?_)
    rw [(hbefore id).waiters]
    exact hnobody
  refine ⟨?_, ?_, ?_, ?_⟩
  · exact fun q st' hst' hterm => ended_of_terminated (h.dead q) hst' hterm
  · exact fun p q hchild hnone => isSome_of_child ht h hchild hnone
  · intro x hx hnone
    rw [hwaits] at hx
    have hold := ended_none_of_record hnone
    obtain ⟨hanswers, parent, hparent⟩ := h.waiting x hx hold
    have hne : x.1 ≠ pid := by
      intro heq
      rw [ended_of_none hold, codeAt, heq, hst, hstate, if_pos rfl, Option.any_some, hlive] at hnone
      cases hnone
    have hkept : Undisturbed x.2 t.pre.toKernel t.post.toKernel := by
      refine hother x.2 fun waiter hwaiter => ?_
      rw [hparent] at hwaiter
      rw [List.mem_singleton.1 hwaiter]
      exact hne
    rw [hkept.answers, hkept.waiters]
    exact ⟨hanswers, parent, hparent⟩
  · intro x hx code hcode
    rw [hwaits] at hx
    cases hold : g.ended x.1 with
    | some code' =>
      rw [ended_of_some hold] at hcode
      cases hcode
      obtain ⟨hanswers, hnobody⟩ := h.told x hx code hold
      have hkept : Undisturbed x.2 t.pre.toKernel t.post.toKernel := by
        refine hother x.2 fun waiter hwaiter => ?_
        rw [hnobody] at hwaiter
        cases hwaiter
      rw [hkept.answers, hkept.waiters]
      exact ⟨hanswers, hnobody⟩
    | none =>
      rw [ended_of_none hold] at hcode
      obtain ⟨hanswers, parent, hparent⟩ := h.waiting x hx hold
      have heq : x.1 = pid := by
        by_contra hne
        have hsame : t.post.stateOf x.1 = t.pre.stateOf x.1 := by rw [hstate, if_neg hne]
        rw [codeAt_of_same hsame] at hcode
        cases hcode
      rw [codeAt, heq, hst, hstate, if_pos rfl, Option.any_some, hlive] at hcode
      cases hcode
      rw [heq] at hparent
      have htold := notifyParent_tells 0 ((hbefore x.2).waiters.trans hparent)
        ((hbefore x.2).answers.trans hanswers) (by rw [hparents]; exact honly)
      rw [hnotified, htold.1]
      exact ⟨rfl, htold.2⟩

/-- The clean-up after a slice. -/
theorem Accounted.settle {cpuId : Fin 2} {pid : Pid} (h : Accounted g t.pre.toKernel)
    (ht : Performed w t.pre t.act t.post) (hact : t.act = .settle cpuId pid) (hok : Orderly g t) :
    Accounted (record g t) t.post.toKernel := by
  have hwaits : (record g t).waits = g.waits := by
    simp only [record, hact]
  have hpost : t.post = t.pre.settle pid := by
    rw [hact] at ht
    generalize t.post = s' at ht
    cases ht with
    | settle => rfl
  have hsilent : ∀ (hsame : ∀ q, t.post.stateOf q = t.pre.stateOf q)
      (hchannels : ∀ id, Undisturbed id t.pre.toKernel t.post.toKernel),
      Accounted (record g t) t.post.toKernel :=
    fun hsame hchannels => h.keep ht hwaits (fun x _ => hchannels x.2) fun x _ _ => codeAt_of_same (hsame x.1)
  rcases t.pre.settle_cases pid with hsame | ⟨hcleans, hzombie⟩ | ⟨hover, hzombie⟩
  · rw [← hpost] at hsame
    refine hsilent (fun q => ?_) (fun id => ?_)
    · rw [hsame]
    · rw [hsame]
      exact .of_eq rfl rfl
  · rw [← hpost] at hzombie
    -- the clean-up tells the first parent that waits, and there is no second one
    have honly : t.pre.waitingParents.countP (·.child == pid) ≤ 1 := by
      simp only [Orderly, hact] at hok
      exact hok hcleans
    rcases hcleans.2.2 with hst | hst
    · exact h.cleanUp ht hwaits hst rfl hzombie honly
    · exact h.cleanUp ht hwaits hst rfl hzombie honly
  · rw [← hpost] at hzombie
    refine hsilent (fun q => ?_) (fun id => ?_)
    · rw [hzombie, zombify_stateOf, if_neg]
      rintro ⟨rfl, hany⟩
      obtain ⟨st, hst, hlive⟩ := (Option.any_eq_true _ _).1 hany
      rw [hover st hst] at hlive
      cases hlive
    · rw [hzombie]
      exact undisturbed_zombify hover

/-- Who waits for a process keeps it from an exit or a fatal signal. -/
theorem codeAt_of_waiting (h : Accounted g t.pre.toKernel) (ht : Performed w t.pre t.act t.post)
    (hok : Orderly g t) (hact : ∀ cpuId pid, t.act ≠ .settle cpuId pid) {x : Pid × RequestId}
    (hx : x ∈ g.waits) (hnone : g.ended x.1 = none) : codeAt t x.1 = none := by
  -- a parent waits on the channel, which the orderly run does not allow for these ends
  obtain ⟨-, parent, hparent⟩ := h.waiting x hx hnone
  have hwaiter : (⟨x.1, parent, x.2⟩ : Waiter) ∈ t.pre.waitingParents :=
    (mem_waitersOn.1 (by rw [hparent]; exact List.mem_singleton_self _)).1
  cases hcode : codeAt t x.1 with
  | none => rfl
  | some code =>
    have hends := (ends_of_codeAt ht hcode).1
    rw [Orderly] at hok
    cases hcase : t.act with
    | settle cpuId pid => exact absurd hcase (hact cpuId pid)
    | syscall cpuId pid call =>
      rw [hcase] at hends hok
      cases call with
      | exit code =>
        obtain ⟨heq, hpid⟩ := of_decide_eq_true hends
        exact absurd heq (hok hpid _ hwaiter)
      | _ => cases hends
    | request req channel =>
      rw [hcase] at hends hok
      cases req with
      | signal pid signal =>
        obtain ⟨heq, hfatal⟩ := Bool.and_eq_true_iff.1 hends
        exact absurd (of_decide_eq_true heq) (hok hfatal _ hwaiter)
      | _ => cases hends
    | _ =>
      rw [hcase] at hends
      cases hends

/-- Every transition that answers on another channel and is no wait of a parent. -/
theorem Accounted.step (h : Accounted g t.pre.toKernel) (ht : Performed w t.pre t.act t.post)
    (hok : Orderly g t) (hwaits : (record g t).waits = g.waits)
    (hchannel : ∀ x ∈ g.waits, t.act.channel ≠ some x.2) : Accounted (record g t) t.post.toKernel := by
  by_cases hact : ∃ cpuId pid, t.act = .settle cpuId pid
  · obtain ⟨cpuId, pid, hact⟩ := hact
    exact h.settle ht hact hok
  · have hact : ∀ cpuId pid, t.act ≠ .settle cpuId pid := fun cpuId pid heq => hact ⟨cpuId, pid, heq⟩
    refine h.keep ht hwaits (fun x hx => ?_) fun x hx hnone => codeAt_of_waiting h ht hok hact hx hnone
    exact ht.step_of.table.undisturbed (hchannel x hx) hact

/-- What a parent is told that asks on an unused channel. -/
theorem told_waitChild {k : Kernel} {id : RequestId} {pid child : Pid} (hunused : Unused id k)
    (hchild : k.isChild pid child = true) {code : Int32} (htells : tells k child code = true) :
    ((k.handleWaitChildWithResponse pid (some child) id).1.answersOn id).map Response.data =
        [some (.integer (exitCodeWord code))] ∧
      (k.handleWaitChildWithResponse pid (some child) id).1.waitersOn id = [] := by
  have hnobody := waitersOn_eq_nil.2 hunused.vacant
  have hrefused : ¬k.isChild pid child = false := by rw [hchild]; decide
  simp only [handleWaitChildWithResponse]
  rw [if_neg hrefused]
  rw [tells] at htells
  cases hst : k.stateOf child with
  | none =>
    rw [hst] at htells
    rw [eq_of_beq htells]
    refine ⟨?_, hnobody⟩
    dsimp only
    rw [answersOn_respond, if_pos rfl, hunused.answers]
    rfl
  | some st =>
    rw [hst] at htells
    obtain ⟨hterm, hcode⟩ := Bool.and_eq_true_iff.1 htells
    dsimp only
    rw [if_pos hterm, ← eq_of_beq hcode]
    refine ⟨?_, hnobody⟩
    have hremoved : ((k.blockThread child 1).removeProcess child).answersOn id = k.answersOn id := rfl
    dsimp only
    rw [answersOn_respond, if_pos rfl, hremoved, hunused.answers]
    rfl

/-- A parent asks for a child that is alive. -/
theorem waiting_waitChild {k : Kernel} {id : RequestId} {pid child : Pid} (hunused : Unused id k)
    (hchild : k.isChild pid child = true) {st : ProcessState} (hst : k.stateOf child = some st)
    (hlive : st.isTerminated = false) :
    (k.handleWaitChildWithResponse pid (some child) id).1.answersOn id = [] ∧
      (k.handleWaitChildWithResponse pid (some child) id).1.waitersOn id = [⟨child, pid, id⟩] := by
  have hrefused : ¬k.isChild pid child = false := by rw [hchild]; decide
  have hover : ¬st.isTerminated = true := by rw [hlive]; decide
  simp only [handleWaitChildWithResponse]
  rw [if_neg hrefused, hst]
  dsimp only
  rw [if_neg hover]
  refine ⟨hunused.answers, ?_⟩
  have hnobody := waitersOn_eq_nil.2 hunused.vacant
  rw [waitersOn] at hnobody ⊢
  simp only [List.filter_append, hnobody]
  simp

/-- A parent asks for a child on an unused channel. -/
theorem Accounted.asked {id : RequestId} {pid child : Pid} (h : Accounted g t.pre.toKernel)
    (ht : Performed w t.pre t.act t.post)
    (hact : t.act = .request (.waitChild pid (some child)) (some id)) (hok : Orderly g t)
    (hunused : Unused id t.pre.toKernel) (hchannel : ∀ x ∈ g.waits, x.2 ≠ id) :
    Accounted (record g t) t.post.toKernel := by
  have hpost : t.post.toKernel = (t.pre.toKernel.handleWaitChildWithResponse pid (some child) id).1 := by
    rw [hact] at ht
    generalize t.post = s' at ht
    cases ht with
    | request => rfl
  cases hchild : t.pre.isChild pid child with
  | false =>
    have hwaits : (record g t).waits = g.waits := by
      simp only [record, hact, hchild]
      rfl
    refine h.step ht hok hwaits fun x hx hsame => hchannel x hx ?_
    rw [hact] at hsame
    exact (Option.some.inj hsame).symm
  | true =>
    have hwaits : (record g t).waits = (child, id) :: g.waits := by
      simp only [record, hact, hchild]
      rfl
    have hright : (g.ended child).all (tells t.pre.toKernel child) = true := by
      simp only [Orderly, hact] at hok
      exact hok hchild
    -- nobody ends here
    have hcodes : ∀ q, codeAt t q = none := by
      intro q
      cases hcode : codeAt t q with
      | none => rfl
      | some code =>
        have hends := (ends_of_codeAt ht hcode).1
        rw [hact] at hends
        cases hends
    have hended : (record g t).ended = g.ended := by
      funext q
      show (g.ended q).or (codeAt t q) = g.ended q
      rw [hcodes, Option.or_none]
    have hothers : ∀ x ∈ g.waits, Undisturbed x.2 t.pre.toKernel t.post.toKernel := by
      intro x hx
      rw [hpost]
      exact undisturbed_waitChild _ (fun heq => hchannel x hx heq.symm) pid (some child)
    refine ⟨?_, ?_, ?_, ?_⟩
    · exact fun q st hst hterm => ended_of_terminated (h.dead q) hst hterm
    · exact fun p q hchild hnone => isSome_of_child ht h hchild hnone
    · intro x hx hnone
      rw [hended] at hnone
      rw [hwaits] at hx
      rcases List.mem_cons.1 hx with rfl | hx
      · obtain ⟨st, hst⟩ := Option.isSome_iff_exists.1 (h.child pid child hchild hnone)
        have hlive : st.isTerminated = false := by
          rw [Bool.eq_false_iff]
          exact fun hterm => h.dead child st hst hterm hnone
        have hstored := waiting_waitChild hunused hchild hst hlive
        rw [hpost]
        exact ⟨hstored.1, pid, hstored.2⟩
      · rw [(hothers x hx).answers, (hothers x hx).waiters]
        exact h.waiting x hx hnone
    · intro x hx code hcode
      rw [hended] at hcode
      rw [hwaits] at hx
      rcases List.mem_cons.1 hx with rfl | hx
      · rw [hcode] at hright
        rw [hpost]
        exact told_waitChild hunused hchild hright
      · rw [(hothers x hx).answers, (hothers x hx).waiters]
        exact h.told x hx code hcode

end step

/-! ## One event -/

section events

variable {w : World} {g : Deaths} {t : Tr}

theorem waits_record (h : ∀ pid child id, t.act ≠ .request (.waitChild pid (some child)) (some id)) :
    (record g t).waits = g.waits := by
  simp only [record]

/-- The acts of a request: itself, its response, and what concerns no channel. -/
theorem request_acts (w : World) (s : Machine) (req : ProcessRequest) (channel : Option RequestId)
    (ht : t ∈ (s.handleRequest w req channel).2) :
    t.act.channel = none ∨ t.act = .respond channel ∨ t.act = .request req channel := by
  have hquiet : ∀ {trace : List Tr}, Addressed none trace → t ∈ trace → t.act.channel = none :=
    fun haddressed hmem => (haddressed t hmem).elim id id
  have hlast : ∀ {s' : Machine} {answer : Option Answer}, t ∈ (s'.respondTraced channel answer).2 →
      t.act = .respond channel := by
    intro s' answer hmem
    rw [List.mem_singleton.1 hmem]
  simp only [handleRequest] at ht
  split at ht
  · rcases List.mem_append.1 ht with hmem | hmem
    · exact Or.inl (hquiet (Addressed.single (Or.inl rfl)) hmem)
    · exact Or.inr (Or.inl (hlast hmem))
  · rcases List.mem_append.1 ht with hmem | hmem
    · exact Or.inl (hquiet (Addressed.single (Or.inl rfl)) hmem)
    · exact Or.inr (Or.inl (hlast hmem))
  · rcases List.mem_append.1 ht with hmem | hmem
    · exact Or.inl (hquiet (addressed_spawnStrict w s none _ _) hmem)
    · exact Or.inr (Or.inl (hlast hmem))
  · exact Or.inl (hquiet (addressed_spawnMessage w s none _) ht)
  · rcases List.mem_cons.1 ht with rfl | hmem
    · exact Or.inr (Or.inr rfl)
    · exact Or.inr (Or.inl (hlast hmem))

/-- A message that is no wait for a child does not become one. -/
theorem message_acts (w : World) (s : Machine) {msg : KernelMsg}
    (hmsg : ∀ pid child, msg ≠ .process (.waitChild pid (some child))) (channel : Option RequestId)
    (ht : t ∈ (s.handleMessage w msg channel).2) (pid child : Pid) (id : RequestId) :
    t.act ≠ .request (.waitChild pid (some child)) (some id) := by
  intro hact
  -- a trace without channels has no such act
  have hnone : ∀ {trace : List Tr}, Addressed none trace → t ∉ trace := by
    intro trace haddressed hmem
    have hchannel := haddressed t hmem
    rw [hact] at hchannel
    rcases hchannel with hchannel | hchannel
    · cases hchannel
    · cases hchannel
  cases msg with
  | process req =>
    rcases request_acts w s req channel ht with hkind | hkind | hkind
    · rw [hact] at hkind
      cases hkind
    · rw [hact] at hkind
      cases hkind
    · rw [hact] at hkind
      cases hkind
      exact hmsg pid child rfl
  | syscall call =>
    cases call with
    | createProcess executable args =>
      rcases List.mem_append.1 ht with hmem | hmem
      · exact hnone (addressed_createProcess w s none executable args) hmem
      · rw [List.mem_singleton.1 hmem] at hact
        cases hact
    | _ =>
      rw [List.mem_singleton.1 ht] at hact
      cases hact
  | interrupt int => exact hnone (addressed_message w s none (.interrupt int)) ht
  | _ => cases ht

/-- What holds between events: the waits are accounted for, and their channels are those of earlier
requests. -/
structure Kept (g : Deaths) (s : Machine) : Prop where
  accounted : Accounted g s.toKernel
  issued : ∀ x ∈ g.waits, x.2 < s.nextRequestId
  fresh : Fresh s

/-- Before and after a transition the exit codes are delivered. -/
def Settles (g : Deaths) (t : Tr) : Prop := Delivered g t.pre.toKernel ∧ Delivered (record g t) t.post.toKernel

/-- A trace without waits that answers on new channels only. -/
theorem segment_unasked {s s' : Machine} {trace : List Tr} (htraced : Traced w s trace s') {id : RequestId}
    (hchannel : ∀ t ∈ trace, ∀ id', t.act.channel = some id' → id ≤ id')
    (hacts : ∀ t ∈ trace, ∀ pid child id', t.act ≠ .request (.waitChild pid (some child)) (some id')) :
    Segment record Orderly Settles
      (fun g => Accounted g s.toKernel ∧ ∀ x ∈ g.waits, x.2 < id) trace
      fun g => Accounted g s'.toKernel ∧ ∀ x ∈ g.waits, x.2 < id := by
  refine @Chain.segment _ _ _ record Orderly Settles
    (fun g s => Accounted g s.toKernel ∧ ∀ x ∈ g.waits, x.2 < id) _ _ _ htraced.chain ?_
  rintro t ht g ⟨haccounted, hissued⟩ hok
  have hwaits := waits_record (g := g) (hacts t ht)
  have hnext := haccounted.step (htraced.performed t ht) hok hwaits fun x hx hsame =>
    Nat.lt_irrefl _ (Nat.lt_of_lt_of_le (hissued x hx) (hchannel t ht x.2 hsame))
  refine ⟨⟨hnext, ?_⟩, haccounted.delivered, hnext.delivered⟩
  rw [hwaits]
  exact hissued

/-- A wait that names a child, transition by transition. -/
theorem waitChild_trace (w : World) (s : Machine) (pid child : Pid) (id : RequestId) :
    s.handleRequest w (.waitChild pid (some child)) (some id) =
      ((s.handleSimpleRequest w (.waitChild pid (some child)) (some id)).1,
        [⟨s, .request (.waitChild pid (some child)) (some id),
            (s.handleSimpleRequest w (.waitChild pid (some child)) (some id)).1⟩,
          ⟨(s.handleSimpleRequest w (.waitChild pid (some child)) (some id)).1, .respond (some id),
            (s.handleSimpleRequest w (.waitChild pid (some child)) (some id)).1⟩]) := by
  have hok : (s.toKernel.handleWaitChildWithResponse pid (some child) id).2 = .ok () := by
    simp only [handleWaitChildWithResponse]
    split
    · rfl
    · split
      · rfl
      · split
        · rfl
        · rfl
  simp only [handleRequest, handleSimpleRequest, respondTraced, hok]
  rfl

/-- A parent asks for a child, and waits for the answer. -/
theorem segment_asked (w : World) (s : Machine) (pid child : Pid) :
    Segment record Orderly Settles (fun g => Kept g s)
      (s.handleEvent w (.envelope (.process (.waitChild pid (some child))) true)).2
      fun g => Kept g (s.handleEvent w (.envelope (.process (.waitChild pid (some child))) true)).1 := by
  intro g hkept hok
  have hfresh := fresh_event w s (.envelope (.process (.waitChild pid (some child))) true) hkept.fresh
  -- the request gets its number
  obtain ⟨s₁, hs₁⟩ : ∃ s₁ : Machine, { s with nextRequestId := s.nextRequestId + 1 } = s₁ := ⟨_, rfl⟩
  obtain ⟨s₂, hs₂⟩ : ∃ s₂, (s₁.handleSimpleRequest w (.waitChild pid (some child))
      (some s.nextRequestId)).1 = s₂ := ⟨_, rfl⟩
  have hevent : s.handleEvent w (.envelope (.process (.waitChild pid (some child))) true) =
      (s₂, [⟨s, .background, s₁⟩,
        ⟨s₁, .request (.waitChild pid (some child)) (some s.nextRequestId), s₂⟩,
        ⟨s₂, .respond (some s.nextRequestId), s₂⟩]) := by
    have htrace := waitChild_trace w s₁ pid child s.nextRequestId
    rw [hs₂] at htrace
    simp only [handleEvent, handleEnvelope, handleMessage, hs₁, htrace]
    rfl
  have hperformed := (handleEvent_traced w s
    (.envelope (.process (.waitChild pid (some child))) true)).performed
  rw [hevent] at hok hfresh hperformed ⊢
  obtain ⟨hok₁, hok₂, hok₃, -⟩ := hok
  simp only [List.forall_mem_cons] at hperformed
  obtain ⟨hdone₁, hdone₂, hdone₃, -⟩ := hperformed
  have hwaits₁ : (record g ⟨s, .background, s₁⟩).waits = g.waits := rfl
  have hfirst := hkept.accounted.step hdone₁ hok₁ hwaits₁ fun x _ hsame => by cases hsame
  have hunused : Unused s.nextRequestId s₁.toKernel := by
    rw [← hs₁]
    have hnew := hkept.fresh s.nextRequestId (Nat.le_refl _)
    exact ⟨hnew.1, hnew.2⟩
  have hsecond := hfirst.asked hdone₂ rfl hok₂ hunused fun x hx => Nat.ne_of_lt (hkept.issued x hx)
  -- the envelope itself answers nothing
  have hcodes : ∀ q, codeAt ⟨s₂, .respond (some s.nextRequestId), s₂⟩ q = none := fun q => codeAt_of_same rfl
  have hthird := hsecond.keep hdone₃ rfl (fun x _ => .of_eq rfl rfl) fun x _ _ => hcodes x.1
  have hnumber : s₂.nextRequestId = s.nextRequestId + 1 := by
    rw [← hs₂, ← hs₁]
    rfl
  refine ⟨⟨hthird, ?_, hfresh⟩, ⟨hkept.accounted.delivered, hfirst.delivered⟩,
    ⟨hfirst.delivered, hsecond.delivered⟩, ⟨hsecond.delivered, hthird.delivered⟩, trivial⟩
  intro x hx
  show x.2 < s₂.nextRequestId
  rw [hnumber]
  simp only [history_cons, history_nil, record] at hx
  split at hx
  · rcases List.mem_cons.1 hx with rfl | hx
    · exact Nat.lt_succ_self _
    · exact Nat.lt_succ_of_lt (hkept.issued x hx)
  · exact Nat.lt_succ_of_lt (hkept.issued x hx)

/-- Every event. -/
theorem segment_event (w : World) (s : Machine) (event : Event) :
    Segment record Orderly Settles (fun g => Kept g s) (s.handleEvent w event).2
      fun g => Kept g (s.handleEvent w event).1 := by
  -- without a request that waits for a child nothing is recorded
  have hplain : (∀ t ∈ (s.handleEvent w event).2, ∀ pid child id,
      t.act ≠ .request (.waitChild pid (some child)) (some id)) →
      Segment record Orderly Settles (fun g => Kept g s) (s.handleEvent w event).2
        fun g => Kept g (s.handleEvent w event).1 := by
    intro hacts g hkept hok
    have htraced := handleEvent_traced w s event
    have hchannel : ∀ t ∈ (s.handleEvent w event).2, ∀ id, t.act.channel = some id →
        s.nextRequestId ≤ id :=
      fun t ht id hid => Nat.le_of_eq (event_channel ht hid).1.symm
    obtain ⟨⟨haccounted, hissued⟩, hall⟩ := segment_unasked htraced hchannel hacts g
      ⟨hkept.accounted, hkept.issued⟩ hok
    refine ⟨⟨haccounted, fun x hx => ?_, fresh_event w s event hkept.fresh⟩, hall⟩
    exact Nat.lt_of_lt_of_le (hissued x hx) (numbers_trace htraced)
  cases event with
  | timer =>
    refine hplain fun t ht pid child id hact => ?_
    have hnone := addressed_tick w s none t ht
    rw [hact] at hnone
    rcases hnone with hnone | hnone
    · cases hnone
    · cases hnone
  | envelope msg expectsResponse =>
    cases expectsResponse with
    | false =>
      refine hplain fun t ht pid child id hact => ?_
      have hnone := addressed_message w s none msg t ht
      rw [hact] at hnone
      rcases hnone with hnone | hnone
      · cases hnone
      · cases hnone
    | true =>
      -- only an envelope with a response channel is recorded
      by_cases hmsg : ∃ pid child, msg = .process (.waitChild pid (some child))
      · obtain ⟨pid, child, rfl⟩ := hmsg
        exact segment_asked w s pid child
      · refine hplain fun t ht pid child id => ?_
        rcases List.mem_cons.1 ht with rfl | ht
        · exact fun hact => by cases hact
        · exact message_acts w _ (fun pid child heq => hmsg ⟨pid, child, heq⟩) _ ht pid child id

end events

theorem kept_boot (w : World) (memory : MemoryService) : Kept empty (boot w memory) := by
  refine ⟨⟨?_, ?_, ?_, ?_⟩, ?_, fresh_boot w memory⟩
  · intro q st hst hterm
    rw [boot_toKernel, forkFresh_stateOf] at hst
    split at hst
    · cases hst
      cases hterm
    · cases hst
  · intro p q hchild
    rw [boot_toKernel] at hchild
    cases hchild
  · intro x hx
    cases hx
  · intro x hx
    cases hx
  · intro x hx
    cases hx

end Deaths

open Deaths in
/-- In an orderly run every parent that asked for a child has, from the end of the child on, one response,
and it carries the exit code. -/
theorem exit_code_delivered (w : World) (memory : MemoryService) (events : List Event)
    (h : Along record Orderly Deaths.empty (run w memory events).2) :
    Delivered (history record Deaths.empty (run w memory events).2) (run w memory events).1.toKernel ∧
      Along record (fun g t => Delivered g t.pre.toKernel ∧ Delivered (record g t) t.post.toKernel)
        Deaths.empty (run w memory events).2 := by
  have hrun : Segment record Orderly Settles (fun g => Kept g (boot w memory)) (run w memory events).2
      fun g => Kept g (run w memory events).1 :=
    @runTrace_segment _ _ _ _ (fun s e => handleEvent w s e) record Orderly Settles Kept
      (segment_event w) (boot w memory) events
  obtain ⟨hend, hall⟩ := hrun Deaths.empty (kept_boot w memory) h
  exact ⟨hend.accounted.delivered, hall⟩

/-- One halt instruction. -/
def haltOnce : List UInt8 := [0xFF, 0, 0, 0, 0, 0, 0, 0]

/-- Process 1 forks process 2, which runs a program that halts, and asks for it. -/
def haltedChildEvents : List Event :=
  [.envelope (.process (.forkProcess 1)) false,
    .envelope (.process (.execProcess 2 "a" [] none)) false,
    .envelope (.process (.waitChild 1 (some 2))) true, .timer, .timer]

open Deaths in
/-- The child halts in its slice, and the parent has the response. -/
theorem halted_child_told :
    ((2, 1) ∈ (history record Deaths.empty (run (World.calm haltOnce) (bootMemory 16384 fun _ => 0)
        haltedChildEvents).2).waits ∧
      (history record Deaths.empty (run (World.calm haltOnce) (bootMemory 16384 fun _ => 0)
        haltedChildEvents).2).ended 2 = some 0) ∧
    Delivered (history record Deaths.empty (run (World.calm haltOnce) (bootMemory 16384 fun _ => 0)
        haltedChildEvents).2)
      (run (World.calm haltOnce) (bootMemory 16384 fun _ => 0) haltedChildEvents).1.toKernel := by
  have horderly : Along record Orderly Deaths.empty (run (World.calm haltOnce) (bootMemory 16384 fun _ => 0)
      haltedChildEvents).2 := by decide +kernel
  refine ⟨?_, (exit_code_delivered _ _ _ horderly).1⟩
  decide +kernel

/-- Process 1 forks process 2 and asks for it, and process 2 is killed. -/
def killedChildEvents : List Event :=
  [.envelope (.process (.forkProcess 1)) false,
    .envelope (.process (.waitChild 1 (some 2))) true,
    .envelope (.process (.signal 2 .kill)) false]

open Deaths in
/-- The parent of a killed child has no response after a further tick. -/
theorem killed_child_untold :
    ¬Delivered (history record Deaths.empty
        (run (World.calm []) (bootMemory 8192 fun _ => 0) killedChildEvents).2)
      (run (World.calm []) (bootMemory 8192 fun _ => 0) (killedChildEvents ++ [.timer])).1.toKernel := by
  intro h
  have hasked : (2, 1) ∈ (history record Deaths.empty (run (World.calm []) (bootMemory 8192 fun _ => 0)
      killedChildEvents).2).waits := by decide +kernel
  have hended : (history record Deaths.empty (run (World.calm []) (bootMemory 8192 fun _ => 0)
      killedChildEvents).2).ended 2 = some 0 := by decide +kernel
  have hnone : (run (World.calm []) (bootMemory 8192 fun _ => 0)
      (killedChildEvents ++ [.timer])).1.toKernel.answersOn 1 = [] := by decide +kernel
  have htold := h (2, 1) hasked 0 hended
  rw [hnone] at htold
  cases htold

end GenshinOs.Process
