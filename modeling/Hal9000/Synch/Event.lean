import Hal9000.Synch.Waits

/-!
# Events

`ExEventWaitForSignal` tests the event before it takes the lock of the event and does not test it
again when it queues its thread. A thread that queues itself while the event is clear, or while
a signal is still to come, is never left on the waiting list of a signaled event.
-/

namespace Hal9000

open WaitQueue

variable {Thread Event Mutex : Type}

section Event

/-- The thread is in `ExEventSignal` for the event. -/
def Signals (e : Event) : SynchPc Thread Event Mutex → Prop
  | .signalLock e' _ | .signalSet e' _ | .signalPop e' _ | .unblockLock (.event e') _ _
  | .unblockReady (.event e') _ _ | .unblockUnlock (.event e') _ _ | .unlockObject (.event e') _ =>
    e' = e
  | _ => False

variable (objects : SynchObjects Thread Event Mutex) (s : SynchState Thread Event Mutex)

/-- Woken, the thread has not yet tested the event again; it does so for a synchronization event
only. -/
def WokenToTest (e : Event) (u : Thread) : Prop :=
  objects.eventType e = .synchronization ∧
    (s.pc u = .blocked (.event e) ∧ s.state u = .ready ∨ s.pc u = .waitTest e true)

/-- What keeps a thread on the waiting list from sleeping on a signaled event. -/
def Attended (e : Event) : Prop :=
  s.signaled e = false ∨ (∃ u, Signals e (s.pc u)) ∨ ∃ u, WokenToTest objects s e u

/-- A thread that is about to put itself on the waiting list of an event finds it attended. -/
def QueuesAttended : SynchPc Thread Event Mutex → Prop
  | .insertWait (.event e) => Attended objects s e
  | _ => True

/-- No thread queues itself on an event that is signaled and that nobody attends to. -/
def NoLateQueueing : SynchAction Thread Event Mutex → Prop
  | .run t => QueuesAttended objects s (s.pc t)
  | _ => True

end Event

section Decidable

def SynchPc.signals : SynchPc Thread Event Mutex → Option Event
  | .signalLock e _ | .signalSet e _ | .signalPop e _ | .unblockLock (.event e) _ _
  | .unblockReady (.event e) _ _ | .unblockUnlock (.event e) _ _ | .unlockObject (.event e) _ =>
    some e
  | _ => none

def SynchPc.queuesOn : SynchPc Thread Event Mutex → Option Event
  | .insertWait (.event e) => some e
  | _ => none

theorem signals_eq_some {e : Event} {pc : SynchPc Thread Event Mutex} :
    pc.signals = some e ↔ Signals e pc := by
  unfold SynchPc.signals Signals
  split <;> simp

theorem forall_queuesOn {objects : SynchObjects Thread Event Mutex}
    {s : SynchState Thread Event Mutex} {pc : SynchPc Thread Event Mutex} :
    (∀ e ∈ pc.queuesOn, Attended objects s e) ↔ QueuesAttended objects s pc := by
  unfold SynchPc.queuesOn QueuesAttended
  split <;> simp

variable [DecidableEq Event]

instance (e : Event) (pc : SynchPc Thread Event Mutex) : Decidable (Signals e pc) :=
  decidable_of_iff (pc.signals = some e) signals_eq_some

variable [DecidableEq Thread] [DecidableEq Mutex] [Fintype Thread]

instance (objects : SynchObjects Thread Event Mutex) (s : SynchState Thread Event Mutex)
    (e : Event) (u : Thread) : Decidable (WokenToTest objects s e u) :=
  inferInstanceAs (Decidable (_ ∧ _))

instance (objects : SynchObjects Thread Event Mutex) (s : SynchState Thread Event Mutex)
    (e : Event) : Decidable (Attended objects s e) :=
  inferInstanceAs (Decidable (_ ∨ _))

instance (objects : SynchObjects Thread Event Mutex) (s : SynchState Thread Event Mutex)
    (pc : SynchPc Thread Event Mutex) : Decidable (QueuesAttended objects s pc) :=
  decidable_of_iff (∀ e ∈ pc.queuesOn, Attended objects s e) forall_queuesOn

instance (objects : SynchObjects Thread Event Mutex) (s : SynchState Thread Event Mutex) :
    ∀ action, Decidable (NoLateQueueing objects s action)
  | .run t => inferInstanceAs (Decidable (QueuesAttended objects s (s.pc t)))
  | .call _ _ | .threadYield _ | .threadExit _ | .threadTerminate _ | .notifyTermination _ _ =>
    .isTrue trivial

end Decidable

variable [DecidableEq Thread] [DecidableEq Event] [DecidableEq Mutex]
  {objects : SynchObjects Thread Event Mutex} {s s' : SynchState Thread Event Mutex} {t : Thread}

/-- The signal is still to take a waiter off the list or to make the one it took ready. -/
def Wakes (objects : SynchObjects Thread Event Mutex) (e : Event) :
    SynchPc Thread Event Mutex → Prop
  | .signalLock e' _ | .signalSet e' _ | .signalPop e' _ | .unblockLock (.event e') _ _
  | .unblockReady (.event e') _ _ => e' = e
  | .unblockUnlock (.event e') _ _ => e' = e ∧ objects.eventType e = .notification
  | _ => False

def Keeps (objects : SynchObjects Thread Event Mutex) (s : SynchState Thread Event Mutex)
    (e : Event) (u : Thread) : Prop :=
  WokenToTest objects s e u ∨ Wakes objects e (s.pc u)

/-- A signaled event with waiters has a thread that is to take the next one off the list. -/
def SignalKept (objects : SynchObjects Thread Event Mutex) (s : SynchState Thread Event Mutex)
    (e : Event) : Prop :=
  s.signaled e = true → s.waitingList (.event e) ≠ [] → ∃ u, Keeps objects s e u

private theorem keeps_other (hrun : SynchRun objects s t s') {e : Event} {u : Thread} (hu : u ≠ t)
    (hkeeps : Keeps objects s e u) : Keeps objects s' e u := by
  have hpc := hrun.pc_other hu
  unfold Keeps WokenToTest at hkeeps ⊢
  rw [hpc]
  rcases hkeeps with ⟨htype,hwoken⟩ | hwakes
  · left
    refine ⟨htype,?_⟩
    rcases hwoken with ⟨hblocked,hready⟩ | htest
    · left
      refine ⟨hblocked,?_⟩
      rcases hrun.state_other hu with hstate | hstate
      · rw [hstate]
        exact hready
      · exact hstate
    · exact Or.inr htest
  · exact Or.inr hwakes

omit [DecidableEq Thread] [DecidableEq Event] [DecidableEq Mutex] in
private theorem unblocked_blocked (h : Invariant s.waits) {w : Waitable Event Mutex} {u t : Thread}
    {caller : SignalCaller} (hpc : s.pc u = .unblockReady w t caller)
    (hblocked : s.state t = .blocked) : s.pc t = .blocked w := by
  have hplace : s.waits.place u = .wakingLocked w t := congrArg SynchPc.place hpc
  have hsleeps : s.waits.sleeps t = true := by simp [SynchState.waits,hblocked]
  exact SynchPc.eq_blocked (h.target_asleep hplace (h.live_of_sleeps hsleeps)).1

private theorem keeps_self (h : Invariant s.waits) (hrun : SynchRun objects s t s') {e : Event}
    (hkeeps : Keeps objects s e t) (hsignaled : s'.signaled e = true)
    (hlist : s'.waitingList (.event e) ≠ []) : ∃ u, Keeps objects s' e u := by
  rcases hkeeps with ⟨htype,⟨hblocked,hready⟩ | htest⟩ | hwakes
  · cases hrun with
    | @resume w hpc =>
      rw [hblocked] at hpc
      cases hpc
      refine ⟨t,Or.inl ⟨htype,Or.inr ?_⟩⟩
      simp [SynchState.setPc,afterBlock,htype]
    | _ => simp_all
  · cases hrun with
    | @testSignaled e' woken hpc =>
      rw [htest] at hpc
      cases hpc
      simp [SynchState.setSignaled,htype] at hsignaled
    | @testClear e' woken hpc hclear =>
      rw [htest] at hpc
      cases hpc
      rw [show s.signaled e = true from hsignaled] at hclear
      cases hclear
    | _ => simp_all
  · cases hrun with
    | signalLock hpc | signalSet hpc | signalPop hpc =>
      rw [hpc] at hwakes
      refine ⟨t,Or.inr ?_⟩
      simpa [SynchState.setPc,SynchState.setLock,SynchState.setSignaled,SynchState.setWaitingList,
        Wakes] using hwakes
    | signalDone hpc hempty =>
      rw [hpc] at hwakes
      rw [← show _ = e from hwakes] at hlist
      exact absurd hempty hlist
    | @unblockLock w t' caller hpc =>
      rw [hpc] at hwakes
      refine ⟨t,Or.inr ?_⟩
      cases w with
      | event e' => simpa [SynchState.setPc,SynchState.setBlockLock,Wakes] using hwakes
      | mutex => exact hwakes.elim
    | @unblockReady w t' caller hpc hblocked =>
      rw [hpc] at hwakes
      cases w with
      | event e' =>
        have he : e' = e := hwakes
        rw [he] at hpc
        have hpc' := unblocked_blocked h hpc hblocked
        have hne : t' ≠ t := by
          intro heq
          rw [heq,hpc] at hpc'
          cases hpc'
        cases htype : objects.eventType e with
        | notification =>
          refine ⟨t,Or.inr ?_⟩
          simp [SynchState.setPc,SynchState.setState,Wakes,he,htype]
        | synchronization =>
          refine ⟨t',Or.inl ⟨htype,Or.inl ⟨?_,?_⟩⟩⟩
          · simpa [SynchState.setPc,SynchState.setState,hne] using hpc'
          · simp [SynchState.setState]
      | mutex => exact hwakes.elim
    | @unblockUnlock w t' caller hpc =>
      rw [hpc] at hwakes
      cases w with
      | event e' =>
        obtain ⟨he,htype⟩ : e' = e ∧ objects.eventType e = .notification := hwakes
        refine ⟨t,Or.inr ?_⟩
        simp [SynchState.setPc,SynchState.setBlockLock,afterUnblock,Wakes,he,htype]
      | mutex => exact hwakes.elim
    | _ => simp_all [Wakes]

private theorem SynchRun.signaled (hrun : SynchRun objects s t s') {e : Event}
    (hsignaled : s'.signaled e = true) : s.signaled e = true ∨ Keeps objects s' e t := by
  cases hrun with
  | @testSignaled e' woken hpc hs =>
    left
    by_cases he : e = e'
    · rw [he]
      exact hs
    · simpa [SynchState.setSignaled,SynchState.setPc,he] using hsignaled
  | @signalSet e' caller hpc =>
    by_cases he : e = e'
    · right
      right
      simp [SynchState.setSignaled,SynchState.setPc,Wakes,he]
    · left
      simpa [SynchState.setSignaled,SynchState.setPc,he] using hsignaled
  | @clearSignal e' hpc =>
    left
    by_cases he : e = e'
    · simp [SynchState.setSignaled,he] at hsignaled
    · simpa [SynchState.setSignaled,SynchState.setPc,he] using hsignaled
  | _ => exact Or.inl hsignaled

private theorem SynchRun.waitingList (hrun : SynchRun objects s t s') {w : Waitable Event Mutex}
    (hlist : s'.waitingList w ≠ []) : s.waitingList w ≠ [] ∨ s.pc t = .insertWait w := by
  cases hrun with
  | @insertWait w' hpc =>
    by_cases hw : w = w'
    · rw [hw]
      exact Or.inr hpc
    · left
      simpa [SynchState.setWaitingList,SynchState.setPc,hw] using hlist
  | @signalPop e _ _ _ _ hold =>
    left
    by_cases hw : w = .event e
    · simp [hw,hold]
    · simpa [SynchState.setWaitingList,SynchState.setPc,hw] using hlist
  | @releaseHand m _ _ _ hold =>
    left
    by_cases hw : w = .mutex m
    · simp [hw,hold]
    · simpa [SynchState.setWaitingList,SynchState.setHolder,SynchState.setDepth,SynchState.setPc,
        hw] using hlist
  | _ => exact Or.inl hlist

omit [DecidableEq Thread] [DecidableEq Event] [DecidableEq Mutex] in
private theorem signals_cases (objects : SynchObjects Thread Event Mutex) {e : Event}
    {pc : SynchPc Thread Event Mutex} (h : Signals e pc) :
    Wakes objects e pc ∨ pc.place.lock = some (.event e) := by
  cases pc with
  | signalLock e' | signalSet e' | signalPop e' => exact Or.inl h
  | unblockLock w | unblockReady w =>
    cases w with
    | event e' => exact Or.inl h
    | mutex => exact h.elim
  | unblockUnlock w | unlockObject w =>
    cases w with
    | event e' =>
      right
      rw [← show e' = e from h]
      rfl
    | mutex => exact h.elim
  | _ => exact h.elim

omit [DecidableEq Thread] [DecidableEq Event] [DecidableEq Mutex] in
private theorem signals_of_wakes {e : Event} {pc : SynchPc Thread Event Mutex}
    (h : Wakes objects e pc) : Signals e pc := by
  cases pc with
  | signalLock e' | signalSet e' | signalPop e' => exact h
  | unblockLock w | unblockReady w => cases w <;> exact h
  | unblockUnlock w =>
    cases w with
    | event e' => exact h.1
    | mutex => exact h
  | _ => exact h.elim

omit [DecidableEq Thread] [DecidableEq Event] [DecidableEq Mutex] in
private theorem keeps_of_attended (h : Invariant s.waits) {e : Event}
    (hpc : s.pc t = .insertWait (.event e)) (hattended : Attended objects s e)
    (hsignaled : s.signaled e = true) : ∃ u, Keeps objects s e u := by
  rcases hattended with hclear | ⟨u,hsignals⟩ | ⟨u,hwoken⟩
  · rw [hclear] at hsignaled
    cases hsignaled
  · rcases signals_cases objects hsignals with hwakes | hlock
    · exact ⟨u,Or.inr hwakes⟩
    · have hown : s.lock (.event e) = some t :=
        (h.lock _ t).mpr (congrArg (fun pc => pc.place.lock) hpc)
      have hown' : s.lock (.event e) = some u := (h.lock _ u).mpr hlock
      rw [hown,Option.some.injEq] at hown'
      rw [← hown',hpc] at hsignals
      exact hsignals.elim
  · exact ⟨u,Or.inl hwoken⟩

private theorem SynchRun.signalKept (h : Invariant s.waits) (hrun : SynchRun objects s t s')
    (hqueues : QueuesAttended objects s (s.pc t)) {e : Event} (hkept : SignalKept objects s e) :
    SignalKept objects s' e := by
  intro hsignaled hlist
  rcases hrun.signaled hsignaled with hbefore | hsets
  · have hkeeper : ∃ u, Keeps objects s e u := by
      rcases hrun.waitingList hlist with hwaiting | hpc
      · exact hkept hbefore hwaiting
      · rw [hpc] at hqueues
        exact keeps_of_attended h hpc hqueues hbefore
    obtain ⟨u,hkeeps⟩ := hkeeper
    by_cases hu : u = t
    · rw [hu] at hkeeps
      exact keeps_self h hrun hkeeps hsignaled hlist
    · exact ⟨u,keeps_other hrun hu hkeeps⟩
  · exact ⟨t,hsets⟩

omit [DecidableEq Event] [DecidableEq Mutex] in
private theorem SynchEnter.keeps (henter : SynchEnter s s') {e : Event} {u : Thread}
    (hkeeps : Keeps objects s e u) : Keeps objects s' e u := by
  have stay : ∀ (t : Thread) (next : SynchPc Thread Event Mutex),
      s.pc t = .outside ∨ s.pc t = .exitNotify → Keeps objects (s.setPc t next) e u := by
    intro t next hpc
    have hu : u ≠ t := by
      intro heq
      rw [heq] at hkeeps
      rcases hpc with hpc | hpc <;> simp [Keeps,WokenToTest,Wakes,hpc] at hkeeps
    simpa [Keeps,WokenToTest,SynchState.setPc,hu] using hkeeps
  cases henter with
  | @call t call hpc => exact stay t _ (Or.inl hpc)
  | @exit t hpc => exact stay t _ (Or.inl hpc)
  | @yield t hpc => exact stay t _ (Or.inl hpc)
  | terminate => exact hkeeps
  | @notified t hpc => exact stay t _ (Or.inr hpc)
  | @notifiedLast t e' hpc => exact stay t _ (Or.inr hpc)

omit [DecidableEq Event] [DecidableEq Mutex] in
private theorem SynchEnter.signalKept (henter : SynchEnter s s') {e : Event}
    (hkept : SignalKept objects s e) : SignalKept objects s' e := by
  intro hsignaled hlist
  have hsame : s'.signaled = s.signaled ∧ s'.waitingList = s.waitingList := by
    cases henter <;> exact ⟨rfl,rfl⟩
  rw [hsame.1] at hsignaled
  rw [hsame.2] at hlist
  obtain ⟨u,hu⟩ := hkept hsignaled hlist
  exact ⟨u,henter.keeps hu⟩

theorem signalKept_of_reachable
    (h : (synchSystem objects).ReachableUnder (NoLateQueueing objects) s) :
    ∀ e, SignalKept objects s e := by
  induction h with
  | init hinit =>
    intro e _ hlist
    exact absurd (hinit.waitingList _) hlist
  | step hreach hguard hstep ih =>
    intro e
    rcases synchStep_cases hstep with ⟨t,rfl,hrun⟩ | ⟨_,henter⟩
    · exact hrun.signalKept (waits_of_reachable hreach) hguard (ih e)
    · exact henter.signalKept (ih e)

/-- In every run where no thread queues itself on a signaled event that nobody attends to, a
signaled event has no waiters unless a signal is in progress or a woken thread is to test the
event again. -/
theorem signaled_unwaited (h : (synchSystem objects).ReachableUnder (NoLateQueueing objects) s)
    {e : Event} (hsignaled : s.signaled e = true) (hquiet : ∀ u, ¬ Signals e (s.pc u))
    (htested : ∀ u, ¬ WokenToTest objects s e u) : s.waitingList (.event e) = [] := by
  by_contra hlist
  obtain ⟨u,hwoken | hwakes⟩ := signalKept_of_reachable h e hsignaled hlist
  · exact htested u hwoken
  · apply hquiet u
    exact signals_of_wakes hwakes

theorem late_queueing_lost {e : Event} (hpc : s.pc t = .insertWait (.event e))
    (hlate : ¬ Attended objects s e) (hstep : synchStep objects s (.run t) = some s') :
    s'.signaled e = true ∧ (∀ u, ¬ Signals e (s'.pc u)) ∧ (∀ u, ¬ WokenToTest objects s' e u) ∧
      t ∈ s'.waitingList (.event e) := by
  simp only [Attended,not_or,not_exists,Bool.not_eq_false] at hlate
  obtain ⟨hsignaled,hquiet,htested⟩ := hlate
  simp only [synchStep,synchRun,hpc] at hstep
  obtain rfl := Option.some.inj hstep
  refine ⟨hsignaled,?_,?_,?_⟩
  · intro u
    by_cases hu : u = t
    · simp [SynchState.setWaitingList,SynchState.setPc,hu,Signals]
    · simpa [SynchState.setWaitingList,SynchState.setPc,hu] using hquiet u
  · intro u
    by_cases hu : u = t
    · simp [SynchState.setWaitingList,SynchState.setPc,hu,WokenToTest]
    · simpa [SynchState.setWaitingList,SynchState.setPc,hu,WokenToTest] using htested u
  · simp [SynchState.setWaitingList]

/-- Thread 0 tests the event, which is clear. -/
def testEvent : List (SynchAction (Fin 2) (Fin 2) Unit) :=
  [.call 0 (.exEventWaitForSignal 0),.run 0]

/-- Thread 1 signals the event and finds nobody on its waiting list. -/
def signalEvent : List (SynchAction (Fin 2) (Fin 2) Unit) :=
  .call 1 (.exEventSignal 0) :: List.replicate 4 (.run 1)

/-- Signaled once thread 0 sleeps, the event has no waiter left. -/
theorem signaled_unwaited_two : ∃ s : SynchState (Fin 2) (Fin 2) Unit,
    (synchSystem twoThreads).ReachableUnder (NoLateQueueing twoThreads) s ∧
    s.signaled 0 = true ∧ s.waitingList (.event 0) = [] := by
  obtain ⟨s,hreach,hs⟩ := TransitionSystem.exists_reachable (synchSystem twoThreads)
    (NoLateQueueing twoThreads) .start start_initial
    (testEvent ++ List.replicate 7 (.run 0) ++ .call 1 (.exEventSignal 0) ::
      List.replicate 8 (.run 1) ++ [.run 0])
    (fun s => decide (s.signaled 0 = true ∧ (∀ u, s.pc u = .outside)))
    (by decide +kernel) (by decide +kernel)
  obtain ⟨hsignaled,hpc⟩ := of_decide_eq_true hs
  have hlist := signaled_unwaited hreach hsignaled (fun u => by rw [hpc u]; exact id)
    (fun u hwoken => by simp [WokenToTest,hpc u] at hwoken)
  exact ⟨s,hreach,hsignaled,hlist⟩

/-- Signaled between the test and the queueing, the event is left with a sleeping waiter. -/
theorem signaled_waiter_sleeps : ∃ s : SynchState (Fin 2) (Fin 2) Unit,
    (synchSystem twoThreads).Reachable s ∧ s.signaled 0 = true ∧ (∀ u, ¬ Signals 0 (s.pc u)) ∧
      (∀ u, ¬ WokenToTest twoThreads s 0 u) ∧ s.waitingList (.event 0) = [0] ∧
        s.state 0 = .blocked := by
  obtain ⟨s,hreach,hs⟩ := TransitionSystem.exists_reachable (synchSystem twoThreads)
    (fun _ _ => True) .start start_initial
    (testEvent ++ signalEvent ++ List.replicate 7 (.run 0))
    (fun s => decide (s.signaled 0 = true ∧ s.pc 0 = .blocked (.event 0) ∧ s.pc 1 = .outside ∧
      s.waitingList (.event 0) = [0] ∧ s.state 0 = .blocked))
    (TransitionSystem.runSatisfies_of_forall (fun _ _ => trivial) _ _) (by decide +kernel)
  obtain ⟨hsignaled,hpc,hpc',hlist,hblocked⟩ := of_decide_eq_true hs
  refine ⟨s,hreach,hsignaled,?_,?_,hlist,hblocked⟩
  · intro u
    match u with
    | 0 => simp [hpc,Signals]
    | 1 => simp [hpc',Signals]
  · intro u hwoken
    simp [WokenToTest,twoThreads] at hwoken

end Hal9000
