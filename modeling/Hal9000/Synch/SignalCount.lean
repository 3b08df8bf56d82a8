import Hal9000.Synch.Steps

/-!
# Signals and the waits they release

On a synchronization event every wait that returns has cleared the event, and an event that is
cleared has been set by `ExEventSignal` or was initialized so: one signal releases one waiter.
-/

namespace Hal9000

/-- What a run shows of an event: calls of `ExEventSignal`, their exchanges of `Signaled`, and
calls of `ExEventWaitForSignal` that return. -/
inductive EventRecord (Thread Event : Type)
  | signalStarted (t : Thread) (e : Event)
  | signaledExchanged (t : Thread) (e : Event)
  | waitReturned (t : Thread) (e : Event)

variable {Thread Event Mutex : Type}

section Records

variable [DecidableEq Event]

def signalStarters (e : Event) (record : List (EventRecord Thread Event)) : List Thread :=
  record.filterMap fun
    | .signalStarted t e' => if e' = e then some t else none
    | _ => none

def signaledExchangers (e : Event) (record : List (EventRecord Thread Event)) : List Thread :=
  record.filterMap fun
    | .signaledExchanged t e' => if e' = e then some t else none
    | _ => none

def waitReturners (e : Event) (record : List (EventRecord Thread Event)) : List Thread :=
  record.filterMap fun
    | .waitReturned t e' => if e' = e then some t else none
    | _ => none

/-- What is seen of an event at a step. A wait returns where it finds the event signaled, and on
a notification event also where it is woken. -/
def eventRecords (objects : SynchObjects Thread Event Mutex) (s : SynchState Thread Event Mutex) :
    SynchAction Thread Event Mutex → List (EventRecord Thread Event)
  | .call t (.exEventSignal e) => [.signalStarted t e]
  | .notifyTermination t (some e) => [.signalStarted t e]
  | .run t =>
    match s.pc t with
    | .waitTest e _ => if s.signaled e = true then [.waitReturned t e] else []
    | .blocked (.event e) =>
      if objects.eventType e = .notification then [.waitReturned t e] else []
    | .exitDying => [.signalStarted t (objects.terminationEvt t)]
    | .signalSet e _ => [.signaledExchanged t e]
    | _ => []
  | _ => []

/-- A call of `ExEventSignal` that has not set the event yet. -/
def pendingSignal (e : Event) : SynchPc Thread Event Mutex → Nat
  | .signalLock e' _ | .signalSet e' _ => if e' = e then 1 else 0
  | _ => 0

end Records

variable [DecidableEq Thread] [DecidableEq Event] [DecidableEq Mutex]
  {objects : SynchObjects Thread Event Mutex} {start s s' : SynchState Thread Event Mutex}
  {record : List (EventRecord Thread Event)} {t : Thread} {e : Event}

/-- What a step adds to the record is paid for by what it does to the event and to the calls. -/
structure StepCounted (objects : SynchObjects Thread Event Mutex)
    (s : SynchState Thread Event Mutex) (action : SynchAction Thread Event Mutex)
    (s' : SynchState Thread Event Mutex) (e : Event) : Prop where
  signaled : (waitReturners e (eventRecords objects s action)).length + (s'.signaled e).toNat ≤
    (s.signaled e).toNat + (signaledExchangers e (eventRecords objects s action)).length
  pending : ∀ u, (signaledExchangers e (eventRecords objects s action)).count u +
      pendingSignal e (s'.pc u) ≤
    pendingSignal e (s.pc u) + (signalStarters e (eventRecords objects s action)).count u

omit [DecidableEq Thread] [DecidableEq Mutex] in
@[simp] private theorem pendingSignal_afterBlock (w : Waitable Event Mutex) :
    pendingSignal e (afterBlock objects w : SynchPc Thread Event Mutex) = 0 := by
  cases w with
  | mutex m => rfl
  | event e' => cases htype : objects.eventType e' <;> simp [afterBlock,htype,pendingSignal]

omit [DecidableEq Thread] [DecidableEq Mutex] in
@[simp] private theorem pendingSignal_afterUnblock (caller : SignalCaller)
    (w : Waitable Event Mutex) : pendingSignal e
      (afterUnblock objects caller w : SynchPc Thread Event Mutex) = 0 := by
  cases w with
  | mutex m => rfl
  | event e' => cases htype : objects.eventType e' <;> simp [afterUnblock,htype,pendingSignal]

omit [DecidableEq Thread] [DecidableEq Mutex] in
@[simp] private theorem pendingSignal_resume (caller : SignalCaller) :
    pendingSignal e (caller.resume : SynchPc Thread Event Mutex) = 0 := by
  cases caller <;> rfl

omit [DecidableEq Thread] [DecidableEq Event] [DecidableEq Mutex] in
private theorem run_signaled [DecidableEq Thread] [DecidableEq Event] [DecidableEq Mutex]
    (hrun : SynchRun objects s t s') (htype : objects.eventType e = .synchronization) :
    (waitReturners e (eventRecords objects s (.run t))).length + (s'.signaled e).toNat ≤
      (s.signaled e).toNat + (signaledExchangers e (eventRecords objects s (.run t))).length := by
  cases hrun with
  | @testSignaled e' woken hpc hs =>
    by_cases he : e' = e
    · subst he
      simp [eventRecords,hpc,hs,waitReturners,signaledExchangers,SynchState.setSignaled,htype]
    · have hne : e ≠ e' := Ne.symm he
      simp [eventRecords,hpc,hs,waitReturners,signaledExchangers,SynchState.setSignaled,
        SynchState.setPc,he,hne]
  | testClear hpc hs =>
    simp [eventRecords,hpc,hs,waitReturners,signaledExchangers,SynchState.setPc]
  | @resume w hpc _ =>
    cases w with
    | mutex m => simp [eventRecords,hpc,waitReturners,signaledExchangers,SynchState.setPc]
    | event e' =>
      by_cases he : e' = e
      · subst he
        simp [eventRecords,hpc,htype,waitReturners,signaledExchangers,SynchState.setPc]
      · have hnone : waitReturners e (if objects.eventType e' = .notification then
            [EventRecord.waitReturned t e'] else []) = [] := by
          split <;> simp [waitReturners,he]
        simp [eventRecords,hpc,hnone,SynchState.setPc]
  | @signalSet e' caller hpc =>
    by_cases he : e' = e
    · subst he
      simp [eventRecords,hpc,waitReturners,signaledExchangers,SynchState.setSignaled]
    · have hne : e ≠ e' := Ne.symm he
      simp [eventRecords,hpc,waitReturners,signaledExchangers,SynchState.setSignaled,
        SynchState.setPc,he,hne]
  | @clearSignal e' hpc =>
    by_cases he : e' = e
    · subst he
      simp [eventRecords,hpc,waitReturners,SynchState.setSignaled]
    · have hne : e ≠ e' := Ne.symm he
      simp [eventRecords,hpc,waitReturners,SynchState.setSignaled,SynchState.setPc,hne]
  | exitDying hpc => simp [eventRecords,hpc,waitReturners,SynchState.setPc,SynchState.setState]
  | _ =>
    simp_all [eventRecords,waitReturners,SynchState.setPc,SynchState.setLock,SynchState.setBlockLock,
      SynchState.setState,SynchState.setWaitingList,SynchState.setHolder,SynchState.setDepth]

omit [DecidableEq Thread] [DecidableEq Mutex] in
private theorem run_records_thread {u : Thread} (hu : u ≠ t) :
    u ∉ signaledExchangers e (eventRecords objects s (.run t)) := by
  intro hmem
  obtain ⟨r,hr,heq⟩ := List.mem_filterMap.mp hmem
  simp only [eventRecords] at hr
  split at hr
  · split at hr <;> simp_all
  · split at hr <;> simp_all
  · simp_all
  · obtain rfl := List.mem_singleton.mp hr
    simp only at heq
    split at heq
    · exact hu (Option.some.inj heq).symm
    · cases heq
  · cases hr

private theorem run_pending (hrun : SynchRun objects s t s') (u : Thread) :
    (signaledExchangers e (eventRecords objects s (.run t))).count u + pendingSignal e (s'.pc u) ≤
      pendingSignal e (s.pc u) + (signalStarters e (eventRecords objects s (.run t))).count u := by
  by_cases hu : u = t
  · subst hu
    cases hrun with
    | @signalLock e' caller hpc _ =>
      simp [eventRecords,hpc,signaledExchangers,pendingSignal,SynchState.setPc,SynchState.setLock]
    | @signalSet e' caller hpc =>
      by_cases he : e' = e
      · simp [eventRecords,hpc,signaledExchangers,pendingSignal,SynchState.setPc,
          SynchState.setSignaled,he]
      · simp [eventRecords,hpc,signaledExchangers,pendingSignal,SynchState.setPc,
          SynchState.setSignaled,he]
    | exitDying hpc =>
      by_cases he : objects.terminationEvt u = e
      · simp [eventRecords,hpc,signalStarters,signaledExchangers,pendingSignal,SynchState.setPc,
          SynchState.setState,he]
      · simp [eventRecords,hpc,signalStarters,signaledExchangers,pendingSignal,SynchState.setPc,
          SynchState.setState,he]
    | @resume w hpc _ =>
      have hnone : signaledExchangers e (eventRecords objects s (.run u)) = [] := by
        cases w with
        | mutex m => simp [eventRecords,hpc,signaledExchangers]
        | event e' =>
          simp only [eventRecords,hpc]
          split <;> rfl
      simp [hnone,SynchState.setPc]
    | unblockUnlock hpc =>
      simp [eventRecords,hpc,signaledExchangers,SynchState.setPc,SynchState.setBlockLock]
    | unlockObject hpc =>
      simp [eventRecords,hpc,signaledExchangers,SynchState.setPc,SynchState.setLock]
    | _ =>
      simp_all [eventRecords,signaledExchangers,pendingSignal,SynchState.setPc,SynchState.setLock,
        SynchState.setBlockLock,SynchState.setState,SynchState.setWaitingList,SynchState.setHolder,
        SynchState.setDepth,SynchState.setSignaled]
  · rw [hrun.pc_other hu,List.count_eq_zero.mpr (run_records_thread hu),Nat.zero_add]
    exact Nat.le_add_right _ _

omit [DecidableEq Mutex] in
private theorem pending_setPc {pc : SynchPc Thread Event Mutex} {starters : List Thread}
    (h : pendingSignal e pc ≤ starters.count t) (u : Thread) :
    pendingSignal e ((s.setPc t pc).pc u) ≤ pendingSignal e (s.pc u) + starters.count u := by
  by_cases hu : u = t
  · subst hu
    simp only [SynchState.setPc,Function.update_self]
    omega
  · simp only [SynchState.setPc,Function.update_of_ne hu]
    exact Nat.le_add_right _ _

omit [DecidableEq Mutex] in
private theorem call_counted (call : SynchCall Event Mutex) :
    StepCounted objects s (.call t call) (s.setPc t call.entry) e := by
  cases call with
  | exEventSignal e' =>
    refine ⟨by simp [eventRecords,waitReturners,SynchState.setPc],?_⟩
    intro u
    have hnone : signaledExchangers e
        (eventRecords objects s (.call t (.exEventSignal e'))) = [] := rfl
    rw [hnone,List.count_nil,Nat.zero_add]
    apply pending_setPc
    by_cases he : e' = e
    · simp [eventRecords,signalStarters,SynchCall.entry,pendingSignal,he]
    · simp [SynchCall.entry,pendingSignal,he]
  | exEventWaitForSignal | exEventClearSignal | mutexAcquire | mutexRelease =>
    refine ⟨by simp [eventRecords,waitReturners,SynchState.setPc],?_⟩
    intro u
    apply (Nat.zero_add _).le.trans
    exact pending_setPc (Nat.zero_le _) u

private theorem step_counted {action : SynchAction Thread Event Mutex}
    (htype : objects.eventType e = .synchronization) (hstep : synchStep objects s action = some s') :
    StepCounted objects s action s' e := by
  cases action with
  | run t =>
    have hrun := synchRun_cases hstep
    exact ⟨run_signaled hrun htype,run_pending hrun⟩
  | call t call =>
    simp only [synchStep] at hstep
    split_ifs at hstep
    obtain rfl := Option.some.inj hstep
    exact call_counted call
  | threadYield t =>
    simp only [synchStep] at hstep
    split_ifs at hstep <;> obtain rfl := Option.some.inj hstep
    all_goals
      refine ⟨by simp [eventRecords,waitReturners,SynchState.setPc],fun u => ?_⟩
      apply (Nat.zero_add _).le.trans
      exact pending_setPc (Nat.zero_le _) u
  | threadExit t =>
    simp only [synchStep] at hstep
    split_ifs at hstep
    obtain rfl := Option.some.inj hstep
    refine ⟨by simp [eventRecords,waitReturners,SynchState.setPc],fun u => ?_⟩
    apply (Nat.zero_add _).le.trans
    exact pending_setPc (Nat.zero_le _) u
  | threadTerminate t =>
    obtain rfl := Option.some.inj hstep
    exact ⟨by simp [eventRecords,waitReturners],fun u => by simp [eventRecords,signaledExchangers]⟩
  | notifyTermination t processEvt =>
    simp only [synchStep] at hstep
    split_ifs at hstep
    cases processEvt with
    | none =>
      obtain rfl := Option.some.inj hstep
      refine ⟨by simp [eventRecords,waitReturners,SynchState.setPc],fun u => ?_⟩
      apply (Nat.zero_add _).le.trans
      exact pending_setPc (Nat.zero_le _) u
    | some e' =>
      obtain rfl := Option.some.inj hstep
      refine ⟨by simp [eventRecords,waitReturners,SynchState.setPc],fun u => ?_⟩
      apply (Nat.zero_add _).le.trans
      apply pending_setPc
      by_cases he : e' = e
      · simp [eventRecords,signalStarters,pendingSignal,he]
      · simp [pendingSignal,he]

/-- The counts of a run, for one event. -/
private structure SignalCount (start : SynchState Thread Event Mutex)
    (p : SynchState Thread Event Mutex × List (EventRecord Thread Event)) (e : Event) : Prop where
  returned : (waitReturners e p.2).length + (p.1.signaled e).toNat ≤
    (start.signaled e).toNat + (signaledExchangers e p.2).length
  started : ∀ u, (signaledExchangers e p.2).count u + pendingSignal e (p.1.pc u) ≤
    (signalStarters e p.2).count u

omit [DecidableEq Mutex] in
private theorem SignalCount.step {action : SynchAction Thread Event Mutex}
    (h : SignalCount start (s,record) e) (hstep : StepCounted objects s action s' e) :
    SignalCount start (s',record ++ eventRecords objects s action) e := by
  constructor
  · have hold := h.returned
    have hnew := hstep.signaled
    simp only [waitReturners,signaledExchangers,List.filterMap_append,List.length_append] at *
    omega
  · intro u
    have hold := h.started u
    have hnew := hstep.pending u
    simp only [signalStarters,signaledExchangers,List.filterMap_append,List.count_append] at *
    omega

private theorem signalCount_of_reachable (htype : objects.eventType e = .synchronization)
    {p : SynchState Thread Event Mutex × List (EventRecord Thread Event)}
    (h : (((synchSystem objects).startingAt start).recording (eventRecords objects)).Reachable p) :
    SignalCount start p e := by
  apply h.invariant
  · intro p hp
    obtain ⟨⟨hinit,hstart⟩,hrecord⟩ := hp
    constructor
    · simp [hrecord,hstart,waitReturners]
    · intro u
      simp [hrecord,hinit.pc u,signaledExchangers,pendingSignal]
  · intro p action p' _ hcount _ hstep
    obtain ⟨hstep,hrecord⟩ := TransitionSystem.recording_step.mp hstep
    have hcount' := hcount.step (step_counted htype hstep)
    rwa [← hrecord] at hcount'

/-- The waits on a synchronization event that have returned are no more than the signals that
have started, and one if the event was initialized signaled. -/
theorem waits_returned_le_signals (start : SynchState Thread Event Mutex)
    (htype : objects.eventType e = .synchronization)
    (h : (((synchSystem objects).startingAt start).recording (eventRecords objects)).Reachable
      (s,record)) :
    (waitReturners e record).length ≤
      (signalStarters e record).length + (start.signaled e).toNat := by
  obtain ⟨hreturned,hstarted⟩ := signalCount_of_reachable htype h
  have hsubperm : (signaledExchangers e record).Subperm (signalStarters e record) := by
    apply List.subperm_ext_iff.mpr
    intro u _
    exact (Nat.le_add_right _ _).trans (hstarted u)
  calc (waitReturners e record).length
      ≤ (start.signaled e).toNat + (signaledExchangers e record).length :=
        (Nat.le_add_right _ _).trans hreturned
    _ ≤ (start.signaled e).toNat + (signalStarters e record).length :=
        Nat.add_le_add_left hsubperm.length_le _
    _ = _ := Nat.add_comm _ _

/-- Two threads, and a synchronization event beside those for the end of each. -/
def threeEvents : SynchObjects (Fin 2) (Fin 3) Unit where
  eventType e := if e = 2 then .synchronization else .notification
  maxRecursivityDepth _ := 1
  terminationEvt t := t.castSucc

/-- The thread waits, the other signals, and the first returns. -/
theorem waits_returned_le_signals_one : ∃ p : SynchState (Fin 2) (Fin 3) Unit ×
      List (EventRecord (Fin 2) (Fin 3)),
    (((synchSystem threeEvents).startingAt .start).recording (eventRecords threeEvents)).Reachable
      p ∧ waitReturners 2 p.2 = [0] ∧
    (waitReturners 2 p.2).length ≤ (signalStarters 2 p.2).length + 0 := by
  obtain ⟨p,hreach,hp⟩ := TransitionSystem.exists_reachable
    (((synchSystem threeEvents).startingAt .start).recording (eventRecords threeEvents))
    (fun _ _ => True) (.start,[]) ⟨⟨start_initial,rfl⟩,rfl⟩
    ([.call 0 (.exEventWaitForSignal 2)] ++ List.replicate 8 (.run 0) ++
      [.call 1 (.exEventSignal 2)] ++ List.replicate 7 (.run 1) ++ List.replicate 2 (.run 0))
    (fun p => decide (waitReturners 2 p.2 = [0]))
    (TransitionSystem.runSatisfies_of_forall (fun _ _ => trivial) _ _) (by decide +kernel)
  exact ⟨p,hreach,of_decide_eq_true hp,waits_returned_le_signals .start rfl hreach⟩

end Hal9000
