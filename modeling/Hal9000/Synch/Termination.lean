import Hal9000.Synch.Waits

/-!
# Terminated threads and waiting lists

A thread that is terminated while it waits keeps waiting until it is woken, and exits off the
waiting list. The exception is `ThreadBlock`: a thread that has put itself on a waiting list and
finds there that it is to be terminated exits without blocking, and its entry stays.
-/

namespace Hal9000

open WaitQueue

variable {Thread Event Mutex : Type} [DecidableEq Thread] [DecidableEq Event] [DecidableEq Mutex]
  {objects : SynchObjects Thread Event Mutex} {s s' : SynchState Thread Event Mutex} {t : Thread}

private theorem SynchRun.dying {u : Thread} (hrun : SynchRun objects s t s')
    (hdying : s'.state u = .dying) : s.state u = .dying ∨ (s.pc u).isExiting = true := by
  cases hrun with
  | yieldState hpc | blockState hpc =>
    left
    by_cases hu : u = t
    · simp [SynchState.setState,hu] at hdying
    · simpa [SynchState.setState,SynchState.setPc,hu] using hdying
  | @unblockReady _ t' =>
    left
    by_cases hu : u = t'
    · simp [SynchState.setState,hu] at hdying
    · simpa [SynchState.setState,SynchState.setPc,hu] using hdying
  | exitDying hpc =>
    by_cases hu : u = t
    · right
      rw [hu,hpc]
      rfl
    · left
      simpa [SynchState.setState,SynchState.setPc,hu] using hdying
  | _ => exact Or.inl hdying

private theorem synchStep_dying {u : Thread} {action : SynchAction Thread Event Mutex}
    (hstep : synchStep objects s action = some s') (hdying : s'.state u = .dying) :
    s.state u = .dying ∨ (s.pc u).isExiting = true := by
  rcases synchStep_cases hstep with ⟨t,rfl,hrun⟩ | ⟨_,henter⟩
  · exact hrun.dying hdying
  · cases henter <;> exact Or.inl hdying

private theorem synchStep_isExiting {u : Thread} {action : SynchAction Thread Event Mutex}
    (h : Invariant s.waits) (hstep : synchStep objects s action = some s')
    (hexits : (s.pc u).isExiting = true) : (s'.pc u).isExiting = true := by
  change s'.waits.gone u = true
  rcases synchStep_waits objects h hstep with hsame | hmoved
  · rw [hsame]
    exact hexits
  · exact hmoved.gone_mono hexits

theorem dying_isExiting {guard : SynchState Thread Event Mutex → SynchAction Thread Event Mutex → Prop}
    (h : (synchSystem objects).ReachableUnder guard s) :
    ∀ t, s.state t = .dying → (s.pc t).isExiting = true := by
  induction h with
  | init hinit =>
    intro t hdying
    rcases hinit.state t with hstate | hstate <;> rw [hstate] at hdying <;> cases hdying
  | step hreach _ hstep ih =>
    intro t hdying
    have hexits := (synchStep_dying hstep hdying).elim (ih t) id
    exact synchStep_isExiting (waits_of_reachable hreach) hstep hexits

theorem waits_live (h : (synchSystem objects).ReachableUnder NoForcedExit s) : Live s.waits := by
  induction h with
  | init hinit =>
    refine ⟨?_,?_⟩
    · intro w t hmem
      rw [show (SynchState.waits _).queue w = [] from hinit.waitingList w] at hmem
      cases hmem
    · intro u w t hwakes
      rw [show (SynchState.waits _).place u = .free from congrArg SynchPc.place (hinit.pc u)]
        at hwakes
      cases hwakes
  | step hreach hguard hstep ih =>
    have hinv := waits_of_reachable hreach
    rcases synchStep_waits objects hinv hstep with hsame | hmoved
    · rw [hsame]
      exact ih
    · have hstays := hmoved.mono fun hforced => hforced hguard
      exact hstays.live hinv ih

/-- The waiting lists and the wakers have no terminated thread. -/
structure TerminatedUnlinked (s : SynchState Thread Event Mutex) : Prop where
  linked : ∀ w t, t ∈ s.waitingList w → s.state t ≠ .dying ∧ (s.pc t).isExiting = false
  /-- The assertion of `ThreadUnblock`. -/
  unblocked : ∀ u w t caller, s.pc u = .unblockReady w t caller → s.state t = .blocked
  handed : ∀ u m t rest, s.pc u = .releasePop m → s.waitingList (.mutex m) = t :: rest →
    s.state t ≠ .dying ∧ (s.pc t).isExiting = false

/-- In every run where no thread that enters `ThreadBlock` to wait finds itself terminated, no
terminated thread is on a waiting list, `ThreadUnblock` finds its thread blocked, and a mutex is
handed to a live thread. -/
theorem terminated_unlinked (h : (synchSystem objects).ReachableUnder NoForcedExit s) :
    TerminatedUnlinked s := by
  have hlive := waits_live h
  have hlinked : ∀ w t, t ∈ s.waitingList w → s.state t ≠ .dying ∧ (s.pc t).isExiting = false := by
    intro w t hmem
    have hstays : (s.pc t).isExiting = false := hlive.queued w t hmem
    refine ⟨?_,hstays⟩
    intro hdying
    rw [dying_isExiting h t hdying] at hstays
    cases hstays
  refine ⟨hlinked,?_,?_⟩
  · intro u w t caller hpc
    have hplace : s.waits.place u = .wakingLocked w t := congrArg SynchPc.place hpc
    have hgone := hlive.woken u w t (by rw [hplace]; rfl)
    have hasleep := ((waits_of_reachable h).target_asleep hplace hgone).2
    simpa [SynchState.waits] using hasleep
  · intro u m t rest _ hlist
    apply hlinked (.mutex m) t
    rw [hlist]
    exact List.mem_cons_self

/-- Thread 0 has the mutex, and thread 1 is about to enter `ThreadBlock` to wait for it. -/
def waitForMutex : List (SynchAction (Fin 2) (Fin 2) Unit) :=
  .call 0 (.mutexAcquire ()) :: List.replicate 5 (.run 0) ++
    .call 1 (.mutexAcquire ()) :: List.replicate 7 (.run 1)

/-- Thread 0 releases the mutex, up to the assertion of `ThreadUnblock`. -/
def handMutex : List (SynchAction (Fin 2) (Fin 2) Unit) :=
  .call 0 (.mutexRelease ()) :: List.replicate 4 (.run 0)

/-- Terminated after it has blocked, the waiter is woken as any other. -/
theorem terminated_unlinked_two : ∃ s : SynchState (Fin 2) (Fin 2) Unit,
    (synchSystem twoThreads).ReachableUnder NoForcedExit s ∧
    s.forceTerminatePending 1 = true ∧ s.holder () = some 1 ∧ s.state 1 = .blocked := by
  obtain ⟨s,hreach,hs⟩ := TransitionSystem.exists_reachable (synchSystem twoThreads)
    NoForcedExit .start start_initial
    (waitForMutex ++ [.run 1,.run 1,.threadTerminate 1,.run 1] ++ handMutex)
    (fun s => decide (s.pc 0 = .unblockReady (.mutex ()) 1 .thread ∧
      s.forceTerminatePending 1 = true ∧ s.holder () = some 1))
    (by decide +kernel) (by decide +kernel)
  obtain ⟨hpc,hflag,hholder⟩ := of_decide_eq_true hs
  exact ⟨s,hreach,hflag,hholder,(terminated_unlinked hreach).unblocked 0 _ 1 _ hpc⟩

/-- Terminated just before, it exits and stays on the waiting list; the mutex is handed to it and
the assertion of `ThreadUnblock` fails. -/
theorem terminated_waiter_linked :
    (∃ s : SynchState (Fin 2) (Fin 2) Unit, (synchSystem twoThreads).Reachable s ∧
      s.waitingList (.mutex ()) = [1] ∧ s.state 1 = .dying) ∧
    ∃ s : SynchState (Fin 2) (Fin 2) Unit, (synchSystem twoThreads).Reachable s ∧
      s.holder () = some 1 ∧ s.pc 0 = .unblockReady (.mutex ()) 1 .thread ∧ s.state 1 = .dying ∧
        synchStep twoThreads s (.run 0) = none := by
  refine ⟨?_,?_⟩
  · obtain ⟨s,hreach,hs⟩ := TransitionSystem.exists_reachable (synchSystem twoThreads)
      (fun _ _ => True) .start start_initial
      (waitForMutex ++ .threadTerminate 1 :: List.replicate 3 (.run 1))
      (fun s => decide (s.waitingList (.mutex ()) = [1] ∧ s.state 1 = .dying))
      (TransitionSystem.runSatisfies_of_forall (fun _ _ => trivial) _ _) (by decide +kernel)
    exact ⟨s,hreach,of_decide_eq_true hs⟩
  · obtain ⟨s,hreach,hs⟩ := TransitionSystem.exists_reachable (synchSystem twoThreads)
      (fun _ _ => True) .start start_initial
      (waitForMutex ++ .threadTerminate 1 :: List.replicate 3 (.run 1) ++ handMutex)
      (fun s => decide (s.holder () = some 1 ∧ s.pc 0 = .unblockReady (.mutex ()) 1 .thread ∧
        s.state 1 = .dying ∧ (synchStep twoThreads s (.run 0)).isNone = true))
      (TransitionSystem.runSatisfies_of_forall (fun _ _ => trivial) _ _) (by decide +kernel)
    obtain ⟨hholder,hpc,hdying,hfails⟩ := of_decide_eq_true hs
    exact ⟨s,hreach,hholder,hpc,hdying,Option.isNone_iff_eq_none.mp hfails⟩

end Hal9000
