import Hal9000.Synch.Model

/-!
# The steps of a thread, by cases

What one step of a thread does, one case for each branch of `synchRun`: the invariants that
follow are proved by cases on this relation and never unfold the step function.
-/

namespace Hal9000

variable {Thread Event Mutex : Type} [DecidableEq Thread] [DecidableEq Event] [DecidableEq Mutex]

inductive SynchRun (objects : SynchObjects Thread Event Mutex) (s : SynchState Thread Event Mutex)
    (t : Thread) : SynchState Thread Event Mutex → Prop
  | yieldState (hpc : s.pc t = .yieldState) :
      SynchRun objects s t ((s.setPc t .outside).setState t .ready)
  | testSignaled {e : Event} {woken : Bool} (hpc : s.pc t = .waitTest e woken)
      (hs : s.signaled e = true) : SynchRun objects s t
        ((s.setPc t .outside).setSignaled e (objects.eventType e == .notification))
  | testClear {e : Event} {woken : Bool} (hpc : s.pc t = .waitTest e woken)
      (hs : s.signaled e = false) : SynchRun objects s t (s.setPc t (.waitLock e))
  | waitLock {e : Event} (hpc : s.pc t = .waitLock e) (hlock : s.lock (.event e) = none) :
      SynchRun objects s t
        ((s.setPc t (.insertWait (.event e))).setLock (.event e) (some t))
  | acquireNested {m : Mutex} (hpc : s.pc t = .acquireEntry m) (hholder : s.holder m = some t)
      (hdepth : s.currentRecursivityDepth m < objects.maxRecursivityDepth m) :
      SynchRun objects s t ((s.setPc t .outside).setDepth m (s.currentRecursivityDepth m + 1))
  | acquireEntry {m : Mutex} (hpc : s.pc t = .acquireEntry m) (hholder : s.holder m ≠ some t) :
      SynchRun objects s t (s.setPc t (.acquireLock m))
  | acquireLock {m : Mutex} (hpc : s.pc t = .acquireLock m) (hlock : s.lock (.mutex m) = none) :
      SynchRun objects s t ((s.setPc t (.acquireTake m)).setLock (.mutex m) (some t))
  | takeFree {m : Mutex} (hpc : s.pc t = .acquireTake m) (hholder : s.holder m = none) :
      SynchRun objects s t
        (((s.setPc t (.acquireLoop m)).setHolder m (some t)).setDepth m 1)
  | takeHeld {m : Mutex} (hpc : s.pc t = .acquireTake m) (hholder : s.holder m ≠ none) :
      SynchRun objects s t (s.setPc t (.acquireLoop m))
  | loopDone {m : Mutex} (hpc : s.pc t = .acquireLoop m) (hholder : s.holder m = some t) :
      SynchRun objects s t (s.setPc t (.acquireDone m))
  | loopWait {m : Mutex} (hpc : s.pc t = .acquireLoop m) (hholder : s.holder m ≠ some t) :
      SynchRun objects s t (s.setPc t (.insertWait (.mutex m)))
  | acquireAgain {m : Mutex} (hpc : s.pc t = .acquireAgain m) (hlock : s.lock (.mutex m) = none) :
      SynchRun objects s t ((s.setPc t (.acquireLoop m)).setLock (.mutex m) (some t))
  | acquireDone {m : Mutex} (hpc : s.pc t = .acquireDone m) :
      SynchRun objects s t ((s.setPc t .outside).setLock (.mutex m) none)
  | insertWait {w : Waitable Event Mutex} (hpc : s.pc t = .insertWait w) :
      SynchRun objects s t
        ((s.setPc t (.takeBlockLock w)).setWaitingList w (s.waitingList w ++ [t]))
  | takeBlockLock {w : Waitable Event Mutex} (hpc : s.pc t = .takeBlockLock w)
      (hfree : s.blockLock t = none) : SynchRun objects s t
        ((s.setPc t (.unlockWait w)).setBlockLock t (some t))
  | unlockWait {w : Waitable Event Mutex} (hpc : s.pc t = .unlockWait w) :
      SynchRun objects s t ((s.setPc t (.threadBlock w)).setLock w none)
  | forcedExit {w : Waitable Event Mutex} (hpc : s.pc t = .threadBlock w)
      (hflag : s.forceTerminatePending t = true) :
      SynchRun objects s t (s.setPc t (.exitUnlock (some w)))
  | threadBlock {w : Waitable Event Mutex} (hpc : s.pc t = .threadBlock w)
      (hflag : s.forceTerminatePending t = false) :
      SynchRun objects s t (s.setPc t (.blockState w))
  | blockState {w : Waitable Event Mutex} (hpc : s.pc t = .blockState w) :
      SynchRun objects s t ((s.setPc t (.schedule w)).setState t .blocked)
  | schedule {w : Waitable Event Mutex} (hpc : s.pc t = .schedule w) :
      SynchRun objects s t ((s.setPc t (.blocked w)).setBlockLock t none)
  | resume {w : Waitable Event Mutex} (hpc : s.pc t = .blocked w) (hready : s.state t = .ready) :
      SynchRun objects s t (s.setPc t (afterBlock objects w))
  | signalLock {e : Event} {caller : SignalCaller} (hpc : s.pc t = .signalLock e caller)
      (hlock : s.lock (.event e) = none) : SynchRun objects s t
        ((s.setPc t (.signalSet e caller)).setLock (.event e) (some t))
  | signalSet {e : Event} {caller : SignalCaller} (hpc : s.pc t = .signalSet e caller) :
      SynchRun objects s t ((s.setPc t (.signalPop e caller)).setSignaled e true)
  | signalDone {e : Event} {caller : SignalCaller} (hpc : s.pc t = .signalPop e caller)
      (hlist : s.waitingList (.event e) = []) :
      SynchRun objects s t (s.setPc t (.unlockObject (.event e) caller))
  | signalPop {e : Event} {caller : SignalCaller} {t' : Thread} {rest : List Thread}
      (hpc : s.pc t = .signalPop e caller) (hlist : s.waitingList (.event e) = t' :: rest) :
      SynchRun objects s t
        ((s.setPc t (.unblockLock (.event e) t' caller)).setWaitingList (.event e) rest)
  | clearSignal {e : Event} (hpc : s.pc t = .clearSignal e) :
      SynchRun objects s t ((s.setPc t .outside).setSignaled e false)
  | releaseNested {m : Mutex} (hpc : s.pc t = .releaseEntry m) (hholder : s.holder m = some t)
      (hdepth : 1 < s.currentRecursivityDepth m) : SynchRun objects s t
        ((s.setPc t .outside).setDepth m (s.currentRecursivityDepth m - 1))
  | releaseEntry {m : Mutex} (hpc : s.pc t = .releaseEntry m) (hholder : s.holder m = some t)
      (hdepth : s.currentRecursivityDepth m ≤ 1) :
      SynchRun objects s t (s.setPc t (.releaseLock m))
  | releaseLock {m : Mutex} (hpc : s.pc t = .releaseLock m) (hlock : s.lock (.mutex m) = none) :
      SynchRun objects s t ((s.setPc t (.releasePop m)).setLock (.mutex m) (some t))
  | releaseFree {m : Mutex} (hpc : s.pc t = .releasePop m)
      (hlist : s.waitingList (.mutex m) = []) : SynchRun objects s t
        ((s.setPc t (.unlockObject (.mutex m) .thread)).setHolder m none)
  | releaseHand {m : Mutex} {t' : Thread} {rest : List Thread} (hpc : s.pc t = .releasePop m)
      (hlist : s.waitingList (.mutex m) = t' :: rest) : SynchRun objects s t
        ((((s.setPc t (.unblockLock (.mutex m) t' .thread)).setWaitingList (.mutex m)
          rest).setHolder m (some t')).setDepth m 1)
  | unblockLock {w : Waitable Event Mutex} {t' : Thread} {caller : SignalCaller}
      (hpc : s.pc t = .unblockLock w t' caller) (hfree : s.blockLock t' = none) :
      SynchRun objects s t
        ((s.setPc t (.unblockReady w t' caller)).setBlockLock t' (some t))
  | unblockReady {w : Waitable Event Mutex} {t' : Thread} {caller : SignalCaller}
      (hpc : s.pc t = .unblockReady w t' caller) (hblocked : s.state t' = .blocked) :
      SynchRun objects s t ((s.setPc t (.unblockUnlock w t' caller)).setState t' .ready)
  | unblockUnlock {w : Waitable Event Mutex} {t' : Thread} {caller : SignalCaller}
      (hpc : s.pc t = .unblockUnlock w t' caller) : SynchRun objects s t
        ((s.setPc t (afterUnblock objects caller w)).setBlockLock t' none)
  | unlockObject {w : Waitable Event Mutex} {caller : SignalCaller}
      (hpc : s.pc t = .unlockObject w caller) :
      SynchRun objects s t ((s.setPc t caller.resume).setLock w none)
  | exitUnlock {waiting : Option (Waitable Event Mutex)} (hpc : s.pc t = .exitUnlock waiting) :
      SynchRun objects s t ((s.setPc t .exitDying).setBlockLock t
        (if s.blockLock t = some t then none else s.blockLock t))
  | exitDying (hpc : s.pc t = .exitDying) : SynchRun objects s t
      ((s.setPc t (.signalLock (objects.terminationEvt t) .exitNotify)).setState t .dying)
  | exitSchedule (hpc : s.pc t = .exitSchedule) : SynchRun objects s t (s.setPc t .dead)

variable {objects : SynchObjects Thread Event Mutex} {s s' : SynchState Thread Event Mutex}
  {t : Thread}

private theorem acquire_eq {w : Waitable Event Mutex} {pc : SynchPc Thread Event Mutex}
    (h : s.acquire t w pc = some s') :
    s.lock w = none ∧ s' = (s.setPc t pc).setLock w (some t) := by
  unfold SynchState.acquire at h
  split_ifs at h with hlock
  exact ⟨hlock,(Option.some.inj h).symm⟩

theorem synchRun_cases (h : synchRun objects s t = some s') : SynchRun objects s t s' := by
  unfold synchRun at h
  cases hpc : s.pc t <;> rw [hpc] at h <;> simp only [reduceCtorEq] at h
  case yieldState =>
    obtain rfl := Option.some.inj h
    exact .yieldState hpc
  case waitTest e woken =>
    split_ifs at h with hs <;> obtain rfl := Option.some.inj h
    · exact .testSignaled hpc hs
    · exact .testClear hpc (by simpa using hs)
  case waitLock e =>
    obtain ⟨hlock,rfl⟩ := acquire_eq h
    exact .waitLock hpc hlock
  case acquireEntry m =>
    split_ifs at h with hholder
    · obtain ⟨_,hassert,hs⟩ := Option.bind_eq_some_iff.mp h
      obtain rfl := Option.some.inj hs
      simp only [assert_eq_some,decide_eq_true_eq] at hassert
      exact .acquireNested hpc hholder hassert
    · obtain rfl := Option.some.inj h
      exact .acquireEntry hpc hholder
  case acquireLock m =>
    obtain ⟨hlock,rfl⟩ := acquire_eq h
    exact .acquireLock hpc hlock
  case acquireTake m =>
    split_ifs at h with hholder <;> obtain rfl := Option.some.inj h
    · exact .takeFree hpc hholder
    · exact .takeHeld hpc hholder
  case acquireLoop m =>
    split_ifs at h with hholder <;> obtain rfl := Option.some.inj h
    · exact .loopDone hpc hholder
    · exact .loopWait hpc hholder
  case acquireAgain m =>
    obtain ⟨hlock,rfl⟩ := acquire_eq h
    exact .acquireAgain hpc hlock
  case acquireDone m =>
    obtain rfl := Option.some.inj h
    exact .acquireDone hpc
  case insertWait w =>
    obtain rfl := Option.some.inj h
    exact .insertWait hpc
  case takeBlockLock w =>
    split_ifs at h with hfree
    obtain rfl := Option.some.inj h
    exact .takeBlockLock hpc hfree
  case unlockWait w =>
    obtain rfl := Option.some.inj h
    exact .unlockWait hpc
  case threadBlock w =>
    obtain rfl := Option.some.inj h
    split_ifs with hflag
    · exact .forcedExit hpc hflag
    · exact .threadBlock hpc (by simpa using hflag)
  case blockState w =>
    obtain rfl := Option.some.inj h
    exact .blockState hpc
  case schedule w =>
    obtain rfl := Option.some.inj h
    exact .schedule hpc
  case blocked w =>
    split_ifs at h with hready
    obtain rfl := Option.some.inj h
    exact .resume hpc hready
  case signalLock e caller =>
    obtain ⟨hlock,rfl⟩ := acquire_eq h
    exact .signalLock hpc hlock
  case signalSet e caller =>
    obtain rfl := Option.some.inj h
    exact .signalSet hpc
  case signalPop e caller =>
    cases hlist : s.waitingList (.event e) <;> rw [hlist] at h <;> obtain rfl := Option.some.inj h
    · exact .signalDone hpc hlist
    · exact .signalPop hpc hlist
  case clearSignal e =>
    obtain rfl := Option.some.inj h
    exact .clearSignal hpc
  case releaseEntry m =>
    obtain ⟨_,hassert,hs⟩ := Option.bind_eq_some_iff.mp h
    simp only [assert_eq_some,decide_eq_true_eq] at hassert
    by_cases hdepth : s.currentRecursivityDepth m > 1
    · rw [if_pos hdepth] at hs
      obtain rfl := Option.some.inj hs
      exact .releaseNested hpc hassert hdepth
    · rw [if_neg hdepth] at hs
      obtain rfl := Option.some.inj hs
      exact .releaseEntry hpc hassert (Nat.not_lt.mp hdepth)
  case releaseLock m =>
    obtain ⟨hlock,rfl⟩ := acquire_eq h
    exact .releaseLock hpc hlock
  case releasePop m =>
    cases hlist : s.waitingList (.mutex m) <;> rw [hlist] at h <;> obtain rfl := Option.some.inj h
    · exact .releaseFree hpc hlist
    · exact .releaseHand hpc hlist
  case unblockLock w t' caller =>
    split_ifs at h with hfree
    obtain rfl := Option.some.inj h
    exact .unblockLock hpc hfree
  case unblockReady w t' caller =>
    obtain ⟨_,hassert,hs⟩ := Option.bind_eq_some_iff.mp h
    obtain rfl := Option.some.inj hs
    simp only [assert_eq_some,decide_eq_true_eq] at hassert
    exact .unblockReady hpc hassert
  case unblockUnlock w t' caller =>
    obtain rfl := Option.some.inj h
    exact .unblockUnlock hpc
  case unlockObject w caller =>
    obtain rfl := Option.some.inj h
    exact .unlockObject hpc
  case exitUnlock waiting =>
    obtain rfl := Option.some.inj h
    exact .exitUnlock hpc
  case exitDying =>
    obtain rfl := Option.some.inj h
    exact .exitDying hpc
  case exitSchedule =>
    obtain rfl := Option.some.inj h
    exact .exitSchedule hpc

/-- The other actions: a thread outside of every call enters one, or yields. -/
inductive SynchEnter (s : SynchState Thread Event Mutex) : SynchState Thread Event Mutex → Prop
  | call {t : Thread} (call : SynchCall Event Mutex) (hpc : s.pc t = .outside) :
      SynchEnter s (s.setPc t call.entry)
  | exit {t : Thread} (hpc : s.pc t = .outside) : SynchEnter s (s.setPc t (.exitUnlock none))
  | yield {t : Thread} (hpc : s.pc t = .outside) : SynchEnter s (s.setPc t .yieldState)
  | terminate {t : Thread} : SynchEnter s
      { s with forceTerminatePending := Function.update s.forceTerminatePending t true }
  | notified {t : Thread} (hpc : s.pc t = .exitNotify) : SynchEnter s (s.setPc t .exitSchedule)
  | notifiedLast {t : Thread} {e : Event} (hpc : s.pc t = .exitNotify) :
      SynchEnter s (s.setPc t (.signalLock e .exitSchedule))

theorem synchStep_cases {action : SynchAction Thread Event Mutex}
    (h : synchStep objects s action = some s') :
    (∃ t, action = .run t ∧ SynchRun objects s t s') ∨
      (∀ t, action ≠ .run t) ∧ SynchEnter s s' := by
  cases action with
  | run t => exact Or.inl ⟨t,rfl,synchRun_cases h⟩
  | call t call =>
    simp only [synchStep] at h
    split_ifs at h with hpc
    obtain rfl := Option.some.inj h
    exact Or.inr ⟨by simp,.call call hpc⟩
  | threadYield t =>
    simp only [synchStep] at h
    split_ifs at h with hpc hflag <;> obtain rfl := Option.some.inj h
    · exact Or.inr ⟨by simp,.exit hpc⟩
    · exact Or.inr ⟨by simp,.yield hpc⟩
  | threadExit t =>
    simp only [synchStep] at h
    split_ifs at h with hpc
    obtain rfl := Option.some.inj h
    exact Or.inr ⟨by simp,.exit hpc⟩
  | threadTerminate t =>
    obtain rfl := Option.some.inj h
    exact Or.inr ⟨by simp,.terminate⟩
  | notifyTermination t processEvt =>
    simp only [synchStep] at h
    split_ifs at h with hpc
    cases processEvt <;> obtain rfl := Option.some.inj h
    · exact Or.inr ⟨by simp,.notified hpc⟩
    · exact Or.inr ⟨by simp,.notifiedLast hpc⟩

theorem SynchRun.pc_other (hrun : SynchRun objects s t s') {u : Thread} (hu : u ≠ t) :
    s'.pc u = s.pc u := by
  cases hrun <;> exact Function.update_of_ne hu _ _

theorem SynchRun.state_other (hrun : SynchRun objects s t s') {u : Thread} (hu : u ≠ t) :
    s'.state u = s.state u ∨ s'.state u = .ready := by
  cases hrun with
  | yieldState | blockState | exitDying => exact Or.inl (Function.update_of_ne hu _ _)
  | @unblockReady _ t' =>
    by_cases hu' : u = t'
    · right
      simp [SynchState.setState,hu']
    · exact Or.inl (Function.update_of_ne hu' _ _)
  | _ => exact Or.inl rfl

end Hal9000
