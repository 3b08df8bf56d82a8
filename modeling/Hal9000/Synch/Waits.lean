import Hal9000.Synch.Steps

/-!
# The waiting lists

Mutexes and events queue and wake their waiters in one way, the way of `WaitQueue`: every step
of a thread is a step of the wait queues or leaves them alone. The accounts of the wait queues
then hold in every run, with one exception for threads that exit inside `ThreadBlock`.
-/

namespace Hal9000

open WaitQueue

variable {Thread Event Mutex : Type}

def SynchPc.place : SynchPc Thread Event Mutex → WaitQueue.Place Thread (Waitable Event Mutex)
  | .outside | .yieldState | .waitTest _ _ | .waitLock _ | .acquireEntry _ | .acquireLock _ | .acquireAgain _
  | .signalLock _ _ | .clearSignal _ | .releaseEntry _ | .releaseLock _ | .exitUnlock none
  | .exitDying | .exitNotify | .exitSchedule | .dead => .free
  | .acquireTake m | .acquireLoop m | .acquireDone m | .releasePop m => .holding (.mutex m)
  | .signalSet e _ | .signalPop e _ => .holding (.event e)
  | .insertWait w | .unlockObject w _ => .holding w
  | .takeBlockLock w => .queued w
  | .unlockWait w => .sealed w
  | .threadBlock w | .blockState w => .deciding w
  | .schedule w => .falling w
  | .blocked w => .asleep w
  | .unblockLock w t _ => .waking w t
  | .unblockReady w t _ => .wakingLocked w t
  | .unblockUnlock w t _ => .woke w t
  | .exitUnlock (some _) => .leaving

theorem SynchPc.eq_blocked {pc : SynchPc Thread Event Mutex} {w : Waitable Event Mutex}
    (h : pc.place = .asleep w) : pc = .blocked w := by
  cases pc with
  | blocked w' => rw [WaitQueue.Place.asleep.inj h]
  | exitUnlock waiting => cases waiting <;> cases h
  | _ => cases h

def SignalCaller.isExit : SignalCaller → Bool
  | .thread => false
  | .exitNotify | .exitSchedule => true

/-- The thread is in `ThreadExit`, also where that signals an event. -/
def SynchPc.isExiting : SynchPc Thread Event Mutex → Bool
  | .exitUnlock _ | .exitDying | .exitNotify | .exitSchedule | .dead => true
  | .signalLock _ caller | .signalSet _ caller | .signalPop _ caller | .unblockLock _ _ caller
  | .unblockReady _ _ caller | .unblockUnlock _ _ caller | .unlockObject _ caller => caller.isExit
  | _ => false

/-- The wait queues of a state. -/
def SynchState.waits (s : SynchState Thread Event Mutex) :
    WaitQueue.State Thread (Waitable Event Mutex) where
  place t := (s.pc t).place
  queue := s.waitingList
  lock := s.lock
  sleepLock := s.blockLock
  sleeps t := s.state t == .blocked
  gone t := (s.pc t).isExiting

/-- The flag is checked in `ThreadBlock`, where it makes the thread exit on its waiting list. -/
def FindsNoFlag (s : SynchState Thread Event Mutex) (t : Thread) : SynchPc Thread Event Mutex → Prop
  | .threadBlock _ => s.forceTerminatePending t = false
  | _ => True

instance (s : SynchState Thread Event Mutex) (t : Thread) : ∀ pc, Decidable (FindsNoFlag s t pc) := by
  intro pc
  cases pc <;> unfold FindsNoFlag <;> infer_instance

/-- No thread that enters `ThreadBlock` to wait finds itself terminated. -/
def NoForcedExit (s : SynchState Thread Event Mutex) : SynchAction Thread Event Mutex → Prop
  | .run t => FindsNoFlag s t (s.pc t)
  | _ => True

instance (s : SynchState Thread Event Mutex) : ∀ action, Decidable (NoForcedExit s action)
  | .run t => inferInstanceAs (Decidable (FindsNoFlag s t (s.pc t)))
  | .call _ _ | .threadYield _ | .threadExit _ | .threadTerminate _ | .notifyTermination _ _ =>
    .isTrue trivial

variable [DecidableEq Thread] {s s' : SynchState Thread Event Mutex} {t : Thread}

private theorem waits_setPc (pc : SynchPc Thread Event Mutex) :
    (s.setPc t pc).waits = { s.waits with
      place := Function.update s.waits.place t pc.place
      gone := Function.update s.waits.gone t pc.isExiting } := by
  have hplace : (fun u => (Function.update s.pc t pc u).place) =
      Function.update (fun u => (s.pc u).place) t pc.place := by
    funext u
    by_cases hu : u = t
    · simp [hu]
    · simp [hu]
  have hgone : (fun u => (Function.update s.pc t pc u).isExiting) =
      Function.update (fun u => (s.pc u).isExiting) t pc.isExiting := by
    funext u
    by_cases hu : u = t
    · simp [hu]
    · simp [hu]
  simp only [SynchState.waits,SynchState.setPc,hplace,hgone]

private theorem waits_setState (state : ThreadState) :
    (s.setState t state).waits = s.waits.setSleeps t (state == .blocked) := by
  have : (fun u => Function.update s.state t state u == ThreadState.blocked) =
      Function.update (fun u => s.state u == ThreadState.blocked) t (state == .blocked) := by
    funext u
    by_cases hu : u = t
    · simp [hu]
    · simp [hu]
  simp only [SynchState.waits,SynchState.setState,State.setSleeps,this]

private theorem waits_move (pc : SynchPc Thread Event Mutex)
    (hgone : pc.isExiting = (s.pc t).isExiting) :
    (s.setPc t pc).waits = s.waits.setPlace t pc.place := by
  rw [waits_setPc,hgone]
  have : Function.update s.waits.gone t (s.pc t).isExiting = s.waits.gone :=
    Function.update_eq_self t s.waits.gone
  rw [this]
  rfl

private theorem waits_stay (pc : SynchPc Thread Event Mutex) (hplace : pc.place = (s.pc t).place)
    (hgone : pc.isExiting = (s.pc t).isExiting) : (s.setPc t pc).waits = s.waits := by
  rw [waits_move pc hgone,hplace]
  have : Function.update s.waits.place t (s.pc t).place = s.waits.place :=
    Function.update_eq_self t s.waits.place
  rw [State.setPlace,this]

private theorem waits_setState_awake {state : ThreadState} (hstate : (state == .blocked) = false)
    (hawake : s.waits.sleeps t = false) : (s.setState t state).waits = s.waits := by
  rw [waits_setState,hstate,← hawake]
  have : Function.update s.waits.sleeps t (s.waits.sleeps t) = s.waits.sleeps :=
    Function.update_eq_self t s.waits.sleeps
  rw [State.setSleeps,this]

omit [DecidableEq Thread] in
private theorem afterBlock_free (objects : SynchObjects Thread Event Mutex)
    (w : Waitable Event Mutex) :
    (afterBlock objects w : SynchPc Thread Event Mutex).place = .free ∧
      (afterBlock objects w : SynchPc Thread Event Mutex).isExiting = false := by
  cases w with
  | event e => cases htype : objects.eventType e <;> simp [afterBlock,htype] <;> exact ⟨rfl,rfl⟩
  | mutex m => exact ⟨rfl,rfl⟩

omit [DecidableEq Thread] in
private theorem afterUnblock_holding (objects : SynchObjects Thread Event Mutex)
    (caller : SignalCaller) (w : Waitable Event Mutex) :
    (afterUnblock objects caller w : SynchPc Thread Event Mutex).place = .holding w ∧
      (afterUnblock objects caller w : SynchPc Thread Event Mutex).isExiting = caller.isExit := by
  cases w with
  | event e => cases htype : objects.eventType e <;> simp [afterUnblock,htype] <;> exact ⟨rfl,rfl⟩
  | mutex m => exact ⟨rfl,rfl⟩

omit [DecidableEq Thread] in
private theorem SignalCaller.resume_free (caller : SignalCaller) :
    (caller.resume : SynchPc Thread Event Mutex).place = .free ∧
      (caller.resume : SynchPc Thread Event Mutex).isExiting = caller.isExit := by
  cases caller <;> exact ⟨rfl,rfl⟩

variable [DecidableEq Event] [DecidableEq Mutex]

private theorem acquire_waits {mayLeave : Prop} {w : Waitable Event Mutex}
    {pc : SynchPc Thread Event Mutex} (hlock : s.lock w = none) (hfree : (s.pc t).place = .free)
    (hplace : pc.place = .holding w) (hgone : pc.isExiting = (s.pc t).isExiting) :
    WaitQueue.Step mayLeave s.waits ((s.setPc t pc).setLock w (some t)).waits := by
  have hwaits : ((s.setPc t pc).setLock w (some t)).waits =
      (s.waits.setPlace t (.holding w)).setLock w (some t) := by
    rw [← hplace,← waits_move pc hgone]
    rfl
  rw [hwaits]
  exact .acquire hfree hlock

private theorem exitUnlock_waits {mayLeave : Prop} (h : Invariant s.waits)
    {waiting : Option (Waitable Event Mutex)} (hpc : s.pc t = .exitUnlock waiting) :
    ((s.setPc t .exitDying).setBlockLock t
        (if s.blockLock t = some t then none else s.blockLock t)).waits = s.waits ∨
      WaitQueue.Step mayLeave s.waits ((s.setPc t .exitDying).setBlockLock t
        (if s.blockLock t = some t then none else s.blockLock t)).waits := by
  have hown : s.blockLock t = some t ↔ (s.waits.place t).sleepLock t = some t := h.sleepLock t t
  have hgone : (SynchPc.exitDying : SynchPc Thread Event Mutex).isExiting =
      (s.pc t).isExiting := by rw [hpc]; rfl
  cases waiting with
  | none =>
    have hplace : s.waits.place t = .free := congrArg SynchPc.place hpc
    have hfree : s.blockLock t ≠ some t := by
      rw [hplace] at hown
      exact fun hself => nomatch hown.mp hself
    have hsame : (s.setPc t .exitDying).setBlockLock t (s.blockLock t) = s.setPc t .exitDying := by
      simp [SynchState.setBlockLock,SynchState.setPc]
    left
    rw [if_neg hfree,hsame]
    exact waits_stay .exitDying (by rw [hpc]; rfl) hgone
  | some w =>
    have hplace : s.waits.place t = .leaving := congrArg SynchPc.place hpc
    have hself : s.blockLock t = some t := by
      rw [hplace] at hown
      exact hown.mpr rfl
    right
    rw [if_pos hself]
    change WaitQueue.Step _ _ ((s.setPc t .exitDying).waits.setSleepLock t none)
    rw [waits_move .exitDying hgone]
    exact .left hplace

omit [DecidableEq Event] [DecidableEq Mutex] in
private theorem awake_waits (h : Invariant s.waits) (pc : SynchPc Thread Event Mutex)
    (hstay : (s.setPc t pc).waits = s.waits) (hplace : (s.waits.place t).maySleep = false)
    {state : ThreadState} (hstate : (state == .blocked) = false) :
    ((s.setPc t pc).setState t state).waits = s.waits := by
  have hawake : (s.setPc t pc).waits.sleeps t = false := by
    rw [hstay]
    exact h.not_sleeps hplace
  exact (waits_setState_awake hstate hawake).trans hstay

/-- Every step of a thread is a step of the wait queues or invisible to them. It is the step of
a thread that leaves its queue behind only where `ThreadBlock` finds the flag. -/
theorem SynchRun.waits {objects : SynchObjects Thread Event Mutex} (h : Invariant s.waits)
    (hrun : SynchRun objects s t s') : s'.waits = s.waits ∨
      WaitQueue.Step (¬ FindsNoFlag s t (s.pc t)) s.waits s'.waits := by
  have stay : ∀ {next pc : SynchPc Thread Event Mutex}, s.pc t = pc → next.place = pc.place →
      next.isExiting = pc.isExiting → (s.setPc t next).waits = s.waits := by
    intro next pc hpc
    rw [← hpc]
    exact waits_stay next
  have move : ∀ (next : SynchPc Thread Event Mutex) {pc : SynchPc Thread Event Mutex},
      s.pc t = pc → next.isExiting = pc.isExiting →
        (s.setPc t next).waits = s.waits.setPlace t next.place := by
    intro next pc hpc
    rw [← hpc]
    exact waits_move next
  cases hrun with
  | testSignaled hpc | testClear hpc | acquireNested hpc | acquireEntry hpc | takeFree hpc
  | takeHeld hpc | loopDone hpc | loopWait hpc | signalSet hpc | signalDone hpc | clearSignal hpc
  | releaseNested hpc | releaseEntry hpc | releaseFree hpc | threadBlock hpc | exitSchedule hpc =>
    exact Or.inl (stay hpc rfl rfl)
  | waitLock hpc hlock | acquireLock hpc hlock | acquireAgain hpc hlock | signalLock hpc hlock
  | releaseLock hpc hlock =>
    exact Or.inr (acquire_waits hlock (by rw [hpc]; rfl) rfl (by rw [hpc]; rfl))
  | @acquireDone m hpc =>
    right
    change WaitQueue.Step _ _ ((s.setPc t .outside).waits.setLock (.mutex m) none)
    rw [move .outside hpc rfl]
    exact .release (congrArg SynchPc.place hpc)
  | @insertWait w hpc =>
    right
    change WaitQueue.Step _ _
      ((s.setPc t (.takeBlockLock w)).waits.setQueue w (s.waits.queue w ++ [t]))
    rw [move (.takeBlockLock w) hpc rfl]
    exact .enqueue (congrArg SynchPc.place hpc) (congrArg SynchPc.isExiting hpc)
  | @takeBlockLock w hpc hfree =>
    right
    change WaitQueue.Step _ _ ((s.setPc t (.unlockWait w)).waits.setSleepLock t (some t))
    rw [move (.unlockWait w) hpc rfl]
    exact .lockSelf (congrArg SynchPc.place hpc) hfree
  | @unlockWait w hpc =>
    right
    change WaitQueue.Step _ _ ((s.setPc t (.threadBlock w)).waits.setLock w none)
    rw [move (.threadBlock w) hpc rfl]
    exact .unlock (congrArg SynchPc.place hpc)
  | @forcedExit w hpc hflag =>
    right
    rw [waits_setPc]
    exact .leave (congrArg SynchPc.place hpc) (by simp [hpc,FindsNoFlag,hflag])
  | @blockState w hpc =>
    right
    rw [waits_setState,move (.schedule w) hpc rfl]
    exact .fall (congrArg SynchPc.place hpc)
  | @schedule w hpc =>
    right
    change WaitQueue.Step _ _ ((s.setPc t (.blocked w)).waits.setSleepLock t none)
    rw [move (.blocked w) hpc rfl]
    exact .deschedule (congrArg SynchPc.place hpc)
  | @resume w hpc hready =>
    right
    obtain ⟨hplace,hgone⟩ := afterBlock_free objects w
    rw [move (afterBlock objects w) hpc hgone,hplace]
    exact .resume (congrArg SynchPc.place hpc) (by simp [SynchState.waits,hready])
  | @signalPop e caller t' rest hpc hlist =>
    right
    change WaitQueue.Step _ _
      ((s.setPc t (.unblockLock (.event e) t' caller)).waits.setQueue (.event e) rest)
    rw [move (.unblockLock (.event e) t' caller) hpc rfl]
    exact .pop (congrArg SynchPc.place hpc) hlist
  | @releaseHand m t' rest hpc hlist =>
    right
    change WaitQueue.Step _ _
      ((s.setPc t (.unblockLock (.mutex m) t' .thread)).waits.setQueue (.mutex m) rest)
    rw [move (.unblockLock (.mutex m) t' .thread) hpc rfl]
    exact .pop (congrArg SynchPc.place hpc) hlist
  | @unblockLock w t' caller hpc hfree =>
    right
    change WaitQueue.Step _ _
      ((s.setPc t (.unblockReady w t' caller)).waits.setSleepLock t' (some t))
    rw [move (.unblockReady w t' caller) hpc rfl]
    exact .lockTarget (congrArg SynchPc.place hpc) hfree
  | @unblockReady w t' caller hpc hblocked =>
    right
    rw [waits_setState,move (.unblockUnlock w t' caller) hpc rfl]
    exact .wake (congrArg SynchPc.place hpc) (by simp [SynchState.waits,hblocked])
  | @unblockUnlock w t' caller hpc =>
    right
    obtain ⟨hplace,hgone⟩ := afterUnblock_holding objects caller w
    change WaitQueue.Step _ _
      ((s.setPc t (afterUnblock objects caller w)).waits.setSleepLock t' none)
    rw [move (afterUnblock objects caller w) hpc hgone,hplace]
    exact .unlockTarget (congrArg SynchPc.place hpc)
  | @unlockObject w caller hpc =>
    right
    obtain ⟨hplace,hgone⟩ := caller.resume_free
    change WaitQueue.Step _ _ ((s.setPc t caller.resume).waits.setLock w none)
    rw [move caller.resume hpc hgone,hplace]
    exact .release (congrArg SynchPc.place hpc)
  | exitUnlock hpc => exact exitUnlock_waits h hpc
  | yieldState hpc =>
    exact Or.inl (awake_waits h .outside (stay hpc rfl rfl)
      (congrArg (fun pc => pc.place.maySleep) hpc) rfl)
  | exitDying hpc =>
    exact Or.inl (awake_waits h (.signalLock (objects.terminationEvt t) .exitNotify)
      (stay hpc rfl rfl) (congrArg (fun pc => pc.place.maySleep) hpc) rfl)

private theorem waits_exit (hpc : s.pc t = .outside) :
    WaitQueue.Step False s.waits (s.setPc t (.exitUnlock none)).waits := by
  have hfree : s.waits.place t = .free := congrArg SynchPc.place hpc
  have hsame : Function.update s.waits.place t .free = s.waits.place := by
    rw [← hfree,Function.update_eq_self]
  have hwaits : (s.setPc t (.exitUnlock none)).waits = s.waits.setGone t := by
    rw [waits_setPc]
    simp only [SynchPc.place,SynchPc.isExiting,hsame,State.setGone]
  rw [hwaits]
  exact .exit hfree

omit [DecidableEq Thread] [DecidableEq Event] [DecidableEq Mutex] in
theorem SynchCall.entry_free (call : SynchCall Event Mutex) :
    (call.entry : SynchPc Thread Event Mutex).place = .free ∧
      (call.entry : SynchPc Thread Event Mutex).isExiting = false := by
  cases call <;> exact ⟨rfl,rfl⟩

theorem SynchEnter.waits (henter : SynchEnter s s') :
    s'.waits = s.waits ∨ WaitQueue.Step False s.waits s'.waits := by
  cases henter with
  | call call hpc =>
    exact Or.inl (waits_stay _ (by rw [call.entry_free.1,hpc]; rfl)
      (by rw [call.entry_free.2,hpc]; rfl))
  | exit hpc => exact Or.inr (waits_exit hpc)
  | terminate => exact Or.inl rfl
  | yield hpc | notified hpc | notifiedLast hpc =>
    exact Or.inl (waits_stay _ (by rw [hpc]; rfl) (by rw [hpc]; rfl))

theorem synchStep_waits (objects : SynchObjects Thread Event Mutex) (h : Invariant s.waits)
    {action : SynchAction Thread Event Mutex} (hstep : synchStep objects s action = some s') :
    s'.waits = s.waits ∨ WaitQueue.Step (¬ NoForcedExit s action) s.waits s'.waits := by
  rcases synchStep_cases hstep with ⟨t,rfl,hrun⟩ | ⟨_,henter⟩
  · exact hrun.waits h
  · exact henter.waits.imp id fun hmoved => hmoved.mono False.elim

omit [DecidableEq Thread] [DecidableEq Event] [DecidableEq Mutex] in
theorem initial_waits (h : s.Initial) : Invariant s.waits := by
  have hplace : ∀ t, s.waits.place t = .free := by
    intro t
    exact congrArg SynchPc.place (h.pc t)
  have hqueue : ∀ w, s.waits.queue w = [] := h.waitingList
  have hgone : ∀ t, s.waits.gone t = false := by
    intro t
    exact congrArg SynchPc.isExiting (h.pc t)
  have hsleeps : ∀ t, s.waits.sleeps t = false := by
    intro t
    rcases h.state t with hstate | hstate <;> simp [SynchState.waits,hstate]
  have hlock : ∀ w, s.waits.lock w = none := h.lock
  have hsleepLock : ∀ t, s.waits.sleepLock t = none := h.blockLock
  refine ⟨?_,?_,?_,?_,?_,?_,?_,?_,?_,?_⟩
  · intro w u
    simp [hlock,hplace,WaitQueue.Place.lock]
  · intro t u
    simp [hsleepLock,hplace,WaitQueue.Place.sleepLock]
  · simp [hqueue]
  · simp [hqueue]
  · simp [hqueue]
  · simp [hplace,WaitQueue.Place.wakes]
  · simp [hplace]
  · simp [hplace]
  · simp [hsleeps]
  · simp [hgone]

theorem waits_of_reachable {objects : SynchObjects Thread Event Mutex}
    {guard : SynchState Thread Event Mutex → SynchAction Thread Event Mutex → Prop}
    (h : (synchSystem objects).ReachableUnder guard s) : Invariant s.waits := by
  induction h with
  | init hinit => exact initial_waits hinit
  | step _ _ hstep ih =>
    rcases synchStep_waits objects ih hstep with hsame | hmoved
    · rw [hsame]
      exact ih
    · exact ih.step hmoved

end Hal9000
