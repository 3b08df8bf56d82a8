import Hal9000.Framework.Dispatch
import Hal9000.Threads.SchedulerSteps

/-!
# Where the threads are

The CPUs dispatch from the ready list, and every step of the scheduler is a step of the dispatcher
or leaves it alone. That a thread that is unblocked is in no other place rests on its state and on
who has its block lock.
-/

namespace Hal9000

open Dispatch

variable {Cpu Thread : Type}

def SchedPc.hasReadyLock : SchedPc Thread → Bool
  | .yieldInsert | .unblockInsert _ _ | .unblockReleaseReady _ _ | .schedule | .getReadyThread
  | .setCurrentThread _ | .threadSwitch _ | .releaseReady => true
  | _ => false

/-- In `_ThreadSchedule`, before the switch. -/
def SchedPc.isDispatching : SchedPc Thread → Bool
  | .schedule | .getReadyThread | .setCurrentThread _ | .threadSwitch _ => true
  | _ => false

/-- The current thread may be blocked. -/
def SchedPc.isBlocking : SchedPc Thread → Bool
  | .blockLock | .schedule | .getReadyThread | .setCurrentThread _ | .threadSwitch _ => true
  | _ => false

def UnblockCaller.isExit : UnblockCaller → Bool
  | .thread => false
  | .exit => true

/-- The current thread may be dying. -/
def SchedPc.isExiting : SchedPc Thread → Bool
  | .unblockLock _ caller | .unblockState _ caller | .unblockReadyLock _ caller
  | .unblockInsert _ caller | .unblockReleaseReady _ caller | .unblockRelease _ caller =>
    caller.isExit
  | .exitNotify | .schedule | .getReadyThread | .setCurrentThread _ | .threadSwitch _ => true
  | _ => false

/-- The thread that `ThreadUnblock` is called with. -/
def SchedPc.unblocks : SchedPc Thread → Option Thread
  | .unblockLock t _ | .unblockState t _ | .unblockReadyLock t _ | .unblockInsert t _
  | .unblockReleaseReady t _ | .unblockRelease t _ => some t
  | _ => none

/-- The thread whose block lock `ThreadUnblock` has. -/
def SchedPc.locks : SchedPc Thread → Option Thread
  | .unblockState t _ | .unblockReadyLock t _ | .unblockInsert t _ | .unblockReleaseReady t _
  | .unblockRelease t _ => some t
  | _ => none

/-- The thread that `ThreadUnblock` has found blocked. -/
def SchedPc.wakes : SchedPc Thread → Option Thread
  | .unblockReadyLock t _ | .unblockInsert t _ => some t
  | _ => none

/-- The thread whose stack a CPU is on, given its current thread. -/
def SchedPc.executed (current : Thread) : SchedPc Thread → Thread
  | .threadSwitch old => old
  | _ => current

/-- The thread a CPU is about to switch to, given its current thread. -/
def SchedPc.picked (current : Thread) : SchedPc Thread → Option Thread
  | .setCurrentThread next => some next
  | .threadSwitch _ => some current
  | _ => none

def SchedState.running (s : SchedState Cpu Thread) (c : Cpu) : Thread :=
  (s.pc c).executed (s.currentThread c)

def SchedState.chosen (s : SchedState Cpu Thread) (c : Cpu) : Option Thread :=
  (s.pc c).picked (s.currentThread c)

/-- The places of the threads. -/
def SchedState.places (s : SchedState Cpu Thread) : Dispatch.State Cpu Thread where
  running := s.running
  chosen := s.chosen
  dispatching c := (s.pc c).isDispatching
  idle := s.idleThread
  queue := s.readyThreadsList
  lock := s.readyThreadsLock

/-- What the states of the threads and the locks say about the places. -/
structure SchedInv (s : SchedState Cpu Thread) : Prop where
  places : Dispatch.Invariant s.places
  lock : ∀ c, s.readyThreadsLock = some c ↔ (s.pc c).hasReadyLock = true
  ready : ∀ t, t ∈ s.readyThreadsList → s.state t = .ready ∧ s.stage t = .started
  idle : ∀ t, s.stage t = .idle ↔ ∃ c, s.idleThread c = some t
  chosen : ∀ c t, s.chosen c = some t →
    s.stage t = .idle ∨ s.stage t = .started ∧ s.state t = .ready
  runs : ∀ c, s.stage (s.running c) = .idle ∨ s.stage (s.running c) = .started
  blocked : ∀ c, s.state (s.running c) = .blocked → s.stage (s.running c) = .started →
    s.blockLock (s.running c) = some c ∧ (s.pc c).isBlocking = true
  exiting : ∀ c, s.state (s.running c) = .dying → (s.pc c).isExiting = true
  dying : ∀ t, s.state t = .dying → s.stage t = .started
  took : ∀ c, s.pc c = .tookBlockLock ∨ s.pc c = .blockState →
    s.blockLock (s.currentThread c) = some c
  unblocks : ∀ c t, (s.pc c).unblocks = some t → s.stage t = .started
  locks : ∀ c t, (s.pc c).locks = some t → s.blockLock t = some c
  wakes : ∀ c t, (s.pc c).wakes = some t → s.state t = .blocked
  exits : ∀ c, s.pc c = .exitUnlock ∨ s.pc c = .exitDying →
    s.stage (s.currentThread c) = .started
  flag : ∀ t, s.forceTerminatePending t = true → s.stage t = .started
  unset : ∀ t, s.stack t = .unset ↔ s.stage t = .absent ∨ s.stage t = .initialized
  inUse : ∀ t, s.stack t = .inUse ↔ ∃ c, s.running c = t

variable [DecidableEq Cpu] [DecidableEq Thread] {s s' : SchedState Cpu Thread} {c : Cpu}

omit [DecidableEq Thread] in
private theorem running_setPc (pc : SchedPc Thread) :
    (s.setPc c pc).running =
      Function.update s.running c (pc.executed (s.currentThread c)) := by
  funext c'
  by_cases hc : c' = c
  · simp [SchedState.running,SchedState.setPc,hc]
  · simp [SchedState.running,SchedState.setPc,hc]

omit [DecidableEq Thread] in
private theorem chosen_setPc (pc : SchedPc Thread) :
    (s.setPc c pc).chosen = Function.update s.chosen c (pc.picked (s.currentThread c)) := by
  funext c'
  by_cases hc : c' = c
  · simp [SchedState.chosen,SchedState.setPc,hc]
  · simp [SchedState.chosen,SchedState.setPc,hc]

omit [DecidableEq Thread] in
private theorem dispatching_setPc (pc : SchedPc Thread) :
    (fun c' => ((s.setPc c pc).pc c').isDispatching) =
      Function.update (fun c' => (s.pc c').isDispatching) c pc.isDispatching := by
  funext c'
  by_cases hc : c' = c
  · simp [SchedState.setPc,hc]
  · simp [SchedState.setPc,hc]

omit [DecidableEq Thread] in
private theorem places_move (pc : SchedPc Thread)
    (hrunning : pc.executed (s.currentThread c) = s.running c)
    (hchosen : pc.picked (s.currentThread c) = s.chosen c) :
    (s.setPc c pc).places = s.places.setDispatching c pc.isDispatching := by
  have hr := running_setPc (s := s) (c := c) pc
  have hc := chosen_setPc (s := s) (c := c) pc
  rw [hrunning,Function.update_eq_self] at hr
  rw [hchosen,Function.update_eq_self] at hc
  simp only [SchedState.places,Dispatch.State.setDispatching,hr,hc,dispatching_setPc]
  rfl

omit [DecidableEq Thread] in
private theorem places_stay (pc : SchedPc Thread)
    (hrunning : pc.executed (s.currentThread c) = s.running c)
    (hchosen : pc.picked (s.currentThread c) = s.chosen c)
    (hdispatching : pc.isDispatching = (s.pc c).isDispatching) :
    (s.setPc c pc).places = s.places := by
  rw [places_move pc hrunning hchosen,hdispatching]
  have : Function.update s.places.dispatching c (s.pc c).isDispatching = s.places.dispatching :=
    Function.update_eq_self c s.places.dispatching
  simp only [Dispatch.State.setDispatching,this]

omit [DecidableEq Thread] in
private theorem places_choose {next : Thread} (hpc : s.pc c = .getReadyThread) :
    (s.setPc c (.setCurrentThread next)).places = s.places.choose c next := by
  have hr := running_setPc (s := s) (c := c) (.setCurrentThread next)
  rw [show SchedPc.executed (s.currentThread c) (.setCurrentThread next) = s.running c by
    simp only [SchedState.running,hpc,SchedPc.executed],Function.update_eq_self] at hr
  have hd := dispatching_setPc (s := s) (c := c) (.setCurrentThread next)
  rw [show (SchedPc.setCurrentThread next).isDispatching = (s.pc c).isDispatching by rw [hpc]; rfl,
    Function.update_eq_self c fun c' => (s.pc c').isDispatching] at hd
  simp only [SchedState.places,Dispatch.State.choose,hr,hd,chosen_setPc]
  rfl

omit [DecidableEq Thread] in
private theorem places_setCurrent {next : Thread} (hpc : s.pc c = .setCurrentThread next) :
    SchedState.places { s.setPc c (.threadSwitch (s.currentThread c)) with
      currentThread := Function.update s.currentThread c next } = s.places := by
  have hr : (fun c' => (Function.update s.pc c (.threadSwitch (s.currentThread c)) c').executed
      (Function.update s.currentThread c next c')) = s.running := by
    funext c'
    by_cases hc : c' = c
    · simp [hc,SchedState.running,hpc,SchedPc.executed]
    · simp [hc,SchedState.running]
  have hch : (fun c' => (Function.update s.pc c (.threadSwitch (s.currentThread c)) c').picked
      (Function.update s.currentThread c next c')) = s.chosen := by
    funext c'
    by_cases hc : c' = c
    · simp [hc,SchedState.chosen,hpc,SchedPc.picked]
    · simp [hc,SchedState.chosen]
  have hd := dispatching_setPc (s := s) (c := c) (.threadSwitch (s.currentThread c))
  rw [show (SchedPc.threadSwitch (s.currentThread c)).isDispatching = (s.pc c).isDispatching by
    rw [hpc]; rfl,Function.update_eq_self c fun c' => (s.pc c').isDispatching] at hd
  unfold SchedState.places
  congr 1

omit [DecidableEq Thread] in
private theorem places_switch :
    (s.setPc c .releaseReady).places = { s.places.setDispatching c false with
      running := Function.update s.places.running c (s.currentThread c)
      chosen := Function.update s.places.chosen c none } := by
  have hd := dispatching_setPc (s := s) (c := c) .releaseReady
  simp only [SchedState.places,Dispatch.State.setDispatching,running_setPc,chosen_setPc,hd]
  rfl

omit [DecidableEq Cpu] [DecidableEq Thread] in
private theorem SchedInv.woken_off (h : SchedInv s) {t : Thread}
    (hwakes : (s.pc c).wakes = some t) : Off s.places t := by
  have hblocked := h.wakes c t hwakes
  have hstarted : s.stage t = .started := by
    apply h.unblocks c t
    cases hpc : s.pc c <;> rw [hpc] at hwakes <;> cases hwakes <;> rfl
  have hown : s.blockLock t = some c := by
    apply h.locks c t
    cases hpc : s.pc c <;> rw [hpc] at hwakes <;> cases hwakes <;> rfl
  refine ⟨?_,?_,?_,?_⟩
  · intro c' hrunning
    change s.running c' = t at hrunning
    obtain ⟨hown',hblocking⟩ := h.blocked c' (by rw [hrunning,hblocked]) (by rw [hrunning,hstarted])
    rw [hrunning,hown,Option.some.injEq] at hown'
    rw [← hown'] at hblocking
    cases hpc : s.pc c <;> rw [hpc] at hwakes hblocking <;> cases hwakes <;> cases hblocking
  · intro c' hchosen
    rcases h.chosen c' t hchosen with hidle | ⟨_,hready⟩
    · rw [hstarted] at hidle
      cases hidle
    · rw [hblocked] at hready
      cases hready
  · intro c' hidle
    rw [(h.idle t).mpr ⟨c',hidle⟩] at hstarted
    cases hstarted
  · intro hlisted
    rw [(h.ready t hlisted).1] at hblocked
    cases hblocked

theorem SchedRun.places (h : SchedInv s) (hrun : SchedRun s c s') :
    s'.places = s.places ∨ Dispatch.Step s.places s'.places := by
  have stay : ∀ {pc : SchedPc Thread} (next : SchedPc Thread), s.pc c = pc →
      next.executed (s.currentThread c) = pc.executed (s.currentThread c) →
      next.picked (s.currentThread c) = pc.picked (s.currentThread c) →
      next.isDispatching = pc.isDispatching → (s.setPc c next).places = s.places := by
    intro pc next hpc
    rw [← hpc]
    exact places_stay next
  have move : ∀ {pc : SchedPc Thread} (next : SchedPc Thread), s.pc c = pc →
      next.executed (s.currentThread c) = pc.executed (s.currentThread c) →
      next.picked (s.currentThread c) = pc.picked (s.currentThread c) →
      (s.setPc c next).places = s.places.setDispatching c next.isDispatching := by
    intro pc next hpc
    rw [← hpc]
    exact places_move next
  have still : ∀ {pc : SchedPc Thread}, s.pc c = pc → s.places.running c =
      pc.executed (s.currentThread c) ∧ s.places.chosen c = pc.picked (s.currentThread c) ∧
        s.places.dispatching c = pc.isDispatching := by
    intro pc hpc
    rw [← hpc]
    exact ⟨rfl,rfl,rfl⟩
  have hlock : (s.pc c).hasReadyLock = true → s.places.lock = some c := (h.lock c).mpr
  cases hrun with
  | forcedExit hpc | threadBlock hpc | blockState hpc | unblockLock hpc | unblockState hpc
  | exitUnlock hpc | exitDying hpc | schedule hpc | releaseBlock hpc | inspectLock hpc
  | inspectDying hpc | inspectLive hpc | dereference hpc =>
    exact Or.inl (stay _ hpc rfl rfl rfl)
  | @unblockRelease t caller hpc =>
    left
    cases caller <;> exact stay _ hpc rfl rfl rfl
  | noPrevious hpc =>
    left
    rcases hpc with hpc | hpc | hpc <;> exact stay _ hpc rfl rfl rfl
  | yieldLock hpc hfree =>
    right
    change Dispatch.Step _ { (s.setPc c .yieldInsert).places with lock := some c }
    rw [stay .yieldInsert hpc rfl rfl rfl]
    exact .acquire hfree
  | @unblockReadyLock t caller hpc hfree =>
    right
    change Dispatch.Step _ { (s.setPc c (.unblockInsert t caller)).places with lock := some c }
    rw [stay (.unblockInsert t caller) hpc rfl rfl rfl]
    exact .acquire hfree
  | blockLock hpc hfree | exitNotify hpc hfree =>
    right
    change Dispatch.Step _ { (s.setPc c .schedule).places with lock := some c }
    rw [move .schedule hpc rfl rfl]
    exact .acquireDispatching hfree
  | @unblockReleaseReady t caller hpc =>
    right
    change Dispatch.Step _ { (s.setPc c (.unblockRelease t caller)).places with lock := none }
    rw [stay (.unblockRelease t caller) hpc rfl rfl rfl]
    exact .release (hlock (by rw [hpc]; rfl)) (still hpc).2.2
  | releaseReady hpc =>
    right
    change Dispatch.Step _ { (s.setPc c .inspectLock).places with lock := none }
    rw [stay .inspectLock hpc rfl rfl rfl]
    exact .release (hlock (by rw [hpc]; rfl)) (still hpc).2.2
  | yieldIdle hpc =>
    right
    change Dispatch.Step _ (s.setPc c .schedule).places
    rw [move .schedule hpc rfl rfl]
    exact .begin (hlock (by rw [hpc]; rfl))
  | yieldInsert hpc hidle =>
    right
    change Dispatch.Step _ { (s.setPc c .schedule).places with
      queue := s.places.queue ++ [s.currentThread c] }
    rw [move .schedule hpc rfl rfl,← show s.places.running c = s.currentThread c from (still hpc).1]
    apply Dispatch.Step.requeue (hlock (by rw [hpc]; rfl)) (still hpc).2.2
    rw [show s.places.running c = s.currentThread c from (still hpc).1]
    exact hidle
  | @unblockInsert t caller hpc =>
    right
    change Dispatch.Step _ { (s.setPc c (.unblockReleaseReady t caller)).places with
      queue := s.places.queue ++ [t] }
    rw [stay (.unblockReleaseReady t caller) hpc rfl rfl rfl]
    exact .enqueue (h.woken_off (c := c) (by rw [hpc]; rfl))
  | keepIdle hpc hlist hidle =>
    right
    rw [move .releaseReady hpc rfl rfl]
    exact .keepIdle (still hpc).2.2 (still hpc).2.1 hlist
  | @pickIdle next hpc hlist hidle hne =>
    right
    rw [places_choose hpc]
    apply Dispatch.Step.pickIdle (still hpc).2.2 hlist hidle
    rw [(still hpc).1]
    exact hne
  | @keep rest hpc hlist =>
    right
    change Dispatch.Step _ { (s.setPc c .releaseReady).places with queue := rest }
    rw [move .releaseReady hpc rfl rfl]
    exact .keep (still hpc).2.2 (still hpc).2.1 (by rw [(still hpc).1]; exact hlist)
  | @pick next rest hpc hlist hne =>
    right
    change Dispatch.Step _ { (s.setPc c (.setCurrentThread next)).places with queue := rest }
    rw [places_choose hpc]
    apply Dispatch.Step.pick (still hpc).2.2 hlist
    rw [(still hpc).1]
    exact hne
  | @setCurrentThread next hpc => exact Or.inl (places_setCurrent hpc)
  | @threadSwitch old hpc =>
    right
    change Dispatch.Step _ (s.setPc c .releaseReady).places
    rw [places_switch]
    exact .switch (still hpc).2.1

theorem SchedRun.pc_other (hrun : SchedRun s c s') {c' : Cpu} (hc : c' ≠ c) :
    s'.pc c' = s.pc c' ∧ s'.currentThread c' = s.currentThread c' := by
  cases hrun with
  | setCurrentThread => exact ⟨Function.update_of_ne hc _ _,Function.update_of_ne hc _ _⟩
  | _ => exact ⟨Function.update_of_ne hc _ _,rfl⟩

theorem SchedRun.running_other (hrun : SchedRun s c s') {c' : Cpu} (hc : c' ≠ c) :
    s'.running c' = s.running c' ∧ s'.chosen c' = s.chosen c' := by
  obtain ⟨hpc,hcurrent⟩ := hrun.pc_other hc
  simp only [SchedState.running,SchedState.chosen,hpc,hcurrent,and_self]

theorem SchedRun.state_cases (hrun : SchedRun s c s') (t : Thread) : s'.state t = s.state t ∨
    t = s.currentThread c ∧ (s.pc c = .yieldInsert ∧ s'.state t = .ready ∨
      s.pc c = .blockState ∧ s'.state t = .blocked ∧ s'.pc c = .blockLock ∧
        s'.blockLock = s.blockLock ∨
      s.pc c = .exitDying ∧ s'.state t = .dying ∧ s'.pc c = .exitNotify) ∨
    ∃ caller, s.pc c = .unblockInsert t caller ∧ s'.state t = .ready := by
  cases hrun with
  | yieldIdle hpc | yieldInsert hpc | blockState hpc | exitDying hpc =>
    by_cases ht : t = s.currentThread c
    · right
      left
      simp [SchedState.setState,SchedState.setPc,hpc,ht]
    · left
      simp [SchedState.setState,SchedState.setPc,ht]
  | @unblockInsert t' caller hpc =>
    by_cases ht : t = t'
    · right
      right
      exact ⟨caller,by rw [hpc,ht],by simp [SchedState.setState,ht]⟩
    · left
      simp [SchedState.setState,SchedState.setPc,ht]
  | _ => exact Or.inl rfl

theorem SchedRun.blockLock_cases (h : SchedInv s) (hrun : SchedRun s c s') (t : Thread) :
    s'.blockLock t = s.blockLock t ∨ s.blockLock t = none ∧ s'.blockLock t = some c ∨
      s.blockLock t = some c ∧ s'.blockLock t = none := by
  cases hrun with
  | @unblockLock t' caller hpc hfree =>
    by_cases ht : t = t'
    · right
      left
      simp [SchedState.setBlockLock,ht,hfree]
    · left
      simp [SchedState.setBlockLock,SchedState.setPc,ht]
  | @unblockRelease t' caller hpc =>
    by_cases ht : t = t'
    · right
      right
      rw [ht]
      exact ⟨h.locks c t' (by rw [hpc]; rfl),by simp [SchedState.setBlockLock]⟩
    · left
      simp [SchedState.setBlockLock,SchedState.setPc,ht]
  | exitUnlock hpc =>
    by_cases ht : t = s.currentThread c
    · by_cases hown : s.blockLock (s.currentThread c) = some c
      · right
        right
        simp [SchedState.setBlockLock,ht,hown]
      · left
        simp [SchedState.setBlockLock,ht,hown]
    · left
      simp [SchedState.setBlockLock,SchedState.setPc,ht]
  | @releaseBlock prev hpc hprev hown =>
    by_cases ht : t = prev
    · right
      right
      simp [SchedState.setBlockLock,ht,hown]
    · left
      simp [SchedState.setBlockLock,SchedState.setPc,ht]
  | _ => exact Or.inl rfl

theorem SchedRun.blockLock_other (h : SchedInv s) (hrun : SchedRun s c s') {c' : Cpu} (hc : c' ≠ c)
    {t : Thread} (hown : s.blockLock t = some c') : s'.blockLock t = some c' := by
  rcases hrun.blockLock_cases h t with hsame | ⟨hnone,_⟩ | ⟨hmine,_⟩
  · rw [hsame,hown]
  · rw [hown] at hnone
    cases hnone
  · rw [hown,Option.some.injEq] at hmine
    exact absurd hmine hc

theorem SchedRun.stage (hrun : SchedRun s c s') :
    s'.stage = s.stage ∧ s'.idleThread = s.idleThread ∧
      s'.forceTerminatePending = s.forceTerminatePending := by
  cases hrun <;> exact ⟨rfl,rfl,rfl⟩

theorem SchedRun.list_cases (hrun : SchedRun s c s') {t : Thread} (ht : t ∈ s'.readyThreadsList) :
    t ∈ s.readyThreadsList ∨ s'.state t = .ready ∧
      (t = s.currentThread c ∧ s.pc c = .yieldInsert ∧ s.idleThread c ≠ some t ∨
        (s.pc c).wakes = some t) := by
  cases hrun with
  | yieldInsert hpc hidle =>
    rcases List.mem_append.mp ht with hold | hnew
    · exact Or.inl hold
    · have heq : t = s.currentThread c := List.mem_singleton.mp hnew
      right
      rw [heq]
      exact ⟨by simp [SchedState.setState],Or.inl ⟨rfl,hpc,hidle⟩⟩
  | @unblockInsert t' caller hpc =>
    rcases List.mem_append.mp ht with hold | hnew
    · exact Or.inl hold
    · have heq : t = t' := List.mem_singleton.mp hnew
      right
      rw [heq]
      exact ⟨by simp [SchedState.setState],Or.inr (by rw [hpc]; rfl)⟩
  | keep hpc hlist | pick hpc hlist hne =>
    left
    rw [hlist]
    exact List.mem_cons_of_mem _ ht
  | _ => exact Or.inl ht

omit [DecidableEq Cpu] [DecidableEq Thread] in
private theorem resume_hasReadyLock (caller : UnblockCaller) :
    (caller.resume : SchedPc Thread).hasReadyLock = false := by
  cases caller <;> rfl

private theorem SchedRun.lock (h : SchedInv s) (hrun : SchedRun s c s') :
    ∀ c', s'.readyThreadsLock = some c' ↔ (s'.pc c').hasReadyLock = true := by
  have hlock := h.lock
  intro c'
  cases hrun <;>
    simp only [SchedState.setPc,SchedState.setState,SchedState.setBlockLock,
      SchedState.setPrevious,SchedState.setStack,SchedState.threadDereference,
      SchedState.setRefCnt,Function.update_apply] <;>
    grind [SchedPc.hasReadyLock,resume_hasReadyLock]

omit [DecidableEq Cpu] [DecidableEq Thread] in
private theorem SchedInv.unlisted (h : SchedInv s) (hc : (s.pc c).isDispatching = false)
    (hcurrent : s.running c = s.currentThread c) : s.currentThread c ∉ s.readyThreadsList := by
  intro hmem
  rw [← hcurrent] at hmem
  have := (h.places.listed c hmem).1
  change (s.pc c).isDispatching = true at this
  rw [hc] at this
  cases this

private theorem SchedRun.ready (h : SchedInv s) (hrun : SchedRun s c s') :
    ∀ t, t ∈ s'.readyThreadsList → s'.state t = .ready ∧ s'.stage t = .started := by
  intro t ht
  rw [hrun.stage.1]
  rcases hrun.list_cases ht with hold | ⟨hready,⟨heq,hpc,hidle⟩ | hwakes⟩
  · obtain ⟨hready,hstarted⟩ := h.ready t hold
    refine ⟨?_,hstarted⟩
    rcases hrun.state_cases t with hsame | ⟨heq,hown⟩ | ⟨_,_,hwoken⟩
    · rw [hsame,hready]
    · rcases hown with ⟨_,hstate⟩ | ⟨hpc,_⟩ | ⟨hpc,_⟩
      · exact hstate
      all_goals
        rw [heq] at hold
        exact absurd hold (h.unlisted (by rw [hpc]; rfl) (by simp only [SchedState.running,hpc]; rfl))
    · exact hwoken
  · refine ⟨hready,?_⟩
    have hrunning : s.running c = t := by
      rw [heq]
      simp only [SchedState.running,hpc]
      rfl
    rcases h.runs c with hstage | hstage
    · rw [hrunning] at hstage
      obtain ⟨c',hidle'⟩ := (h.idle t).mp hstage
      have := (h.places.idle c' t hidle').2 c (Or.inl hrunning)
      rw [this] at hidle
      exact absurd hidle' hidle
    · rw [← hrunning]
      exact hstage
  · refine ⟨hready,h.unblocks c t ?_⟩
    cases hpc : s.pc c <;> rw [hpc] at hwakes <;> cases hwakes <;> rfl

theorem SchedRun.state_of_ne (hrun : SchedRun s c s') {t : Thread} (ht : s.running c ≠ t) :
    s'.state t = s.state t ∨ s'.state t = .ready := by
  rcases hrun.state_cases t with hsame | ⟨heq,hown⟩ | ⟨_,_,hready⟩
  · exact Or.inl hsame
  · rcases hown with ⟨_,hready⟩ | ⟨hpc,_⟩ | ⟨hpc,_⟩
    · exact Or.inr hready
    all_goals
      rw [SchedState.running,hpc,heq] at ht
      exact absurd rfl ht
  · exact Or.inr hready

private theorem SchedRun.chosen_cases (hrun : SchedRun s c s') {c' : Cpu} {t : Thread}
    (ht : s'.chosen c' = some t) :
    s.chosen c' = some t ∨ t ≠ s.running c ∧ (s.idleThread c = some t ∨ t ∈ s.readyThreadsList) := by
  by_cases hc : c' = c
  · rw [hc] at ht ⊢
    cases hrun with
    | @pickIdle next hpc hlist hidle hne =>
      right
      simp only [SchedState.chosen,SchedState.setPc,Function.update_self,SchedPc.picked,
        Option.some.injEq] at ht
      rw [← ht,SchedState.running,hpc]
      exact ⟨hne,Or.inl hidle⟩
    | @pick next rest hpc hlist hne =>
      right
      simp only [SchedState.chosen,SchedState.setPc,Function.update_self,SchedPc.picked,
        Option.some.injEq] at ht
      rw [← ht,SchedState.running,hpc,hlist]
      exact ⟨hne,Or.inr List.mem_cons_self⟩
    | @setCurrentThread next hpc =>
      left
      simpa [SchedState.chosen,SchedState.setPc,SchedPc.picked,hpc] using ht
    | @unblockRelease t' caller hpc =>
      cases caller <;>
        simp [SchedState.chosen,SchedState.setPc,SchedState.setBlockLock,SchedPc.picked,
          UnblockCaller.resume] at ht
    | _ =>
      simp [SchedState.chosen,SchedState.setPc,SchedState.setState,SchedState.setBlockLock,
        SchedState.setPrevious,SchedState.setStack,SchedState.threadDereference,
        SchedState.setRefCnt,SchedPc.picked] at ht
  · rw [(hrun.running_other hc).2] at ht
    exact Or.inl ht

private theorem SchedRun.chosen (h : SchedInv s) (hrun : SchedRun s c s') : ∀ c' t,
    s'.chosen c' = some t → s'.stage t = .idle ∨ s'.stage t = .started ∧ s'.state t = .ready := by
  intro c' t ht
  rw [hrun.stage.1]
  have keep : s.running c ≠ t → s.state t = .ready → s'.state t = .ready := by
    intro hne hready
    rcases hrun.state_of_ne hne with hsame | hsame
    · rw [hsame,hready]
    · exact hsame
  rcases hrun.chosen_cases ht with hold | ⟨hne,hidle | hlisted⟩
  · have hne : s.running c ≠ t := (h.places.chosen c' t hold).1 c
    exact (h.chosen c' t hold).imp id fun hlive => ⟨hlive.1,keep hne hlive.2⟩
  · exact Or.inl ((h.idle t).mpr ⟨c,hidle⟩)
  · obtain ⟨hready,hstarted⟩ := h.ready t hlisted
    exact Or.inr ⟨hstarted,keep (Ne.symm hne) hready⟩

theorem SchedRun.switch_cases (hrun : SchedRun s c s') :
    s'.running = s.running ∧ s'.stack = s.stack ∨ ∃ old, s.pc c = .threadSwitch old ∧
      s' = ((s.setPc c .releaseReady).setStack old .switched).setStack (s.currentThread c)
        .inUse := by
  have hsame : s'.running c = s.running c → s'.running = s.running := by
    intro heq
    funext c'
    by_cases hc : c' = c
    · rw [hc,heq]
    · exact (hrun.running_other hc).1
  cases hrun with
  | @threadSwitch old hpc => exact Or.inr ⟨old,hpc,rfl⟩
  | @setCurrentThread next hpc =>
    refine Or.inl ⟨hsame ?_,rfl⟩
    simp [SchedState.running,SchedState.setPc,hpc,SchedPc.executed]
  | @unblockRelease t' caller hpc =>
    refine Or.inl ⟨hsame ?_,rfl⟩
    cases caller <;>
      simp [SchedState.running,SchedState.setPc,SchedState.setBlockLock,SchedPc.executed,
        UnblockCaller.resume,hpc]
  | noPrevious hpc =>
    refine Or.inl ⟨hsame ?_,rfl⟩
    rcases hpc with hpc | hpc | hpc <;>
      simp [SchedState.running,SchedState.setPc,hpc,SchedPc.executed]
  | yieldLock hpc | yieldIdle hpc | yieldInsert hpc | forcedExit hpc | threadBlock hpc
  | blockState hpc | blockLock hpc | unblockLock hpc | unblockState hpc | unblockReadyLock hpc | unblockInsert hpc
  | unblockReleaseReady hpc | exitUnlock hpc | exitDying hpc | exitNotify hpc | schedule hpc
  | keepIdle hpc | pickIdle hpc | keep hpc | pick hpc | releaseReady hpc | releaseBlock hpc
  | inspectLock hpc | inspectDying hpc | inspectLive hpc | dereference hpc =>
    refine Or.inl ⟨hsame ?_,rfl⟩
    simp [SchedState.running,SchedState.setPc,SchedState.setState,SchedState.setBlockLock,
      SchedState.setPrevious,SchedState.threadDereference,SchedState.setRefCnt,hpc,
      SchedPc.executed]

theorem SchedRun.running_cases (hrun : SchedRun s c s') (c' : Cpu) :
    s'.running c' = s.running c' ∨
      c' = c ∧ s.chosen c = some (s'.running c) ∧ s'.pc c = .releaseReady := by
  rcases hrun.switch_cases with ⟨hsame,_⟩ | ⟨old,hpc,hs'⟩
  · exact Or.inl (congrFun hsame c')
  · by_cases hc : c' = c
    · right
      rw [hs']
      simp [SchedState.running,SchedState.chosen,SchedState.setStack,SchedState.setPc,hpc,hc,
        SchedPc.executed,SchedPc.picked]
    · exact Or.inl (hrun.running_other hc).1

private theorem SchedRun.runs (h : SchedInv s) (hrun : SchedRun s c s') :
    ∀ c', s'.stage (s'.running c') = .idle ∨ s'.stage (s'.running c') = .started := by
  intro c'
  rw [hrun.stage.1]
  rcases hrun.running_cases c' with hsame | ⟨hc,hchosen,_⟩
  · rw [hsame]
    exact h.runs c'
  · rw [hc]
    exact (h.chosen c _ hchosen).imp id And.left

private theorem SchedRun.blocked_other (h : SchedInv s) (hrun : SchedRun s c s') {c' : Cpu}
    (hc : c' ≠ c) (hblocked : s'.state (s'.running c') = .blocked)
    (hstarted : s.stage (s'.running c') = .started) :
    s'.blockLock (s'.running c') = some c' ∧ (s'.pc c').isBlocking = true := by
  rw [(hrun.running_other hc).1] at hblocked hstarted ⊢
  rw [(hrun.pc_other hc).1]
  have hne : s.running c ≠ s.running c' := fun heq => hc (h.places.running c c' heq).symm
  rcases hrun.state_of_ne hne with hsame | hready
  · rw [hsame] at hblocked
    obtain ⟨hown,hblocking⟩ := h.blocked c' hblocked hstarted
    exact ⟨hrun.blockLock_other h hc hown,hblocking⟩
  · rw [hready] at hblocked
    cases hblocked

omit [DecidableEq Cpu] [DecidableEq Thread] in
private theorem SchedInv.not_kept (h : SchedInv s) (hpc : s.pc c = .getReadyThread)
    (hstarted : s.stage (s.running c) = .started) (hstate : s.state (s.running c) ≠ .ready) :
    s.idleThread c ≠ some (s.currentThread c) ∧
      ∀ rest, s.readyThreadsList ≠ s.currentThread c :: rest := by
  have hcurrent : s.running c = s.currentThread c := by
    simp only [SchedState.running,hpc]
    rfl
  rw [hcurrent] at hstarted hstate
  refine ⟨?_,?_⟩
  · intro hidle
    rw [(h.idle _).mpr ⟨c,hidle⟩] at hstarted
    cases hstarted
  · intro rest hlist
    exact hstate (h.ready _ (by rw [hlist]; exact List.mem_cons_self)).1

omit [DecidableEq Cpu] [DecidableEq Thread] in
theorem SchedInv.switch_ne (h : SchedInv s) {old : Thread} (hpc : s.pc c = .threadSwitch old) :
    s.running c ≠ s.currentThread c := by
  have hchosen : s.chosen c = some (s.currentThread c) := by
    simp only [SchedState.chosen,hpc]
    rfl
  exact (h.places.chosen c _ hchosen).1 c

private theorem SchedRun.blocked_same (h : SchedInv s) (hrun : SchedRun s c s')
    (hsame : s'.running c = s.running c) (hblocked : s.state (s.running c) = .blocked)
    (hstarted : s.stage (s.running c) = .started) :
    s'.blockLock (s.running c) = some c ∧ (s'.pc c).isBlocking = true := by
  obtain ⟨hown,hblocking⟩ := h.blocked c hblocked hstarted
  have hstate : s.state (s.running c) ≠ .ready := by
    rw [hblocked]
    simp
  cases hrun with
  | blockLock hpc | schedule hpc | pickIdle hpc | pick hpc | setCurrentThread hpc =>
    refine ⟨hown,?_⟩
    simp [SchedState.setPc,SchedState.setPrevious,SchedPc.isBlocking]
  | keepIdle hpc hlist hidle => exact absurd hidle (h.not_kept hpc hstarted hstate).1
  | keep hpc hlist => exact absurd hlist ((h.not_kept hpc hstarted hstate).2 _)
  | @threadSwitch old hpc =>
    have hcurrent : s.currentThread c = s.running c := by
      simpa [SchedState.running,SchedState.setStack,SchedState.setPc,SchedPc.executed] using hsame
    exact absurd hcurrent.symm (h.switch_ne hpc)
  | yieldLock hpc | yieldIdle hpc | yieldInsert hpc | forcedExit hpc | threadBlock hpc
  | blockState hpc | unblockLock hpc | unblockState hpc | unblockReadyLock hpc | unblockInsert hpc
  | unblockReleaseReady hpc | unblockRelease hpc | exitUnlock hpc | exitDying hpc | exitNotify hpc
  | releaseReady hpc | releaseBlock hpc | inspectLock hpc | inspectDying hpc | inspectLive hpc
  | dereference hpc =>
    rw [hpc] at hblocking
    cases hblocking
  | noPrevious hpc =>
    rcases hpc with hpc | hpc | hpc <;> rw [hpc] at hblocking <;> cases hblocking

private theorem SchedRun.blocked (h : SchedInv s) (hrun : SchedRun s c s') :
    ∀ c', s'.state (s'.running c') = .blocked → s'.stage (s'.running c') = .started →
      s'.blockLock (s'.running c') = some c' ∧ (s'.pc c').isBlocking = true := by
  intro c' hblocked hstarted
  rw [hrun.stage.1] at hstarted
  by_cases hc : c' = c
  · rw [hc] at hblocked hstarted ⊢
    rcases hrun.running_cases c with hsame | ⟨_,hchosen,_⟩
    · rw [hsame] at hblocked hstarted ⊢
      rcases hrun.state_cases (s.running c) with hstate | ⟨heq,hown⟩ | ⟨_,_,hready⟩
      · rw [hstate] at hblocked
        exact hrun.blocked_same h hsame hblocked hstarted
      · rcases hown with ⟨_,hready⟩ | ⟨hpc,_,hnext,hlocks⟩ | ⟨_,hdying,_⟩
        · rw [hready] at hblocked
          cases hblocked
        · rw [heq,hlocks,hnext]
          exact ⟨h.took c (Or.inr hpc),rfl⟩
        · rw [hdying] at hblocked
          cases hblocked
      · rw [hready] at hblocked
        cases hblocked
    · rcases h.chosen c _ hchosen with hidle | ⟨_,hready⟩
      · rw [hidle] at hstarted
        cases hstarted
      · have hne : s.running c ≠ s'.running c := (h.places.chosen c _ hchosen).1 c
        rcases hrun.state_of_ne hne with hsame | hsame <;> rw [hsame] at hblocked
        · rw [hready] at hblocked
          cases hblocked
        · cases hblocked
  · exact hrun.blocked_other h hc hblocked hstarted

omit [DecidableEq Cpu] [DecidableEq Thread] in
theorem resume_isExiting (caller : UnblockCaller) :
    (caller.resume : SchedPc Thread).isExiting = caller.isExit := by
  cases caller <;> rfl

private theorem SchedRun.exiting_same (h : SchedInv s) (hrun : SchedRun s c s')
    (hsame : s'.running c = s.running c) (hdying : s.state (s.running c) = .dying) :
    (s'.pc c).isExiting = true := by
  have hexiting := h.exiting c hdying
  have hstarted := h.dying _ hdying
  have hstate : s.state (s.running c) ≠ .ready := by
    rw [hdying]
    simp
  cases hrun with
  | exitNotify hpc | schedule hpc | pickIdle hpc | pick hpc | setCurrentThread hpc =>
    simp [SchedState.setPc,SchedState.setPrevious,SchedPc.isExiting]
  | unblockLock hpc | unblockState hpc | unblockReadyLock hpc | unblockInsert hpc
  | unblockReleaseReady hpc =>
    rw [hpc] at hexiting
    simpa [SchedState.setPc,SchedState.setState,SchedState.setBlockLock,SchedPc.isExiting]
      using hexiting
  | unblockRelease hpc =>
    rw [hpc] at hexiting
    simp only [SchedState.setPc,SchedState.setBlockLock,Function.update_self,resume_isExiting]
    exact hexiting
  | keepIdle hpc hlist hidle => exact absurd hidle (h.not_kept hpc hstarted hstate).1
  | keep hpc hlist => exact absurd hlist ((h.not_kept hpc hstarted hstate).2 _)
  | @threadSwitch old hpc =>
    have hcurrent : s.currentThread c = s.running c := by
      simpa [SchedState.running,SchedState.setStack,SchedState.setPc,SchedPc.executed] using hsame
    exact absurd hcurrent.symm (h.switch_ne hpc)
  | yieldLock hpc | yieldIdle hpc | yieldInsert hpc | forcedExit hpc | threadBlock hpc
  | blockState hpc | blockLock hpc | exitUnlock hpc | exitDying hpc | releaseReady hpc | releaseBlock hpc
  | inspectLock hpc | inspectDying hpc | inspectLive hpc | dereference hpc =>
    rw [hpc] at hexiting
    cases hexiting
  | noPrevious hpc =>
    rcases hpc with hpc | hpc | hpc <;> rw [hpc] at hexiting <;> cases hexiting

private theorem SchedRun.exiting (h : SchedInv s) (hrun : SchedRun s c s') :
    ∀ c', s'.state (s'.running c') = .dying → (s'.pc c').isExiting = true := by
  intro c' hdying
  by_cases hc : c' = c
  · rw [hc] at hdying ⊢
    rcases hrun.running_cases c with hsame | ⟨_,hchosen,_⟩
    · rw [hsame] at hdying
      rcases hrun.state_cases (s.running c) with hstate | ⟨_,hown⟩ | ⟨_,_,hready⟩
      · rw [hstate] at hdying
        exact hrun.exiting_same h hsame hdying
      · rcases hown with ⟨_,hready⟩ | ⟨_,hblocked,_⟩ | ⟨_,_,hnext⟩
        · rw [hready] at hdying
          cases hdying
        · rw [hblocked] at hdying
          cases hdying
        · rw [hnext]
          rfl
      · rw [hready] at hdying
        cases hdying
    · have hne : s.running c ≠ s'.running c := (h.places.chosen c _ hchosen).1 c
      rcases hrun.state_of_ne hne with hsame | hsame <;> rw [hsame] at hdying
      · rcases h.chosen c _ hchosen with hidle | ⟨_,hready⟩
        · rw [h.dying _ hdying] at hidle
          cases hidle
        · rw [hready] at hdying
          cases hdying
      · cases hdying
  · rw [(hrun.running_other hc).1] at hdying
    rw [(hrun.pc_other hc).1]
    have hne : s.running c ≠ s.running c' := fun heq => hc (h.places.running c c' heq).symm
    rcases hrun.state_of_ne hne with hsame | hready
    · rw [hsame] at hdying
      exact h.exiting c' hdying
    · rw [hready] at hdying
      cases hdying

private theorem SchedRun.dying (h : SchedInv s) (hrun : SchedRun s c s') :
    ∀ t, s'.state t = .dying → s'.stage t = .started := by
  intro t hdying
  rw [hrun.stage.1]
  rcases hrun.state_cases t with hsame | ⟨heq,hown⟩ | ⟨_,_,hready⟩
  · rw [hsame] at hdying
    exact h.dying t hdying
  · rcases hown with ⟨_,hready⟩ | ⟨_,hblocked,_⟩ | ⟨hpc,_⟩
    · rw [hready] at hdying
      cases hdying
    · rw [hblocked] at hdying
      cases hdying
    · rw [heq]
      exact h.exits c (Or.inr hpc)
  · rw [hready] at hdying
    cases hdying

private theorem SchedRun.took (h : SchedInv s) (hrun : SchedRun s c s') :
    ∀ c', s'.pc c' = .tookBlockLock ∨ s'.pc c' = .blockState →
      s'.blockLock (s'.currentThread c') = some c' := by
  intro c' hpc'
  by_cases hc : c' = c
  · rw [hc] at hpc' ⊢
    cases hrun with
    | threadBlock _ hown => exact hown
    | @unblockRelease t caller =>
      cases caller <;>
        simp [SchedState.setPc,SchedState.setBlockLock,UnblockCaller.resume] at hpc'
    | _ =>
      simp [SchedState.setPc,SchedState.setState,SchedState.setBlockLock,SchedState.setPrevious,
        SchedState.setStack,SchedState.threadDereference,SchedState.setRefCnt] at hpc'
  · obtain ⟨hpc,hcurrent⟩ := hrun.pc_other hc
    rw [hpc] at hpc'
    rw [hcurrent]
    exact hrun.blockLock_other h hc (h.took c' hpc')

private theorem SchedRun.unblocks_cases (hrun : SchedRun s c s') {t : Thread}
    (ht : (s'.pc c).unblocks = some t) : (s.pc c).unblocks = some t := by
  cases hrun with
  | unblockLock hpc | unblockState hpc | unblockReadyLock hpc | unblockInsert hpc
  | unblockReleaseReady hpc =>
    rw [hpc]
    simpa [SchedState.setPc,SchedState.setState,SchedState.setBlockLock,SchedPc.unblocks] using ht
  | @unblockRelease t' caller hpc =>
    cases caller <;>
      simp [SchedState.setPc,SchedState.setBlockLock,UnblockCaller.resume,SchedPc.unblocks] at ht
  | _ =>
    simp [SchedState.setPc,SchedState.setState,SchedState.setBlockLock,SchedState.setPrevious,
      SchedState.setStack,SchedState.threadDereference,SchedState.setRefCnt,SchedPc.unblocks] at ht

private theorem SchedRun.unblocks (h : SchedInv s) (hrun : SchedRun s c s') :
    ∀ c' t, (s'.pc c').unblocks = some t → s'.stage t = .started := by
  intro c' t ht
  rw [hrun.stage.1]
  by_cases hc : c' = c
  · rw [hc] at ht
    exact h.unblocks c t (hrun.unblocks_cases ht)
  · rw [(hrun.pc_other hc).1] at ht
    exact h.unblocks c' t ht

private theorem SchedRun.locks (h : SchedInv s) (hrun : SchedRun s c s') :
    ∀ c' t, (s'.pc c').locks = some t → s'.blockLock t = some c' := by
  intro c' t ht
  by_cases hc : c' = c
  · rw [hc] at ht ⊢
    have old := h.locks c t
    cases hrun with
    | @unblockLock t' caller hpc =>
      have heq : t' = t := by
        simpa [SchedState.setPc,SchedState.setBlockLock,SchedPc.locks] using ht
      simp [SchedState.setBlockLock,heq]
    | unblockState hpc | unblockReadyLock hpc | unblockInsert hpc | unblockReleaseReady hpc =>
      apply old
      rw [hpc]
      simpa [SchedState.setPc,SchedState.setState,SchedPc.locks] using ht
    | @unblockRelease t' caller hpc =>
      cases caller <;>
        simp [SchedState.setPc,SchedState.setBlockLock,UnblockCaller.resume,SchedPc.locks] at ht
    | _ =>
      simp [SchedState.setPc,SchedState.setState,SchedState.setBlockLock,SchedState.setPrevious,
        SchedState.setStack,SchedState.threadDereference,SchedState.setRefCnt,SchedPc.locks] at ht
  · rw [(hrun.pc_other hc).1] at ht
    exact hrun.blockLock_other h hc (h.locks c' t ht)

omit [DecidableEq Cpu] [DecidableEq Thread] in
theorem SchedPc.locks_of_wakes {pc : SchedPc Thread} {t : Thread} (ht : pc.wakes = some t) :
    pc.locks = some t := by
  cases pc <;> cases ht <;> rfl

private theorem SchedRun.wakes (h : SchedInv s) (hrun : SchedRun s c s') :
    ∀ c' t, (s'.pc c').wakes = some t → s'.state t = .blocked := by
  intro c' t ht
  by_cases hc : c' = c
  · rw [hc] at ht
    cases hrun with
    | @unblockState t' caller hpc hblocked =>
      have heq : t' = t := by simpa [SchedState.setPc,SchedPc.wakes] using ht
      rw [← heq]
      exact hblocked
    | unblockReadyLock hpc =>
      apply h.wakes c t
      rw [hpc]
      simpa [SchedState.setPc,SchedPc.wakes] using ht
    | @unblockRelease t' caller hpc =>
      cases caller <;>
        simp [SchedState.setPc,SchedState.setBlockLock,UnblockCaller.resume,SchedPc.wakes] at ht
    | _ =>
      simp [SchedState.setPc,SchedState.setState,SchedState.setBlockLock,SchedState.setPrevious,
        SchedState.setStack,SchedState.threadDereference,SchedState.setRefCnt,SchedPc.wakes] at ht
  · rw [(hrun.pc_other hc).1] at ht
    have hblocked := h.wakes c' t ht
    have hown := h.locks c' t (SchedPc.locks_of_wakes ht)
    rcases hrun.state_cases t with hsame | ⟨heq,hpc⟩ | ⟨caller,hpc,_⟩
    · rw [hsame,hblocked]
    · have hrunning : s.running c = t := by
        rw [heq]
        rcases hpc with ⟨hpc,_⟩ | ⟨hpc,_⟩ | ⟨hpc,_⟩ <;> simp only [SchedState.running,hpc] <;> rfl
      exact absurd hrunning ((h.woken_off ht).running c)
    · have hown' := h.locks c t (by rw [hpc]; rfl)
      rw [hown,Option.some.injEq] at hown'
      exact absurd hown' hc

private theorem SchedRun.exits (h : SchedInv s) (hrun : SchedRun s c s') :
    ∀ c', s'.pc c' = .exitUnlock ∨ s'.pc c' = .exitDying →
      s'.stage (s'.currentThread c') = .started := by
  intro c' hpc'
  rw [hrun.stage.1]
  by_cases hc : c' = c
  · rw [hc] at hpc' ⊢
    cases hrun with
    | forcedExit hpc hown hflag => exact h.flag _ hflag
    | exitUnlock hpc => exact h.exits c (Or.inl hpc)
    | @unblockRelease t' caller hpc =>
      cases caller <;>
        simp [SchedState.setPc,SchedState.setBlockLock,UnblockCaller.resume] at hpc'
    | _ =>
      simp [SchedState.setPc,SchedState.setState,SchedState.setBlockLock,SchedState.setPrevious,
        SchedState.setStack,SchedState.threadDereference,SchedState.setRefCnt] at hpc'
  · obtain ⟨hpc,hcurrent⟩ := hrun.pc_other hc
    rw [hpc] at hpc'
    rw [hcurrent]
    exact h.exits c' hpc'

private theorem SchedRun.stack (h : SchedInv s) (hrun : SchedRun s c s') (t : Thread) :
    s'.stack t = s.stack t ∧ (∀ c', s'.running c' = t ↔ s.running c' = t) ∨
      s'.stack t = .switched ∧ s.running c = t ∧ (∀ c', s'.running c' ≠ t) ∨
      s'.stack t = .inUse ∧ s.chosen c = some t ∧ s'.running c = t := by
  rcases hrun.switch_cases with ⟨hrunning,hstack⟩ | ⟨old,hpc,hs'⟩
  · left
    rw [hrunning,hstack]
    exact ⟨rfl,fun _ => Iff.rfl⟩
  · have hold : s.running c = old := by
      simp only [SchedState.running,hpc]
      rfl
    have hchosen : s.chosen c = some (s.currentThread c) := by
      simp only [SchedState.chosen,hpc]
      rfl
    have hne : old ≠ s.currentThread c := by
      rw [← hold]
      exact h.switch_ne hpc
    have hrunning : s'.running = Function.update s.running c (s.currentThread c) := by
      rw [hs']
      exact running_setPc (s := s) .releaseReady
    by_cases hcurrent : t = s.currentThread c
    · right
      right
      rw [hcurrent,hrunning,hs',Function.update_self]
      exact ⟨by simp [SchedState.setStack],hchosen,rfl⟩
    · by_cases ht : t = old
      · right
        left
        refine ⟨by simp [hs',SchedState.setStack,ht,hne],by rw [ht,hold],?_⟩
        intro c'
        rw [hrunning]
        by_cases hc : c' = c
        · rw [hc,Function.update_self]
          exact Ne.symm hcurrent
        · rw [Function.update_of_ne hc,ht,← hold]
          intro heq
          exact hc (h.places.running c' c heq)
      · left
        refine ⟨by simp [hs',SchedState.setStack,SchedState.setPc,ht,hcurrent],?_⟩
        intro c'
        rw [hrunning]
        by_cases hc : c' = c
        · rw [hc,Function.update_self,hold]
          exact iff_of_false (Ne.symm hcurrent) (Ne.symm ht)
        · rw [Function.update_of_ne hc]

private theorem SchedRun.unset (h : SchedInv s) (hrun : SchedRun s c s') :
    ∀ t, s'.stack t = .unset ↔ s'.stage t = .absent ∨ s'.stage t = .initialized := by
  intro t
  rw [hrun.stage.1]
  rcases hrun.stack h t with ⟨hsame,_⟩ | ⟨hswitched,hrunning,_⟩ | ⟨hinUse,hchosen,_⟩
  · rw [hsame]
    exact h.unset t
  · have := h.runs c
    grind
  · have := h.chosen c t hchosen
    grind

private theorem SchedRun.inUse (h : SchedInv s) (hrun : SchedRun s c s') :
    ∀ t, s'.stack t = .inUse ↔ ∃ c', s'.running c' = t := by
  intro t
  rcases hrun.stack h t with ⟨hsame,hrunning⟩ | ⟨hswitched,_,hrunning⟩ | ⟨hinUse,_,hrunning⟩
  · rw [hsame,h.inUse t]
    exact exists_congr fun c' => (hrunning c').symm
  · rw [hswitched]
    exact iff_of_false (by simp) fun ⟨c',hc'⟩ => hrunning c' hc'
  · exact iff_of_true hinUse ⟨c,hrunning⟩

theorem SchedInv.run (h : SchedInv s) (hrun : SchedRun s c s') : SchedInv s' where
  places := by
    rcases hrun.places h with hsame | hstep
    · rw [hsame]
      exact h.places
    · exact h.places.step hstep
  lock := hrun.lock h
  ready := hrun.ready h
  idle := by
    rw [hrun.stage.1,hrun.stage.2.1]
    exact h.idle
  chosen := hrun.chosen h
  runs := hrun.runs h
  blocked := hrun.blocked h
  exiting := hrun.exiting h
  dying := hrun.dying h
  took := hrun.took h
  unblocks := hrun.unblocks h
  locks := hrun.locks h
  wakes := hrun.wakes h
  exits := hrun.exits h
  flag := by
    rw [hrun.stage.1,hrun.stage.2.2]
    exact h.flag
  unset := hrun.unset h
  inUse := hrun.inUse h

end Hal9000
