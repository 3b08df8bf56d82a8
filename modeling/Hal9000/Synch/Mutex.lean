import Hal9000.Framework.HandOff
import Hal9000.Synch.Waits

/-!
# Mutexes

`MutexAcquire` and `MutexRelease` are a lock that is handed over. Every step of a thread is a
step of the lock or leaves it alone, as long as no thread is forced to exit while it waits.
-/

namespace Hal9000

open WaitQueue HandOff

variable {Thread Event Mutex : Type} [DecidableEq Mutex]

/-- The mutex whose acquisition or release the thread is in. -/
def SynchPc.mutex : SynchPc Thread Event Mutex → Option Mutex
  | .acquireEntry m | .acquireLock m | .acquireTake m | .acquireLoop m | .acquireAgain m
  | .acquireDone m | .insertWait (.mutex m) | .takeBlockLock (.mutex m) | .unlockWait (.mutex m)
  | .threadBlock (.mutex m) | .blockState (.mutex m) | .schedule (.mutex m) | .blocked (.mutex m)
  | .releaseEntry m | .releaseLock m | .releasePop m => some m
  | _ => none

/-- How far the thread is with the mutex it acquires or releases. -/
def SynchPc.mutexStage : SynchPc Thread Event Mutex → Stage
  | .acquireLock _ | .acquireTake _ => .seeking
  | .acquireLoop _ => .deciding
  | .insertWait _ => .queueing
  | .takeBlockLock _ | .unlockWait _ | .threadBlock _ | .blockState _ | .schedule _ | .blocked _ =>
    .waiting
  | .acquireAgain _ | .acquireDone _ => .granted
  | .releaseLock _ | .releasePop _ => .releasing
  | _ => .outside

def SynchPc.stage (m : Mutex) (pc : SynchPc Thread Event Mutex) : Stage :=
  if pc.mutex = some m then pc.mutexStage else .outside

def SynchState.handOff (s : SynchState Thread Event Mutex) (m : Mutex) : HandOff.State Thread where
  stage t := (s.pc t).stage m
  holder := s.holder m
  depth := s.currentRecursivityDepth m
  queue := s.waitingList (.mutex m)

variable [DecidableEq Thread]

/-- What a step of a thread completes: `MutexAcquire` returns, `MutexRelease` gives one
acquisition back, a thread is put on the waiting list or made the holder. -/
def mutexEvents (m : Mutex) (s : SynchState Thread Event Mutex) :
    SynchAction Thread Event Mutex → List (HandOff.Event Thread)
  | .run t =>
    match s.pc t with
    | .acquireEntry m' => if m' = m ∧ s.holder m = some t then [.acquired t] else []
    | .acquireDone m' => if m' = m then [.acquired t] else []
    | .insertWait (.mutex m') => if m' = m then [.queued t] else []
    | .releaseEntry m' =>
      if m' = m ∧ 1 < s.currentRecursivityDepth m then [.released t] else []
    | .releasePop m' =>
      if m' = m then
        match s.waitingList (.mutex m) with
        | [] => [.released t]
        | t' :: _ => [.released t,.handed t']
      else []
    | _ => []
  | _ => []

variable [DecidableEq Event] {objects : SynchObjects Thread Event Mutex}
  {s s' : SynchState Thread Event Mutex} {t : Thread} {m : Mutex}

omit [DecidableEq Event] in
private theorem handOff_setPc (pc : SynchPc Thread Event Mutex) :
    (s.setPc t pc).handOff m = (s.handOff m).setStage t (pc.stage m) := by
  have : (fun u => (Function.update s.pc t pc u).stage m) =
      Function.update (fun u => (s.pc u).stage m) t (pc.stage m) := by
    funext u
    by_cases hu : u = t
    · simp [hu]
    · simp [hu]
  simp only [SynchState.handOff,SynchState.setPc,HandOff.State.setStage,this]

omit [DecidableEq Event] in
private theorem handOff_stay {pc : SynchPc Thread Event Mutex}
    (hstage : pc.stage m = (s.pc t).stage m) : (s.setPc t pc).handOff m = s.handOff m := by
  rw [handOff_setPc,hstage]
  have : Function.update (s.handOff m).stage t ((s.pc t).stage m) = (s.handOff m).stage :=
    Function.update_eq_self t (s.handOff m).stage
  simp only [HandOff.State.setStage,this]

omit [DecidableEq Thread] [DecidableEq Event] in
private theorem handOff_setHolder (m' : Mutex) (holder : Option Thread) :
    (s.setHolder m' holder).handOff m =
      if m' = m then { s.handOff m with holder := holder } else s.handOff m := by
  by_cases hm : m' = m
  · simp [SynchState.handOff,SynchState.setHolder,hm]
  · simp [SynchState.handOff,SynchState.setHolder,hm,Ne.symm hm]

omit [DecidableEq Thread] [DecidableEq Event] in
private theorem handOff_setDepth (m' : Mutex) (depth : Nat) :
    (s.setDepth m' depth).handOff m =
      if m' = m then { s.handOff m with depth := depth } else s.handOff m := by
  by_cases hm : m' = m
  · simp [SynchState.handOff,SynchState.setDepth,hm]
  · simp [SynchState.handOff,SynchState.setDepth,hm,Ne.symm hm]

omit [DecidableEq Thread] in
private theorem handOff_setWaitingList (w : Waitable Event Mutex) (list : List Thread) :
    (s.setWaitingList w list).handOff m =
      if w = .mutex m then { s.handOff m with queue := list } else s.handOff m := by
  by_cases hw : w = .mutex m
  · simp [SynchState.handOff,SynchState.setWaitingList,hw]
  · simp [SynchState.handOff,SynchState.setWaitingList,hw,Ne.symm hw]

omit [DecidableEq Thread] [DecidableEq Event] in
private theorem lock_of_stage {pc : SynchPc Thread Event Mutex}
    (h : pc.stage m = .deciding ∨ pc.stage m = .queueing) :
    pc.place.lock = some (.mutex m) := by
  have hm : pc.mutex = some m := by
    by_contra hm
    simp [SynchPc.stage,hm] at h
  simp only [SynchPc.stage,hm,if_true] at h
  cases pc with
  | acquireLoop m' =>
    rw [show m' = m from Option.some.inj hm]
    rfl
  | insertWait w =>
    cases w with
    | mutex m' =>
      rw [show m' = m from Option.some.inj hm]
      rfl
    | event => cases hm
  | _ => simp [SynchPc.mutexStage] at h

omit [DecidableEq Thread] [DecidableEq Event] in
private theorem alone_of_release (h : WaitQueue.Invariant s.waits) (hpc : s.pc t = .releasePop m) :
    ∀ u, (s.handOff m).stage u ≠ .deciding ∧ (s.handOff m).stage u ≠ .queueing := by
  have hown : s.lock (.mutex m) = some t :=
    (h.lock _ t).mpr (congrArg (fun pc => pc.place.lock) hpc)
  have halone : ∀ u, ¬ ((s.pc u).stage m = .deciding ∨ (s.pc u).stage m = .queueing) := by
    intro u hu
    have hown' : s.lock (.mutex m) = some u := (h.lock _ u).mpr (lock_of_stage hu)
    rw [hown,Option.some.injEq] at hown'
    rw [← hown',hpc] at hu
    simp [SynchPc.stage,SynchPc.mutex,SynchPc.mutexStage] at hu
  intro u
  exact not_or.mp (halone u)

private theorem SynchRun.handOff_elsewhere (hm : (s.pc t).mutex ≠ some m)
    (hrun : SynchRun objects s t s') :
    s'.handOff m = s.handOff m ∧ mutexEvents m s (.run t) = [] := by
  have stay : ∀ (next : SynchPc Thread Event Mutex), next.mutex = none ∨
      next.mutex = (s.pc t).mutex → (s.setPc t next).handOff m = s.handOff m := by
    intro next hnext
    have hnot : next.mutex ≠ some m := by
      rcases hnext with hnone | hsame
      · rw [hnone]
        simp
      · rw [hsame]
        exact hm
    apply handOff_stay
    rw [SynchPc.stage,if_neg hnot,SynchPc.stage,if_neg hm]
  have other : ∀ m', (s.pc t).mutex = some m' → m' ≠ m := by
    intro m' hpc heq
    rw [hpc,heq] at hm
    exact hm rfl
  cases hrun with
  | testSignaled hpc | testClear hpc | waitLock hpc | clearSignal hpc | signalLock hpc | signalSet hpc
  | signalDone hpc | unblockLock hpc | unblockReady hpc | exitUnlock hpc | exitDying hpc
  | exitSchedule hpc | forcedExit hpc | yieldState hpc =>
    refine ⟨?_,by simp [mutexEvents,hpc]⟩
    exact stay _ (Or.inl rfl)
  | signalPop hpc =>
    refine ⟨?_,by simp [mutexEvents,hpc]⟩
    rw [handOff_setWaitingList,if_neg (by simp)]
    exact stay _ (Or.inl rfl)
  | @unblockUnlock w t' caller hpc =>
    refine ⟨?_,by simp [mutexEvents,hpc]⟩
    apply stay _ (Or.inl ?_)
    cases w with
    | event e => cases htype : objects.eventType e <;> simp [afterUnblock,htype,SynchPc.mutex]
    | mutex => rfl
  | @unlockObject w caller hpc =>
    refine ⟨?_,by simp [mutexEvents,hpc]⟩
    apply stay _ (Or.inl ?_)
    cases caller <;> rfl
  | @takeBlockLock w hpc | @unlockWait w hpc | @threadBlock w hpc | @blockState w hpc
  | @schedule w hpc =>
    refine ⟨?_,by simp [mutexEvents,hpc]⟩
    apply stay _ (Or.inr ?_)
    rw [hpc]
    cases w <;> rfl
  | @resume w hpc =>
    refine ⟨?_,by simp [mutexEvents,hpc]⟩
    cases w with
    | event e =>
      apply stay _ (Or.inl ?_)
      cases htype : objects.eventType e <;> simp [afterBlock,htype,SynchPc.mutex]
    | mutex => exact stay _ (Or.inr (by rw [hpc]; rfl))
  | @insertWait w hpc =>
    have hw : w ≠ .mutex m := by
      intro hw
      rw [hpc,hw] at hm
      exact hm rfl
    rw [handOff_setWaitingList,if_neg hw]
    cases w with
    | event e => exact ⟨stay _ (Or.inl rfl),by simp [mutexEvents,hpc]⟩
    | mutex m' =>
      refine ⟨stay _ (Or.inr (by rw [hpc]; rfl)),?_⟩
      simpa [mutexEvents,hpc] using hw
  | @acquireLock m' hpc | @takeHeld m' hpc | @loopDone m' hpc | @loopWait m' hpc
  | @acquireAgain m' hpc | @releaseLock m' hpc =>
    refine ⟨?_,?_⟩
    · exact stay _ (Or.inr (by rw [hpc]; rfl))
    · simp [mutexEvents,hpc]
  | @acquireNested m' hpc | @releaseNested m' hpc =>
    have hne := other m' (by rw [hpc]; rfl)
    rw [handOff_setDepth,if_neg hne]
    exact ⟨stay _ (Or.inl rfl),by simp [mutexEvents,hpc,hne]⟩
  | @acquireEntry m' hpc | @releaseEntry m' hpc =>
    have hne := other m' (by rw [hpc]; rfl)
    exact ⟨stay _ (Or.inr (by rw [hpc]; rfl)),by simp [mutexEvents,hpc,hne]⟩
  | @takeFree m' hpc =>
    have hne := other m' (by rw [hpc]; rfl)
    rw [handOff_setDepth,if_neg hne,handOff_setHolder,if_neg hne]
    exact ⟨stay _ (Or.inr (by rw [hpc]; rfl)),by simp [mutexEvents,hpc]⟩
  | @acquireDone m' hpc =>
    have hne := other m' (by rw [hpc]; rfl)
    exact ⟨stay _ (Or.inl rfl),by simp [mutexEvents,hpc,hne]⟩
  | @releaseFree m' hpc =>
    have hne := other m' (by rw [hpc]; rfl)
    rw [handOff_setHolder,if_neg hne]
    exact ⟨stay _ (Or.inl rfl),by simp [mutexEvents,hpc,hne]⟩
  | @releaseHand m' t' rest hpc =>
    have hne := other m' (by rw [hpc]; rfl)
    rw [handOff_setDepth,if_neg hne,handOff_setHolder,if_neg hne,handOff_setWaitingList,
      if_neg (by simpa using hne)]
    exact ⟨stay _ (Or.inl rfl),by simp [mutexEvents,hpc,hne]⟩

omit [DecidableEq Thread] [DecidableEq Event] in
private theorem stage_of_pc {pc : SynchPc Thread Event Mutex} (hpc : s.pc t = pc)
    (hm : pc.mutex = some m) : (s.handOff m).stage t = pc.mutexStage := by
  change (s.pc t).stage m = pc.mutexStage
  rw [hpc,SynchPc.stage,if_pos hm]

omit [DecidableEq Event] in
private theorem handOff_next (pc : SynchPc Thread Event Mutex) (hm : pc.mutex = some m) :
    (s.setPc t pc).handOff m = (s.handOff m).setStage t pc.mutexStage := by
  rw [handOff_setPc,SynchPc.stage,if_pos hm]

omit [DecidableEq Event] in
private theorem handOff_move {pc : SynchPc Thread Event Mutex} {events : List (HandOff.Event Thread)}
    (hm : pc.mutex = some m) (hevents : mutexEvents m s (.run t) = events)
    (hstep : HandOff.Step (s.handOff m) events ((s.handOff m).setStage t pc.mutexStage)) :
    HandOff.Step (s.handOff m) (mutexEvents m s (.run t)) ((s.setPc t pc).handOff m) := by
  rw [hevents,handOff_next pc hm]
  exact hstep

omit [DecidableEq Event] in
private theorem handOff_nest (hpc : s.pc t = .acquireEntry m) (hholder : s.holder m = some t) :
    HandOff.Step (s.handOff m) (mutexEvents m s (.run t))
      (((s.setPc t .outside).setDepth m (s.currentRecursivityDepth m + 1)).handOff m) := by
  have hevents : mutexEvents m s (.run t) = [.acquired t] := by simp [mutexEvents,hpc,hholder]
  rw [hevents,handOff_setDepth,if_pos rfl,
    handOff_stay (by simp [hpc,SynchPc.stage,SynchPc.mutexStage])]
  exact .nest (stage_of_pc hpc rfl) hholder

omit [DecidableEq Event] in
private theorem handOff_take (hpc : s.pc t = .acquireTake m) (hholder : s.holder m = none) :
    HandOff.Step (s.handOff m) (mutexEvents m s (.run t))
      ((((s.setPc t (.acquireLoop m)).setHolder m (some t)).setDepth m 1).handOff m) := by
  have hevents : mutexEvents m s (.run t) = [] := by simp [mutexEvents,hpc]
  rw [hevents,handOff_setDepth,if_pos rfl,handOff_setHolder,if_pos rfl,
    handOff_next (.acquireLoop m) rfl]
  exact .take (stage_of_pc hpc rfl) hholder

omit [DecidableEq Event] in
private theorem handOff_finish (hpc : s.pc t = .acquireDone m) :
    HandOff.Step (s.handOff m) (mutexEvents m s (.run t)) ((s.setPc t .outside).handOff m) := by
  have hevents : mutexEvents m s (.run t) = [.acquired t] := by simp [mutexEvents,hpc]
  rw [hevents,handOff_setPc]
  exact .finish (stage_of_pc hpc rfl)

private theorem handOff_enqueue (hpc : s.pc t = .insertWait (.mutex m)) :
    HandOff.Step (s.handOff m) (mutexEvents m s (.run t))
      (((s.setPc t (.takeBlockLock (.mutex m))).setWaitingList (.mutex m)
        (s.waitingList (.mutex m) ++ [t])).handOff m) := by
  have hevents : mutexEvents m s (.run t) = [.queued t] := by simp [mutexEvents,hpc]
  rw [hevents,handOff_setWaitingList,if_pos rfl,handOff_next (.takeBlockLock (.mutex m)) rfl]
  exact .enqueue (stage_of_pc hpc rfl)

omit [DecidableEq Event] in
private theorem handOff_wake (h : WaitQueue.Invariant s.waits) (hpc : s.pc t = .blocked (.mutex m))
    (hready : s.state t = .ready) : HandOff.Step (s.handOff m) (mutexEvents m s (.run t))
      ((s.setPc t (afterBlock objects (.mutex m))).handOff m) := by
  -- a thread that is ready again has been taken off every waiting list
  have hunqueued := (h.awake t (.mutex m) (congrArg SynchPc.place hpc)
    (by simp [SynchState.waits,hready])).1 (.mutex m)
  exact handOff_move rfl (by simp [mutexEvents,hpc]) (.wake (stage_of_pc hpc rfl) hunqueued)

omit [DecidableEq Event] in
private theorem handOff_unnest (hpc : s.pc t = .releaseEntry m) (hholder : s.holder m = some t)
    (hdepth : 1 < s.currentRecursivityDepth m) :
    HandOff.Step (s.handOff m) (mutexEvents m s (.run t))
      (((s.setPc t .outside).setDepth m (s.currentRecursivityDepth m - 1)).handOff m) := by
  have hevents : mutexEvents m s (.run t) = [.released t] := by simp [mutexEvents,hpc,hdepth]
  rw [hevents,handOff_setDepth,if_pos rfl,
    handOff_stay (by simp [hpc,SynchPc.stage,SynchPc.mutexStage])]
  exact .unnest (stage_of_pc hpc rfl) hholder hdepth

omit [DecidableEq Event] in
private theorem handOff_free (h : WaitQueue.Invariant s.waits) (hpc : s.pc t = .releasePop m)
    (hlist : s.waitingList (.mutex m) = []) : HandOff.Step (s.handOff m)
      (mutexEvents m s (.run t))
      (((s.setPc t (.unlockObject (.mutex m) .thread)).setHolder m none).handOff m) := by
  have hevents : mutexEvents m s (.run t) = [.released t] := by simp [mutexEvents,hpc,hlist]
  rw [hevents,handOff_setHolder,if_pos rfl,handOff_setPc]
  exact .free (stage_of_pc hpc rfl) hlist (alone_of_release h hpc)

private theorem handOff_hand {t' : Thread} {rest : List Thread} (hpc : s.pc t = .releasePop m)
    (hlist : s.waitingList (.mutex m) = t' :: rest) :
    HandOff.Step (s.handOff m) (mutexEvents m s (.run t))
      (((((s.setPc t (.unblockLock (.mutex m) t' .thread)).setWaitingList (.mutex m)
        rest).setHolder m (some t')).setDepth m 1).handOff m) := by
  have hevents : mutexEvents m s (.run t) = [.released t,.handed t'] := by
    simp [mutexEvents,hpc,hlist]
  rw [hevents,handOff_setDepth,if_pos rfl,handOff_setHolder,if_pos rfl,handOff_setWaitingList,
    if_pos rfl,handOff_setPc]
  exact .hand (stage_of_pc hpc rfl) hlist

private theorem SynchRun.handOff_here (h : WaitQueue.Invariant s.waits)
    (hflag : FindsNoFlag s t (s.pc t)) (hm : (s.pc t).mutex = some m)
    (hrun : SynchRun objects s t s') :
    s'.handOff m = s.handOff m ∧ mutexEvents m s (.run t) = [] ∨
      HandOff.Step (s.handOff m) (mutexEvents m s (.run t)) (s'.handOff m) := by
  have stay : ∀ pc : SynchPc Thread Event Mutex, pc.mutex = some m →
      pc.mutexStage = (s.pc t).mutexStage → (s.setPc t pc).handOff m = s.handOff m := by
    intro pc hpc hsame
    apply handOff_stay
    rw [SynchPc.stage,if_pos hpc,SynchPc.stage,if_pos hm,hsame]
  have only : ∀ m', (s.pc t).mutex = some m' → m = m' := by
    intro m' hpc
    rw [hm] at hpc
    exact Option.some.inj hpc
  cases hrun with
  | @acquireNested m' hpc hholder =>
    obtain rfl := only m' (by rw [hpc]; rfl)
    exact Or.inr (handOff_nest hpc hholder)
  | @acquireEntry m' hpc hholder =>
    obtain rfl := only m' (by rw [hpc]; rfl)
    exact Or.inr (handOff_move rfl (by simp [mutexEvents,hpc,hholder])
      (.seek (stage_of_pc hpc rfl) hholder))
  | @takeFree m' hpc hholder =>
    obtain rfl := only m' (by rw [hpc]; rfl)
    exact Or.inr (handOff_take hpc hholder)
  | @takeHeld m' hpc hholder =>
    obtain rfl := only m' (by rw [hpc]; rfl)
    exact Or.inr (handOff_move rfl (by simp [mutexEvents,hpc])
      (.meet (stage_of_pc hpc rfl) hholder))
  | @loopDone m' hpc hholder =>
    obtain rfl := only m' (by rw [hpc]; rfl)
    exact Or.inr (handOff_move rfl (by simp [mutexEvents,hpc])
      (.grant (stage_of_pc hpc rfl) hholder))
  | @loopWait m' hpc hholder =>
    obtain rfl := only m' (by rw [hpc]; rfl)
    exact Or.inr (handOff_move rfl (by simp [mutexEvents,hpc])
      (.refuse (stage_of_pc hpc rfl) hholder))
  | @acquireAgain m' hpc =>
    obtain rfl := only m' (by rw [hpc]; rfl)
    exact Or.inr (handOff_move rfl (by simp [mutexEvents,hpc]) (.lookAgain (stage_of_pc hpc rfl)))
  | @acquireDone m' hpc =>
    obtain rfl := only m' (by rw [hpc]; rfl)
    exact Or.inr (handOff_finish hpc)
  | @insertWait w hpc =>
    rw [hpc] at hm
    cases w with
    | event => cases hm
    | mutex m' =>
      obtain rfl := Option.some.inj hm
      exact Or.inr (handOff_enqueue hpc)
  | @acquireLock m' hpc | @releaseLock m' hpc =>
    exact Or.inl ⟨stay _ (by rw [← hm,hpc]; rfl) (by rw [hpc]; rfl),by simp [mutexEvents,hpc]⟩
  | @takeBlockLock w hpc | @unlockWait w hpc | @threadBlock w hpc | @blockState w hpc
  | @schedule w hpc =>
    left
    refine ⟨?_,by simp [mutexEvents,hpc]⟩
    rw [hpc] at stay hm
    cases w <;> exact stay _ hm rfl
  | forcedExit hpc hpending =>
    rw [hpc] at hflag
    rw [show s.forceTerminatePending t = false from hflag] at hpending
    cases hpending
  | @resume w hpc hready =>
    rw [hpc] at hm
    cases w with
    | event => cases hm
    | mutex m' =>
      obtain rfl := Option.some.inj hm
      exact Or.inr (handOff_wake h hpc hready)
  | @releaseNested m' hpc hholder hdepth =>
    obtain rfl := only m' (by rw [hpc]; rfl)
    exact Or.inr (handOff_unnest hpc hholder hdepth)
  | @releaseEntry m' hpc hholder hdepth =>
    obtain rfl := only m' (by rw [hpc]; rfl)
    exact Or.inr (handOff_move rfl (by simp [mutexEvents,hpc,Nat.not_lt.mpr hdepth])
      (.release (stage_of_pc hpc rfl) hholder hdepth))
  | @releaseFree m' hpc hlist =>
    obtain rfl := only m' (by rw [hpc]; rfl)
    exact Or.inr (handOff_free h hpc hlist)
  | @releaseHand m' t' rest hpc hlist =>
    obtain rfl := only m' (by rw [hpc]; rfl)
    exact Or.inr (handOff_hand hpc hlist)
  | testSignaled hpc | testClear hpc | waitLock hpc | clearSignal hpc | signalLock hpc | signalSet hpc
  | signalDone hpc | signalPop hpc | unblockLock hpc | unblockReady hpc | unblockUnlock hpc
  | unlockObject hpc | exitUnlock hpc | exitDying hpc | exitSchedule hpc | yieldState hpc =>
    rw [hpc] at hm
    cases hm

theorem SynchRun.handOff (h : WaitQueue.Invariant s.waits) (hflag : FindsNoFlag s t (s.pc t))
    (hrun : SynchRun objects s t s') :
    s'.handOff m = s.handOff m ∧ mutexEvents m s (.run t) = [] ∨
      HandOff.Step (s.handOff m) (mutexEvents m s (.run t)) (s'.handOff m) := by
  by_cases hm : (s.pc t).mutex = some m
  · exact hrun.handOff_here h hflag hm
  · exact Or.inl (hrun.handOff_elsewhere hm)

omit [DecidableEq Event] in
private theorem SynchEnter.handOff (henter : SynchEnter s s') : s'.handOff m = s.handOff m := by
  cases henter with
  | call call hpc =>
    apply handOff_stay
    rw [hpc]
    cases call <;> simp [SynchCall.entry,SynchPc.stage,SynchPc.mutex,SynchPc.mutexStage]
  | exit hpc | yield hpc | notified hpc | notifiedLast hpc =>
    apply handOff_stay
    rw [hpc]
    rfl
  | terminate => rfl

/-- The record of a mutex and its state agree in every run. -/
theorem handOff_of_reachable {p : SynchState Thread Event Mutex × List (HandOff.Event Thread)}
    (h : ((synchSystem objects).recording (mutexEvents m)).ReachableUnder
      (fun p action => NoForcedExit p.1 action) p) : HandOff.Invariant (p.1.handOff m) p.2 := by
  induction h with
  | init hinit =>
    obtain ⟨hstart,hrecord⟩ := hinit
    rw [hrecord]
    apply HandOff.Invariant.init
    · intro t
      exact congrArg (SynchPc.stage m) (hstart.pc t)
    · exact hstart.holder m
    · exact hstart.waitingList (.mutex m)
  | @step p p' action hreach hguard hstep ih =>
    obtain ⟨hstep,hrecord⟩ := TransitionSystem.recording_step.mp hstep
    have hwaits := waits_of_reachable hreach.of_recording
    rw [hrecord]
    rcases synchStep_cases hstep with ⟨t,rfl,hrun⟩ | ⟨hother,henter⟩
    · rcases hrun.handOff (m := m) hwaits hguard with ⟨hsame,hevents⟩ | hmoved
      · rw [hsame,hevents,List.append_nil]
        exact ih
      · exact ih.step hmoved
    · have hevents : mutexEvents m p.1 action = [] := by
        cases action with
        | run t => exact absurd rfl (hother t)
        | _ => rfl
      rw [henter.handOff,hevents,List.append_nil]
      exact ih

structure MutexSafe (m : Mutex) (s : SynchState Thread Event Mutex)
    (record : List (HandOff.Event Thread)) : Prop where
  /-- Whoever has acquired the mutex more often than released it is the holder. -/
  owner : ∀ t, record.count (.released t) < record.count (.acquired t) → s.holder m = some t
  /-- `MutexAcquire` returns to the holder only. -/
  returns : ∀ t, .acquired t ∈ mutexEvents m s (.run t) → s.holder m = some t
  nodup : (s.waitingList (.mutex m)).Nodup
  /-- No waiter is stranded. -/
  held : s.waitingList (.mutex m) ≠ [] → s.lock (.mutex m) = none → s.holder m ≠ none
  /-- The mutex goes to the waiters in the order in which they queued. -/
  order : record.filterMap HandOff.Event.queuedThread =
    record.filterMap HandOff.Event.handedThread ++ s.waitingList (.mutex m)
  /-- The mutex is free, or another's, only after as many releases as acquisitions. -/
  balanced : ∀ t, s.holder m ≠ some t →
    record.count (.acquired t) = record.count (.released t)

/-- The mutex in every run where no thread is forced to exit while it waits. -/
theorem mutex_safe {p : SynchState Thread Event Mutex × List (HandOff.Event Thread)}
    (h : ((synchSystem objects).recording (mutexEvents m)).ReachableUnder
      (fun p action => NoForcedExit p.1 action) p) : MutexSafe m p.1 p.2 := by
  have hinv := handOff_of_reachable h
  have hreturns : ∀ t, .acquired t ∈ mutexEvents m p.1 (.run t) → p.1.holder m = some t := by
    intro t hmem
    cases hpc : p.1.pc t with
    | acquireEntry m' =>
      by_cases hholder : m' = m ∧ p.1.holder m = some t
      · exact hholder.2
      · simp [mutexEvents,hpc,hholder] at hmem
    | acquireDone m' =>
      by_cases hm : m' = m
      · apply hinv.grants t
        change (p.1.pc t).stage m = .granted
        rw [hpc,hm]
        exact if_pos rfl
      · simp [mutexEvents,hpc,hm] at hmem
    | insertWait w | releaseEntry m' | releasePop m' =>
      simp only [mutexEvents,hpc] at hmem
      grind
    | _ => simp [mutexEvents,hpc] at hmem
  refine ⟨?_,hreturns,hinv.nodup,?_,hinv.order,hinv.balanced⟩
  · intro t ht
    exact hinv.holder_of_acquired ht
  · intro hlist _
    exact hinv.held hlist

/-- Three threads and a recursive mutex. -/
def threeThreads : SynchObjects (Fin 3) (Fin 3) Unit where
  eventType _ := .notification
  maxRecursivityDepth _ := 255
  terminationEvt t := t

/-- The thread finds the mutex held and sleeps. -/
def sleepForMutex (t : Fin 3) : List (SynchAction (Fin 3) (Fin 3) Unit) :=
  .call t (.mutexAcquire ()) :: List.replicate 10 (.run t)

/-- Thread 0 acquires the mutex twice and releases it twice while the others wait. -/
theorem mutex_safe_three : ∃ p : SynchState (Fin 3) (Fin 3) Unit × List (HandOff.Event (Fin 3)),
    ((synchSystem threeThreads).recording (mutexEvents ())).ReachableUnder
      (fun p action => NoForcedExit p.1 action) p ∧
    p.1.holder () = some 1 ∧ p.1.waitingList (.mutex ()) = [2] ∧
      p.2.filterMap HandOff.Event.queuedThread = p.2.filterMap HandOff.Event.handedThread ++ [2] ∧
      p.2.count (.acquired 0) = p.2.count (.released 0) := by
  obtain ⟨p,hreach,hp⟩ := TransitionSystem.exists_reachable
    ((synchSystem threeThreads).recording (mutexEvents ()))
    (fun p action => NoForcedExit p.1 action) (.start,[]) ⟨start_initial,rfl⟩
    (.call 0 (.mutexAcquire ()) :: List.replicate 5 (.run 0) ++ sleepForMutex 1 ++
      [.call 0 (.mutexAcquire ()),.run 0] ++ sleepForMutex 2 ++
      [.call 0 (.mutexRelease ()),.run 0] ++
      .call 0 (.mutexRelease ()) :: List.replicate 7 (.run 0))
    (fun p => decide (p.1.holder () = some 1 ∧ p.1.waitingList (.mutex ()) = [2]))
    (by decide +kernel) (by decide +kernel)
  obtain ⟨hholder,hlist⟩ := of_decide_eq_true hp
  have hsafe := mutex_safe hreach
  have horder := hsafe.order
  rw [hlist] at horder
  exact ⟨p,hreach,hholder,hlist,horder,hsafe.balanced 0 (by rw [hholder]; decide)⟩

end Hal9000
