import Hal9000.Common.Machine
import Hal9000.Framework.TransitionSystem

/-!
# The page zeroing worker

`MmuReleaseMemory` queues frames and signals the worker, which zeroes them and gives them to the
physical memory manager. The worker finds the list empty under its lock, and clears the event after
it has released the lock.
-/

namespace Hal9000

/-- `MMU_ZERO_WORKER_ITEM`. -/
structure MmuZeroWorkerItem where
  physicalAddress : Nat
  numberOfFrames : Nat
  deriving DecidableEq

/-- Where a thread is in `MmuReleaseMemory`. -/
inductive ReleaseMemoryPc
  | outside
  | acquireLock (item : MmuZeroWorkerItem)
  | insertTail (item : MmuZeroWorkerItem)
  | releaseLock
  | exEventSignal
  | signaled
  deriving DecidableEq

/-- The event is still to be set. -/
def ReleaseMemoryPc.yetToSignal : ReleaseMemoryPc → Bool
  | .outside | .signaled => false
  | .acquireLock _ | .insertTail _ | .releaseLock | .exEventSignal => true

/-- Where the worker is in `_MmuZeroWorkerThreadFunction`. -/
inductive ZeroWorkerPc
  | exEventWaitForSignal
  | acquireLock
  | removeHead
  | releaseLock (entry : Option MmuZeroWorkerItem)
  | exEventClearSignal
  | zeroMemory (item : MmuZeroWorkerItem)
  | pmmReleaseMemory (item : MmuZeroWorkerItem)
  deriving DecidableEq

/-- The item the worker has taken off the list. -/
def ZeroWorkerPc.item : ZeroWorkerPc → Option MmuZeroWorkerItem
  | .releaseLock entry => entry
  | .zeroMemory item | .pmmReleaseMemory item => some item
  | _ => none

inductive PagesLockOwner (Thread : Type)
  | worker
  | caller (t : Thread)
  deriving DecidableEq

/-- `MMU_ZERO_THREAD_DATA`, where the threads are, and what the physical memory manager got. -/
structure ZeroThreadData (Thread : Type) where
  pagesToZeroList : List MmuZeroWorkerItem
  pagesLock : Option (PagesLockOwner Thread)
  newPagesEvent : Bool
  worker : ZeroWorkerPc
  pc : Thread → ReleaseMemoryPc
  released : List MmuZeroWorkerItem

inductive ZeroThreadAction (Thread : Type)
  | mmuReleaseMemory (t : Thread) (item : MmuZeroWorkerItem)
  | runCaller (t : Thread)
  | runWorker

section ZeroWorker

variable {Thread : Type} [DecidableEq Thread]

def ZeroThreadData.setPc (s : ZeroThreadData Thread) (t : Thread) (pc : ReleaseMemoryPc) :
    ZeroThreadData Thread :=
  { s with pc := Function.update s.pc t pc }

def releaseMemoryRun (s : ZeroThreadData Thread) (t : Thread) : Option (ZeroThreadData Thread) :=
  match s.pc t with
  | .outside => none
  | .acquireLock item =>
    if s.pagesLock = none then
      some { s.setPc t (.insertTail item) with pagesLock := some (.caller t) }
    else none
  | .insertTail item =>
    some { s.setPc t .releaseLock with pagesToZeroList := s.pagesToZeroList ++ [item] }
  | .releaseLock => some { s.setPc t .exEventSignal with pagesLock := none }
  | .exEventSignal => some { s.setPc t .signaled with newPagesEvent := true }
  | .signaled => some (s.setPc t .outside)

/-- The event is one of notification: the worker goes on when it is signaled, and leaves it so. -/
def zeroWorkerRun (s : ZeroThreadData Thread) : Option (ZeroThreadData Thread) :=
  match s.worker with
  | .exEventWaitForSignal =>
    if s.newPagesEvent = true then some { s with worker := .acquireLock } else none
  | .acquireLock =>
    if s.pagesLock = none then some { s with worker := .removeHead, pagesLock := some .worker }
    else none
  | .removeHead =>
    match s.pagesToZeroList with
    | [] => some { s with worker := .releaseLock none }
    | item :: rest => some { s with worker := .releaseLock (some item), pagesToZeroList := rest }
  | .releaseLock entry =>
    match entry with
    | none => some { s with worker := .exEventClearSignal, pagesLock := none }
    | some item => some { s with worker := .zeroMemory item, pagesLock := none }
  | .exEventClearSignal =>
    some { s with worker := .exEventWaitForSignal, newPagesEvent := false }
  | .zeroMemory item => some { s with worker := .pmmReleaseMemory item }
  | .pmmReleaseMemory item =>
    some { s with worker := .exEventWaitForSignal, released := s.released ++ [item] }

def zeroThreadStep (s : ZeroThreadData Thread) :
    ZeroThreadAction Thread → Option (ZeroThreadData Thread)
  | .mmuReleaseMemory t item =>
    if s.pc t = .outside then do
      assert (isAddressAligned item.physicalAddress pageSize)
      assert (decide (item.numberOfFrames ≠ 0))
      return s.setPc t (.acquireLock item)
    else none
  | .runCaller t => releaseMemoryRun s t
  | .runWorker => zeroWorkerRun s

structure ZeroThreadData.Initial (s : ZeroThreadData Thread) : Prop where
  list : s.pagesToZeroList = []
  lock : s.pagesLock = none
  event : s.newPagesEvent = false
  worker : s.worker = .exEventWaitForSignal
  pc : ∀ t, s.pc t = .outside
  released : s.released = []

def ZeroThreadData.start : ZeroThreadData Thread where
  pagesToZeroList := []
  pagesLock := none
  newPagesEvent := false
  worker := .exEventWaitForSignal
  pc _ := .outside
  released := []

omit [DecidableEq Thread] in
theorem ZeroThreadData.start_initial : (.start : ZeroThreadData Thread).Initial where
  list := rfl
  lock := rfl
  event := rfl
  worker := rfl
  pc _ := rfl
  released := rfl

def zeroThreadSystem (Thread : Type) [DecidableEq Thread] :
    TransitionSystem (ZeroThreadData Thread) (ZeroThreadAction Thread) where
  init := ZeroThreadData.Initial
  step := zeroThreadStep

end ZeroWorker

variable {Thread : Type}

/-- The items that a step queues. -/
def queuedItems (s : ZeroThreadData Thread) : ZeroThreadAction Thread → List MmuZeroWorkerItem
  | .runCaller t => match s.pc t with
    | .insertTail item => [item]
    | _ => []
  | _ => []

/-- The list is empty, or a caller of `MmuReleaseMemory` has yet to signal. -/
def ZeroThreadData.Attended (s : ZeroThreadData Thread) : Prop :=
  s.pagesToZeroList = [] ∨ ∃ t, (s.pc t).yetToSignal = true

/-- The worker clears the event only while that loses no signal. -/
def ClearsAttended (s : ZeroThreadData Thread) : ZeroThreadAction Thread → Prop
  | .runWorker => s.worker = .exEventClearSignal → s.Attended
  | _ => True

instance [Fintype Thread] (s : ZeroThreadData Thread) : Decidable s.Attended :=
  inferInstanceAs (Decidable (_ ∨ ∃ _, _))

instance [Fintype Thread] (s : ZeroThreadData Thread) :
    ∀ action, Decidable (ClearsAttended s action)
  | .runWorker => inferInstanceAs (Decidable (s.worker = .exEventClearSignal → s.Attended))
  | .mmuReleaseMemory _ _ | .runCaller _ => .isTrue trivial

variable [DecidableEq Thread] {s s' : ZeroThreadData Thread} {action : ZeroThreadAction Thread}

private theorem zeroThreadStep_items {record : List MmuZeroWorkerItem}
    (h : record = s.released ++ (s.worker.item.toList ++ s.pagesToZeroList))
    (hstep : zeroThreadStep s action = some s') :
    record ++ queuedItems s action =
      s'.released ++ (s'.worker.item.toList ++ s'.pagesToZeroList) := by
  cases action with
  | mmuReleaseMemory t item =>
    simp only [zeroThreadStep] at hstep
    split_ifs at hstep
    obtain ⟨_,_,hstep⟩ := Option.bind_eq_some_iff.mp hstep
    obtain ⟨_,_,hstep⟩ := Option.bind_eq_some_iff.mp hstep
    rw [← Option.some.inj hstep,h]
    exact List.append_nil _
  | runCaller t =>
    simp only [zeroThreadStep,releaseMemoryRun] at hstep
    cases hpc : s.pc t <;> simp only [hpc,reduceCtorEq] at hstep
    case acquireLock item =>
      split_ifs at hstep
      rw [← Option.some.inj hstep,h]
      simp [queuedItems,hpc,ZeroThreadData.setPc]
    all_goals
      rw [← Option.some.inj hstep,h]
      simp [queuedItems,hpc,ZeroThreadData.setPc]
  | runWorker =>
    have hevents : queuedItems s .runWorker = [] := rfl
    rw [hevents,List.append_nil,h]
    simp only [zeroThreadStep,zeroWorkerRun] at hstep
    cases hpc : s.worker <;> simp only [hpc] at hstep
    case exEventWaitForSignal | acquireLock =>
      split_ifs at hstep
      rw [← Option.some.inj hstep]
      simp [ZeroWorkerPc.item]
    case removeHead =>
      cases hlist : s.pagesToZeroList <;> simp only [hlist] at hstep <;>
        simp [← Option.some.inj hstep,ZeroWorkerPc.item]
    case releaseLock entry =>
      cases entry <;> simp only at hstep <;> simp [← Option.some.inj hstep,ZeroWorkerPc.item]
    all_goals simp [← Option.some.inj hstep,ZeroWorkerPc.item]

private theorem releaseMemoryRun_attended {t : Thread} (hrun : releaseMemoryRun s t = some s') :
    s'.newPagesEvent = true ∨
      s'.newPagesEvent = s.newPagesEvent ∧ ((s'.pc t).yetToSignal = true ∨
        s.pc t = .signaled ∧ s' = s.setPc t .outside) := by
  unfold releaseMemoryRun at hrun
  cases hpc : s.pc t <;> simp only [hpc,reduceCtorEq] at hrun
  case acquireLock item =>
    split_ifs at hrun
    rw [← Option.some.inj hrun]
    exact Or.inr ⟨rfl,Or.inl (by simp [ZeroThreadData.setPc,ReleaseMemoryPc.yetToSignal])⟩
  case insertTail item =>
    rw [← Option.some.inj hrun]
    exact Or.inr ⟨rfl,Or.inl (by simp [ZeroThreadData.setPc,ReleaseMemoryPc.yetToSignal])⟩
  case releaseLock =>
    rw [← Option.some.inj hrun]
    exact Or.inr ⟨rfl,Or.inl (by simp [ZeroThreadData.setPc,ReleaseMemoryPc.yetToSignal])⟩
  case exEventSignal =>
    rw [← Option.some.inj hrun]
    exact Or.inl rfl
  case signaled =>
    rw [← Option.some.inj hrun]
    exact Or.inr ⟨rfl,Or.inr ⟨rfl,rfl⟩⟩

private theorem attended_returns {t : Thread} (hpc : s.pc t = .signaled) (h : s.Attended) :
    (s.setPc t .outside).Attended := by
  rcases h with hempty | ⟨t',ht'⟩
  · exact Or.inl hempty
  · have hne : t' ≠ t := by
      rintro rfl
      rw [hpc] at ht'
      cases ht'
    refine Or.inr ⟨t',?_⟩
    simp only [ZeroThreadData.setPc,Function.update_of_ne hne]
    exact ht'

omit [DecidableEq Thread] in
private theorem zeroWorkerRun_attended (hrun : zeroWorkerRun s = some s') : s'.pc = s.pc ∧
    (s.pagesToZeroList = [] → s'.pagesToZeroList = []) ∧
      (s'.newPagesEvent = s.newPagesEvent ∨ s.worker = .exEventClearSignal) := by
  unfold zeroWorkerRun at hrun
  cases hpc : s.worker <;> simp only [hpc] at hrun
  case exEventWaitForSignal | acquireLock =>
    split_ifs at hrun
    rw [← Option.some.inj hrun]
    exact ⟨rfl,id,Or.inl rfl⟩
  case removeHead =>
    cases hlist : s.pagesToZeroList <;> simp only [hlist] at hrun <;> rw [← Option.some.inj hrun]
    · exact ⟨rfl,fun _ => rfl,Or.inl rfl⟩
    · exact ⟨rfl,by simp,Or.inl rfl⟩
  case releaseLock entry =>
    cases entry <;> simp only at hrun <;> rw [← Option.some.inj hrun] <;>
      exact ⟨rfl,id,Or.inl rfl⟩
  case exEventClearSignal =>
    rw [← Option.some.inj hrun]
    exact ⟨rfl,id,Or.inr rfl⟩
  all_goals
    rw [← Option.some.inj hrun]
    exact ⟨rfl,id,Or.inl rfl⟩

private theorem zeroThreadStep_attended (h : s.newPagesEvent = true ∨ s.Attended)
    (hguard : ClearsAttended s action) (hstep : zeroThreadStep s action = some s') :
    s'.newPagesEvent = true ∨ s'.Attended := by
  cases action with
  | mmuReleaseMemory t item =>
    simp only [zeroThreadStep] at hstep
    split_ifs at hstep
    obtain ⟨_,_,hstep⟩ := Option.bind_eq_some_iff.mp hstep
    obtain ⟨_,_,hstep⟩ := Option.bind_eq_some_iff.mp hstep
    rw [← Option.some.inj hstep]
    exact Or.inr (Or.inr ⟨t,by simp [ZeroThreadData.setPc,ReleaseMemoryPc.yetToSignal]⟩)
  | runCaller t =>
    rcases releaseMemoryRun_attended hstep with hsignaled | ⟨hsame,hpc | ⟨hpc,rfl⟩⟩
    · exact Or.inl hsignaled
    · exact Or.inr (Or.inr ⟨t,hpc⟩)
    · exact h.imp id (attended_returns hpc)
  | runWorker =>
    obtain ⟨hpc,hlist,hevent⟩ := zeroWorkerRun_attended hstep
    have hattended : s.Attended → s'.Attended := by
      intro hattended
      apply hattended.imp hlist
      rw [hpc]
      exact id
    rcases hevent with hsame | hclear
    · rw [hsame]
      exact h.imp id hattended
    · exact Or.inr (hattended (hguard hclear))

/-- Unattended, the event is cleared for a worker that waits with frames on its list: every call
that is left has signaled. -/
theorem clear_unattended (hclear : s.worker = .exEventClearSignal) (hforgets : ¬s.Attended) :
    ∃ s', zeroThreadStep s .runWorker = some s' ∧ s'.worker = .exEventWaitForSignal ∧
      (∀ t, s'.pc t = .outside ∨ s'.pc t = .signaled) ∧ s'.pagesToZeroList ≠ [] ∧
      s'.newPagesEvent = false := by
  simp only [ZeroThreadData.Attended,not_or,not_exists] at hforgets
  refine ⟨{ s with worker := .exEventWaitForSignal, newPagesEvent := false },
    by simp only [zeroThreadStep,zeroWorkerRun,hclear],rfl,?_,hforgets.1,rfl⟩
  intro t
  have hsignaled := hforgets.2 t
  cases hpc : s.pc t <;> simp_all [ReleaseMemoryPc.yetToSignal]

structure ZeroWorkerSafe (s : ZeroThreadData Thread) (record : List MmuZeroWorkerItem) : Prop where
  /-- The worker does not wait for a signal that has been given. -/
  waits : s.worker = .exEventWaitForSignal → (∀ t, s.pc t = .outside) →
    s.pagesToZeroList = [] ∨ s.newPagesEvent = true
  /-- What has been queued is released in order, or still to be. -/
  items : record = s.released ++ (s.worker.item.toList ++ s.pagesToZeroList)

/-- No released frame is forgotten in a run where the event is cleared while that is attended. -/
theorem zero_worker_safe {p : ZeroThreadData Thread × List MmuZeroWorkerItem}
    (h : ((zeroThreadSystem Thread).recording queuedItems).ReachableUnder
      (fun p action => ClearsAttended p.1 action) p) : ZeroWorkerSafe p.1 p.2 := by
  have hinv : (p.1.newPagesEvent = true ∨ p.1.Attended) ∧
      p.2 = p.1.released ++ (p.1.worker.item.toList ++ p.1.pagesToZeroList) := by
    induction h with
    | init hinit =>
      refine ⟨Or.inr (Or.inl hinit.1.list),?_⟩
      rw [hinit.2,hinit.1.released,hinit.1.worker,hinit.1.list]
      rfl
    | step _ hguard hstep ih =>
      obtain ⟨hs,hrecord⟩ := TransitionSystem.recording_step.mp hstep
      rw [hrecord]
      exact ⟨zeroThreadStep_attended ih.1 hguard hs,zeroThreadStep_items ih.2 hs⟩
  refine ⟨?_,hinv.2⟩
  intro _ houtside
  rcases hinv.1 with hsignaled | hempty | ⟨t,ht⟩
  · exact Or.inr hsignaled
  · exact Or.inl hempty
  · rw [houtside t] at ht
    cases ht

/-- One frame is released. -/
def releaseFrame (frame : Nat) : List (ZeroThreadAction Unit) :=
  .mmuReleaseMemory () ⟨frame * pageSize,1⟩ :: List.replicate 5 (.runCaller ())

/-- The worker takes one frame, and finds the list empty after it. -/
def zeroFrame : List (ZeroThreadAction Unit) := List.replicate 10 .runWorker

/-- The next frame is released after the worker waits again. -/
theorem zero_worker_safe_two : ∃ (s : ZeroThreadData Unit) (queued : List MmuZeroWorkerItem),
    ((zeroThreadSystem Unit).recording queuedItems).ReachableUnder
      (fun p action => ClearsAttended p.1 action) (s,queued) ∧
    s.released = [⟨pageSize,1⟩] ∧ s.worker = .exEventWaitForSignal ∧
      s.pagesToZeroList = [⟨2 * pageSize,1⟩] ∧ s.newPagesEvent = true := by
  obtain ⟨p,hreach,hp⟩ := TransitionSystem.exists_reachable
    ((zeroThreadSystem Unit).recording queuedItems) (fun p action => ClearsAttended p.1 action)
    (.start,[]) ⟨ZeroThreadData.start_initial,rfl⟩
    (releaseFrame 1 ++ zeroFrame ++ [.runWorker] ++ releaseFrame 2)
    (fun p => decide (p.1.released = [⟨pageSize,1⟩] ∧ p.1.worker = .exEventWaitForSignal ∧
      p.1.pagesToZeroList = [⟨2 * pageSize,1⟩] ∧ p.1.pc () = .outside))
    (by decide +kernel) (by decide +kernel)
  obtain ⟨hreleased,hworker,hlist,hpc⟩ := of_decide_eq_true hp
  refine ⟨p.1,p.2,hreach,hreleased,hworker,hlist,?_⟩
  rcases (zero_worker_safe hreach).waits hworker (fun _ => hpc) with hempty | hsignaled
  · rw [hlist] at hempty
    cases hempty
  · exact hsignaled

/-- It is released after the worker has found the list empty, and before it clears the event. -/
theorem released_frame_forgotten : ∃ s : ZeroThreadData Unit, (zeroThreadSystem Unit).Reachable s ∧
    s.worker = .exEventWaitForSignal ∧ s.pc () = .outside ∧
      s.pagesToZeroList = [⟨2 * pageSize,1⟩] ∧ s.newPagesEvent = false := by
  obtain ⟨s,hreach,hs⟩ := TransitionSystem.exists_reachable (zeroThreadSystem Unit)
    (fun _ _ => True) .start ZeroThreadData.start_initial
    (releaseFrame 1 ++ zeroFrame ++ releaseFrame 2 ++ [.runWorker])
    (fun s => decide (s.worker = .exEventWaitForSignal ∧ s.pc () = .outside ∧
      s.pagesToZeroList = [⟨2 * pageSize,1⟩] ∧ s.newPagesEvent = false))
    (TransitionSystem.runSatisfies_of_forall (fun _ _ => trivial) _ _) (by decide +kernel)
  exact ⟨s,hreach,of_decide_eq_true hs⟩

end Hal9000
