import Hal9000.Common.Machine
import Hal9000.Framework.TransitionSystem

/-!
# What the next thread cleans up

`ThreadCleanupPostSchedule` runs in the thread that is scheduled next, and may destroy the previous
thread and its process, for which it acquires mutexes. A thread has a stack of what it is still to
do; what is done under one spinlock is one step.
-/

namespace Hal9000

/-- What a thread is still to do. -/
inductive ThreadCall (Thread Process Mutex : Type)
  | mutexAcquire (m : Mutex)
  /-- The loop of `MutexAcquire`, after `ThreadBlock`. -/
  | mutexLoop (m : Mutex)
  | mutexRelease (m : Mutex)
  | threadUnblock (t : Thread)
  | threadBlock
  | threadYield
  | threadExit
  | threadCleanupPostSchedule
  /-- `PreviousThread = NULL`, after the dereference. -/
  | clearPreviousThread
  | threadDereference (t : Thread)
  | processRemoveThreadFromList (t : Thread)
  | processDereference (p : Process)
  deriving DecidableEq

structure CleanupObjects (Cpu Thread Process Mutex : Type) where
  idleThread : Cpu → Thread
  process : Thread → Process
  processId : Process → Nat
  processListLock : Mutex
  pidBitmapLock : Mutex
  maxRecursivityDepth : Mutex → Nat

structure CleanupState (Cpu Thread Process Mutex : Type) where
  readyThreadsList : List Thread
  currentThread : Cpu → Thread
  previousThread : Cpu → Option Thread
  calls : Thread → List (ThreadCall Thread Process Mutex)
  state : Thread → ThreadState
  blockLock : Thread → Option Cpu
  refCnt : Thread → Nat
  processRefCnt : Process → Nat
  numberOfThreads : Process → Nat
  holder : Mutex → Option Thread
  currentRecursivityDepth : Mutex → Nat
  waitingList : Mutex → List Thread

inductive CleanupAction (Cpu Thread Process Mutex : Type)
  | run (c : Cpu)
  /-- A timer interrupt, on whose return the thread yields. -/
  | preempt (c : Cpu)
  | mutexAcquire (c : Cpu) (m : Mutex)
  | mutexRelease (c : Cpu) (m : Mutex)
  | threadYield (c : Cpu)
  | threadExit (c : Cpu)
  | threadCloseHandle (c : Cpu) (t : Thread)
  | processCloseHandle (c : Cpu) (p : Process)

/-- Interrupts may be enabled before the call. -/
def ThreadCall.interruptible {Thread Process Mutex : Type} :
    ThreadCall Thread Process Mutex → Bool
  | .mutexAcquire _ | .mutexRelease _ | .threadDereference _ | .processRemoveThreadFromList _
  | .processDereference _ => true
  | _ => false

section Cleanup

variable {Cpu Thread Process Mutex : Type} [DecidableEq Cpu] [DecidableEq Thread]
  [DecidableEq Process] [DecidableEq Mutex]

namespace CleanupState

def setCalls (s : CleanupState Cpu Thread Process Mutex) (t : Thread)
    (calls : List (ThreadCall Thread Process Mutex)) : CleanupState Cpu Thread Process Mutex :=
  { s with calls := Function.update s.calls t calls }

def setState (s : CleanupState Cpu Thread Process Mutex) (t : Thread) (state : ThreadState) :
    CleanupState Cpu Thread Process Mutex :=
  { s with state := Function.update s.state t state }

def setBlockLock (s : CleanupState Cpu Thread Process Mutex) (t : Thread) (owner : Option Cpu) :
    CleanupState Cpu Thread Process Mutex :=
  { s with blockLock := Function.update s.blockLock t owner }

def setHolder (s : CleanupState Cpu Thread Process Mutex) (m : Mutex) (holder : Option Thread)
    (depth : Nat) : CleanupState Cpu Thread Process Mutex :=
  { s with
    holder := Function.update s.holder m holder
    currentRecursivityDepth := Function.update s.currentRecursivityDepth m depth }

def setWaitingList (s : CleanupState Cpu Thread Process Mutex) (m : Mutex)
    (waitingList : List Thread) : CleanupState Cpu Thread Process Mutex :=
  { s with waitingList := Function.update s.waitingList m waitingList }

end CleanupState

variable (objects : CleanupObjects Cpu Thread Process Mutex)

/-- `_ThreadSchedule`, up to the release of the lock of the ready list in the next thread. The
thread that leaves goes on with the clean-up when it is scheduled again. -/
def CleanupState.schedule (s : CleanupState Cpu Thread Process Mutex) (c : Cpu)
    (calls : List (ThreadCall Thread Process Mutex)) :
    Option (CleanupState Cpu Thread Process Mutex) :=
  let t := s.currentThread c
  let s := { s.setCalls t (.threadCleanupPostSchedule :: calls) with
    previousThread := Function.update s.previousThread c (some t) }
  match s.readyThreadsList with
  | [] => some { s with currentThread := Function.update s.currentThread c (objects.idleThread c) }
  | next :: rest => do
    assert (decide (s.state next = .ready))
    return { s with
      readyThreadsList := rest
      currentThread := Function.update s.currentThread c next }

/-- The thread puts itself on the waiting list of the mutex and takes its block lock. -/
def CleanupState.wait (s : CleanupState Cpu Thread Process Mutex) (c : Cpu) (m : Mutex)
    (calls : List (ThreadCall Thread Process Mutex)) :
    Option (CleanupState Cpu Thread Process Mutex) :=
  let t := s.currentThread c
  if s.blockLock t = none then
    some (((s.setCalls t (.threadBlock :: .mutexLoop m :: calls)).setWaitingList m
      (s.waitingList m ++ [t])).setBlockLock t (some c))
  else none

/-- What `_ProcessDestroy` does with mutexes. -/
def processDestroy (p : Process) : List (ThreadCall Thread Process Mutex) :=
  [.mutexAcquire objects.processListLock,.mutexRelease objects.processListLock] ++
    if objects.processId p ≠ 0 then
      [.mutexAcquire objects.pidBitmapLock,.mutexRelease objects.pidBitmapLock]
    else []

/-- The next step of the thread that a CPU runs. -/
def cleanupRun (s : CleanupState Cpu Thread Process Mutex) (c : Cpu) :
    Option (CleanupState Cpu Thread Process Mutex) :=
  let t := s.currentThread c
  match s.calls t with
  | [] =>
    -- the loop of `_IdleThread`
    if t = objects.idleThread c ∧ s.blockLock t = none then
      some ((s.setCalls t [.threadBlock]).setBlockLock t (some c))
    else none
  | .mutexAcquire m :: calls =>
    if s.holder m = some t then do
      assert (decide (s.currentRecursivityDepth m < objects.maxRecursivityDepth m))
      return (s.setCalls t calls).setHolder m (some t) (s.currentRecursivityDepth m + 1)
    else if s.holder m = none then some ((s.setCalls t calls).setHolder m (some t) 1)
    else s.wait c m calls
  | .mutexLoop m :: calls =>
    if s.holder m = some t then some (s.setCalls t calls) else s.wait c m calls
  | .mutexRelease m :: calls => do
    assert (decide (s.holder m = some t))
    if s.currentRecursivityDepth m > 1 then
      return (s.setCalls t calls).setHolder m (some t) (s.currentRecursivityDepth m - 1)
    else
      match s.waitingList m with
      | [] => return (s.setCalls t calls).setHolder m none (s.currentRecursivityDepth m)
      | t' :: waiting =>
        return ((s.setCalls t (.threadUnblock t' :: calls)).setWaitingList m waiting).setHolder m
          (some t') 1
  | .threadUnblock t' :: calls =>
    if s.blockLock t' = none then do
      assert (decide (s.state t' = .blocked))
      return { s.setCalls t calls with
        readyThreadsList := s.readyThreadsList ++ [t'] }.setState t' .ready
    else none
  | .threadBlock :: calls => do
    assert (decide (s.blockLock t = some c))
    (s.setState t .blocked).schedule objects c calls
  | .threadYield :: calls =>
    ({ s with
      readyThreadsList :=
        if t = objects.idleThread c then s.readyThreadsList
        else s.readyThreadsList ++ [t] }.setState t .ready).schedule objects c calls
  | .threadExit :: _ => (s.setState t .dying).schedule objects c []
  | .threadCleanupPostSchedule :: calls =>
    match s.previousThread c with
    | none => some (s.setCalls t calls)
    | some prev =>
      if s.blockLock prev = some c then do
        assert (decide (s.state prev = .blocked ∨ prev = objects.idleThread c))
        return (s.setCalls t calls).setBlockLock prev none
      else if s.state prev = .dying then
        some (s.setCalls t (.threadDereference prev :: .clearPreviousThread :: calls))
      else some (s.setCalls t calls)
  | .clearPreviousThread :: calls =>
    some { s.setCalls t calls with previousThread := Function.update s.previousThread c none }
  | .threadDereference t' :: calls => do
    assert (s.refCnt t' != 0)
    return { s.setCalls t
        (if s.refCnt t' = 1 then .processRemoveThreadFromList t' :: calls else calls) with
      refCnt := Function.update s.refCnt t' (s.refCnt t' - 1) }
  | .processRemoveThreadFromList t' :: calls => do
    let p := objects.process t'
    assert (s.numberOfThreads p != 0)
    return { s.setCalls t (.processDereference p ::
        if s.numberOfThreads p = 1 then .processDereference p :: calls else calls) with
      numberOfThreads := Function.update s.numberOfThreads p (s.numberOfThreads p - 1) }
  | .processDereference p :: calls => do
    assert (s.processRefCnt p != 0)
    return { s.setCalls t
        (if s.processRefCnt p = 1 then processDestroy objects p ++ calls else calls) with
      processRefCnt := Function.update s.processRefCnt p (s.processRefCnt p - 1) }

/-- A thread that is not idle enters the kernel. -/
def CleanupState.enter (s : CleanupState Cpu Thread Process Mutex) (c : Cpu)
    (call : ThreadCall Thread Process Mutex) : Option (CleanupState Cpu Thread Process Mutex) :=
  if s.calls (s.currentThread c) = [] ∧ s.currentThread c ≠ objects.idleThread c then
    some (s.setCalls (s.currentThread c) [call])
  else none

def cleanupStep (s : CleanupState Cpu Thread Process Mutex) :
    CleanupAction Cpu Thread Process Mutex → Option (CleanupState Cpu Thread Process Mutex)
  | .run c => cleanupRun objects s c
  | .preempt c =>
    match s.calls (s.currentThread c) with
    | [] => some (s.setCalls (s.currentThread c) [.threadYield])
    | call :: calls =>
      if call.interruptible then
        some (s.setCalls (s.currentThread c) (.threadYield :: call :: calls))
      else none
  | .mutexAcquire c m => s.enter objects c (.mutexAcquire m)
  | .mutexRelease c m => s.enter objects c (.mutexRelease m)
  | .threadYield c => s.enter objects c .threadYield
  | .threadExit c => s.enter objects c .threadExit
  | .threadCloseHandle c t => s.enter objects c (.threadDereference t)
  | .processCloseHandle c p => s.enter objects c (.processDereference p)

/-- A running system in which no mutex is held. -/
structure CleanupState.Initial (s : CleanupState Cpu Thread Process Mutex) : Prop where
  distinct : Function.Injective objects.idleThread
  current : Function.Injective s.currentThread
  idle : ∀ c c', s.currentThread c = objects.idleThread c' → c = c'
  nodup : s.readyThreadsList.Nodup
  ready : ∀ t ∈ s.readyThreadsList, s.state t = .ready ∧ (∀ c, s.currentThread c ≠ t) ∧
    ∀ c, objects.idleThread c ≠ t
  calls : ∀ t, s.calls t = [] ∨ s.calls t = [.threadCleanupPostSchedule]
  waitingList : ∀ m, s.waitingList m = []

def cleanupSystem : TransitionSystem (CleanupState Cpu Thread Process Mutex)
    (CleanupAction Cpu Thread Process Mutex) where
  init := CleanupState.Initial objects
  step := cleanupStep objects

/-- The thread is about to wait for a mutex that another thread holds. -/
def CleanupState.contends (s : CleanupState Cpu Thread Process Mutex) (t : Thread) : Bool :=
  match s.calls t with
  | .mutexAcquire m :: _ => s.holder m ≠ none ∧ s.holder m ≠ some t
  | .mutexLoop m :: _ => s.holder m ≠ some t
  | _ => false

/-- The idle thread of a CPU finds every mutex that it acquires free. -/
def NoIdleContention (s : CleanupState Cpu Thread Process Mutex) :
    CleanupAction Cpu Thread Process Mutex → Prop
  | .run c => s.currentThread c = objects.idleThread c → s.contends (s.currentThread c) = false
  | _ => True

/-- No idle thread is linked into a list, and no thread twice into a waiting list. -/
def CleanupState.IdleThreadsUnlinked (s : CleanupState Cpu Thread Process Mutex) : Prop :=
  (∀ m, (s.waitingList m).Nodup) ∧
    ∀ c, (∀ m, objects.idleThread c ∉ s.waitingList m) ∧ objects.idleThread c ∉ s.readyThreadsList

/-- The thread waits for the mutex: it is on its way into `ThreadBlock`, or blocked there. -/
def CleanupState.Waits (s : CleanupState Cpu Thread Process Mutex) (t : Thread) (m : Mutex) : Prop :=
  (∀ c, objects.idleThread c ≠ t) ∧
    ((∃ c calls, s.currentThread c = t ∧ s.blockLock t = some c ∧
        s.calls t = .threadBlock :: .mutexLoop m :: calls) ∨
      s.state t = .blocked ∧ (∀ c, s.currentThread c ≠ t) ∧
        ∃ calls, s.calls t = .threadCleanupPostSchedule :: .mutexLoop m :: calls)

/-- The thread is about to unblock another. -/
def CleanupState.Unblocks (s : CleanupState Cpu Thread Process Mutex) (u t : Thread) : Prop :=
  (s.calls u).head? = some (.threadUnblock t)

structure IdleInv (s : CleanupState Cpu Thread Process Mutex) : Prop where
  distinct : Function.Injective objects.idleThread
  current : Function.Injective s.currentThread
  idle : ∀ c c', s.currentThread c = objects.idleThread c' → c = c'
  nodup : s.readyThreadsList.Nodup
  ready : ∀ t ∈ s.readyThreadsList, s.state t = .ready ∧ (∀ c, s.currentThread c ≠ t) ∧
    ∀ c, objects.idleThread c ≠ t
  waits : ∀ m t, t ∈ s.waitingList m → s.Waits objects t m
  waitingNodup : ∀ m, (s.waitingList m).Nodup
  unblocks : ∀ u t, s.Unblocks u t → (∃ m, s.Waits objects t m) ∧ ∀ m, t ∉ s.waitingList m
  unblocksOne : ∀ u u' t, s.Unblocks u t → s.Unblocks u' t → u = u'
  unblocksNext : ∀ u t, .threadUnblock t ∉ (s.calls u).tail

variable {objects} {s s' : CleanupState Cpu Thread Process Mutex} {c : Cpu} {t u : Thread}
  {m : Mutex} {calls : List (ThreadCall Thread Process Mutex)}

omit [DecidableEq Cpu] [DecidableEq Thread] [DecidableEq Process] [DecidableEq Mutex] in
theorem CleanupState.Waits.unique {m' : Mutex} (h : s.Waits objects t m)
    (h' : s.Waits objects t m') : m = m' := by
  rcases h with ⟨_,⟨_,_,_,_,hcalls⟩ | ⟨_,_,_,hcalls⟩⟩ <;>
    rcases h' with ⟨_,⟨_,_,_,_,hcalls'⟩ | ⟨_,_,_,hcalls'⟩⟩ <;>
    · rw [hcalls] at hcalls'
      simp_all

omit [DecidableEq Cpu] [DecidableEq Thread] [DecidableEq Process] [DecidableEq Mutex] in
theorem CleanupState.Waits.current (h : s.Waits objects t m) (hc : s.currentThread c = t) :
    (∃ calls, s.calls t = .threadBlock :: .mutexLoop m :: calls) ∧ ∃ c', s.currentThread c' = t ∧
      s.blockLock t = some c' := by
  rcases h with ⟨_,⟨c',calls,hc',hown,hcalls⟩ | ⟨_,hoff,_⟩⟩
  · exact ⟨⟨calls,hcalls⟩,c',hc',hown⟩
  · exact absurd hc (hoff c)

omit [DecidableEq Cpu] [DecidableEq Thread] [DecidableEq Process] [DecidableEq Mutex] in
theorem CleanupState.Waits.frame (h : s.Waits objects t m) (hcalls : s'.calls t = s.calls t)
    (hstate : s'.state t = s.state t)
    (hcurrent : ∀ c, s'.currentThread c = t ↔ s.currentThread c = t)
    (hown : ∀ c, s.currentThread c = t → s.blockLock t = some c → s'.blockLock t = some c) :
    s'.Waits objects t m := by
  obtain ⟨hidle,⟨c,calls,hc,hlock,hhead⟩ | ⟨hblocked,hoff,calls,hhead⟩⟩ := h
  · exact ⟨hidle,Or.inl ⟨c,calls,(hcurrent c).mpr hc,hown c hc hlock,by rw [hcalls,hhead]⟩⟩
  · refine ⟨hidle,Or.inr ⟨by rw [hstate,hblocked],?_,calls,by rw [hcalls,hhead]⟩⟩
    intro c hc
    exact hoff c ((hcurrent c).mp hc)

omit [DecidableEq Cpu] [DecidableEq Process] [DecidableEq Mutex] in
theorem IdleInv.setCalls (h : IdleInv objects s) (hready : s'.readyThreadsList = s.readyThreadsList)
    (hcurrent : s'.currentThread = s.currentThread) (hstate : s'.state = s.state)
    (hblock : ∀ t c', t ≠ s.currentThread c → s.currentThread c' = t → s.blockLock t = some c' →
      s'.blockLock t = some c') (hwaiting : s'.waitingList = s.waitingList)
    (hcalls : s'.calls = Function.update s.calls (s.currentThread c) calls)
    (hhead : (s.calls (s.currentThread c)).head? ≠ some .threadBlock)
    (hnone : ∀ t, .threadUnblock t ∉ calls) : IdleInv objects s' := by
  have hwaits : ∀ t m, s.Waits objects t m → s'.Waits objects t m := by
    intro t m hw
    have hne : t ≠ s.currentThread c := by
      rintro rfl
      obtain ⟨⟨rest,hrest⟩,_⟩ := hw.current rfl
      rw [hrest] at hhead
      exact hhead rfl
    apply hw.frame
    · rw [hcalls,Function.update_of_ne hne]
    · rw [hstate]
    · intro c'
      rw [hcurrent]
    · exact fun c' => hblock t c' hne
  have hunblocks : ∀ u t, s'.Unblocks u t → s.Unblocks u t := by
    intro u t hu
    unfold CleanupState.Unblocks at hu ⊢
    rw [hcalls] at hu
    by_cases hne : u = s.currentThread c
    · rw [hne,Function.update_self] at hu
      exact absurd (List.mem_of_mem_head? hu) (hnone t)
    · rwa [Function.update_of_ne hne] at hu
  refine ⟨h.distinct,by rw [hcurrent]; exact h.current,by rw [hcurrent]; exact h.idle,
    by rw [hready]; exact h.nodup,by rw [hready,hstate,hcurrent]; exact h.ready,?_,?_,?_,?_,?_⟩
  · intro m t ht
    rw [hwaiting] at ht
    exact hwaits t m (h.waits m t ht)
  · rw [hwaiting]
    exact h.waitingNodup
  · intro u t hu
    obtain ⟨⟨m,hm⟩,hnot⟩ := h.unblocks u t (hunblocks u t hu)
    rw [hwaiting]
    exact ⟨⟨m,hwaits t m hm⟩,hnot⟩
  · intro u u' t hu hu'
    exact h.unblocksOne u u' t (hunblocks u t hu) (hunblocks u' t hu')
  · intro u t hmem
    rw [hcalls] at hmem
    by_cases hne : u = s.currentThread c
    · rw [hne,Function.update_self] at hmem
      exact hnone t (List.mem_of_mem_tail hmem)
    · rw [Function.update_of_ne hne] at hmem
      exact h.unblocksNext u t hmem

variable (objects) in
/-- What a step of a CPU changes of the places of threads. -/
inductive CleanupEffect (s : CleanupState Cpu Thread Process Mutex) (c : Cpu) :
    CleanupState Cpu Thread Process Mutex → Prop
  /-- Nothing but what its thread is still to do. -/
  | own {s' : CleanupState Cpu Thread Process Mutex}
      {calls : List (ThreadCall Thread Process Mutex)}
      (hready : s'.readyThreadsList = s.readyThreadsList)
      (hcurrent : s'.currentThread = s.currentThread) (hstate : s'.state = s.state)
      (hblock : s'.blockLock = s.blockLock) (hwaiting : s'.waitingList = s.waitingList)
      (hcalls : s'.calls = Function.update s.calls (s.currentThread c) calls)
      (hhead : (s.calls (s.currentThread c)).head? ≠ some .threadBlock)
      (hsub : ∀ t, .threadUnblock t ∈ calls → .threadUnblock t ∈ (s.calls (s.currentThread c)).tail) :
      CleanupEffect s c s'
  | takeBlockLock (hidle : s.currentThread c = objects.idleThread c)
      (hcalls : s.calls (s.currentThread c) = []) (hfree : s.blockLock (s.currentThread c) = none) :
      CleanupEffect s c
        ((s.setCalls (s.currentThread c) [.threadBlock]).setBlockLock (s.currentThread c) (some c))
  | wait {m : Mutex} {call : ThreadCall Thread Process Mutex}
      {calls : List (ThreadCall Thread Process Mutex)}
      (hcall : call = .mutexAcquire m ∧ s.holder m ≠ none ∨ call = .mutexLoop m)
      (hcalls : s.calls (s.currentThread c) = call :: calls)
      (hholder : s.holder m ≠ some (s.currentThread c))
      (hfree : s.blockLock (s.currentThread c) = none) : CleanupEffect s c
        (((s.setCalls (s.currentThread c) (.threadBlock :: .mutexLoop m :: calls)).setWaitingList m
          (s.waitingList m ++ [s.currentThread c])).setBlockLock (s.currentThread c) (some c))
  | handOver {m : Mutex} {t : Thread} {waiting : List Thread}
      {calls : List (ThreadCall Thread Process Mutex)}
      (hcalls : s.calls (s.currentThread c) = .mutexRelease m :: calls)
      (hlist : s.waitingList m = t :: waiting) : CleanupEffect s c
        (((s.setCalls (s.currentThread c) (.threadUnblock t :: calls)).setWaitingList m
          waiting).setHolder m (some t) 1)
  | unblock {t : Thread} {calls : List (ThreadCall Thread Process Mutex)}
      (hcalls : s.calls (s.currentThread c) = .threadUnblock t :: calls)
      (hfree : s.blockLock t = none) (hblocked : s.state t = .blocked) : CleanupEffect s c
        ({ s.setCalls (s.currentThread c) calls with
          readyThreadsList := s.readyThreadsList ++ [t] }.setState t .ready)
  | releaseBlockLock {prev : Thread} {calls : List (ThreadCall Thread Process Mutex)}
      (hcalls : s.calls (s.currentThread c) = .threadCleanupPostSchedule :: calls)
      (hown : s.blockLock prev = some c) :
      CleanupEffect s c ((s.setCalls (s.currentThread c) calls).setBlockLock prev none)
  | block {calls : List (ThreadCall Thread Process Mutex)}
      {s' : CleanupState Cpu Thread Process Mutex}
      (hcalls : s.calls (s.currentThread c) = .threadBlock :: calls)
      (hschedule : (s.setState (s.currentThread c) .blocked).schedule objects c calls = some s') :
      CleanupEffect s c s'
  | yield {calls : List (ThreadCall Thread Process Mutex)}
      {s' : CleanupState Cpu Thread Process Mutex}
      (hcalls : s.calls (s.currentThread c) = .threadYield :: calls)
      (hschedule : ({ s with
        readyThreadsList :=
          if s.currentThread c = objects.idleThread c then s.readyThreadsList
          else s.readyThreadsList ++ [s.currentThread c] }.setState (s.currentThread c)
            .ready).schedule objects c calls = some s') : CleanupEffect s c s'
  | exit {calls : List (ThreadCall Thread Process Mutex)}
      {s' : CleanupState Cpu Thread Process Mutex}
      (hcalls : s.calls (s.currentThread c) = .threadExit :: calls)
      (hschedule : (s.setState (s.currentThread c) .dying).schedule objects c [] = some s') :
      CleanupEffect s c s'

omit [DecidableEq Cpu] [DecidableEq Process] in
private theorem wait_eq (h : s.wait c m calls = some s') :
    s.blockLock (s.currentThread c) = none ∧
      s' = ((s.setCalls (s.currentThread c) (.threadBlock :: .mutexLoop m :: calls)).setWaitingList m
        (s.waitingList m ++ [s.currentThread c])).setBlockLock (s.currentThread c) (some c) := by
  simp only [CleanupState.wait] at h
  split_ifs at h with hfree
  exact ⟨hfree,(Option.some.inj h).symm⟩

omit [DecidableEq Cpu] [DecidableEq Thread] [DecidableEq Process] [DecidableEq Mutex] in
private theorem unblock_processDestroy (p : Process) :
    .threadUnblock t ∉ processDestroy objects p := by
  unfold processDestroy
  split <;> simp

theorem cleanupRun_cases (h : cleanupRun objects s c = some s') : CleanupEffect objects s c s' := by
  simp only [cleanupRun] at h
  split at h
  · rename_i hcalls
    split_ifs at h with hidle
    obtain rfl := Option.some.inj h
    exact .takeBlockLock hidle.1 hcalls hidle.2
  · rename_i m calls hcalls
    split_ifs at h with hown hfree
    · obtain ⟨_,_,hs⟩ := Option.bind_eq_some_iff.mp h
      obtain rfl := Option.some.inj hs
      exact .own rfl rfl rfl rfl rfl rfl (by simp [hcalls]) (fun t ht => by rwa [hcalls])
    · obtain rfl := Option.some.inj h
      exact .own rfl rfl rfl rfl rfl rfl (by simp [hcalls]) (fun t ht => by rwa [hcalls])
    · obtain ⟨hlock,rfl⟩ := wait_eq h
      exact .wait (Or.inl ⟨rfl,hfree⟩) hcalls hown hlock
  · rename_i m calls hcalls
    split_ifs at h with hown
    · obtain rfl := Option.some.inj h
      exact .own rfl rfl rfl rfl rfl rfl (by simp [hcalls]) (fun t ht => by rwa [hcalls])
    · obtain ⟨hlock,rfl⟩ := wait_eq h
      exact .wait (Or.inr rfl) hcalls hown hlock
  · rename_i m calls hcalls
    obtain ⟨_,_,h⟩ := Option.bind_eq_some_iff.mp h
    split_ifs at h with hdepth
    · obtain rfl := Option.some.inj h
      exact .own rfl rfl rfl rfl rfl rfl (by simp [hcalls]) (fun t ht => by rwa [hcalls])
    · split at h
      · obtain rfl := Option.some.inj h
        exact .own rfl rfl rfl rfl rfl rfl (by simp [hcalls]) (fun t ht => by rwa [hcalls])
      · rename_i t waiting hlist
        obtain rfl := Option.some.inj h
        exact .handOver hcalls hlist
  · rename_i t calls hcalls
    split_ifs at h with hfree
    obtain ⟨_,hblocked,hs⟩ := Option.bind_eq_some_iff.mp h
    obtain rfl := Option.some.inj hs
    simp only [assert_eq_some,decide_eq_true_eq] at hblocked
    exact .unblock hcalls hfree hblocked
  · rename_i calls hcalls
    obtain ⟨_,_,hs⟩ := Option.bind_eq_some_iff.mp h
    exact .block hcalls hs
  · rename_i calls hcalls
    exact .yield hcalls h
  · rename_i calls hcalls
    exact .exit hcalls h
  · rename_i calls hcalls
    split at h
    · obtain rfl := Option.some.inj h
      exact .own rfl rfl rfl rfl rfl rfl (by simp [hcalls]) (fun t ht => by rwa [hcalls])
    · rename_i prev hprev
      split_ifs at h with hown hdying
      · obtain ⟨_,_,hs⟩ := Option.bind_eq_some_iff.mp h
        obtain rfl := Option.some.inj hs
        exact .releaseBlockLock hcalls hown
      · obtain rfl := Option.some.inj h
        exact .own rfl rfl rfl rfl rfl rfl (by simp [hcalls]) (fun t ht => by simpa [hcalls] using ht)
      · obtain rfl := Option.some.inj h
        exact .own rfl rfl rfl rfl rfl rfl (by simp [hcalls]) (fun t ht => by rwa [hcalls])
  · rename_i calls hcalls
    obtain rfl := Option.some.inj h
    exact .own rfl rfl rfl rfl rfl rfl (by simp [hcalls]) (fun t ht => by rwa [hcalls])
  · rename_i t' calls hcalls
    obtain ⟨_,_,hs⟩ := Option.bind_eq_some_iff.mp h
    obtain rfl := Option.some.inj hs
    refine .own rfl rfl rfl rfl rfl rfl (by simp [hcalls]) (fun t ht => ?_)
    rw [hcalls]
    split at ht <;> simpa using ht
  · rename_i t' calls hcalls
    obtain ⟨_,_,hs⟩ := Option.bind_eq_some_iff.mp h
    obtain rfl := Option.some.inj hs
    refine .own rfl rfl rfl rfl rfl rfl (by simp [hcalls]) (fun t ht => ?_)
    rw [hcalls]
    split at ht <;> simpa using ht
  · rename_i p calls hcalls
    obtain ⟨_,_,hs⟩ := Option.bind_eq_some_iff.mp h
    obtain rfl := Option.some.inj hs
    refine .own rfl rfl rfl rfl rfl rfl (by simp [hcalls]) (fun t ht => ?_)
    rw [hcalls]
    split at ht
    · exact (List.mem_append.mp ht).resolve_left (unblock_processDestroy p)
    · exact ht

omit [DecidableEq Cpu] [DecidableEq Thread] [DecidableEq Process] [DecidableEq Mutex] in
theorem CleanupState.not_waits {call : ThreadCall Thread Process Mutex}
    (hcalls : s.calls (s.currentThread c) = call :: calls) (hcall : call ≠ .threadBlock) :
    ¬s.Waits objects (s.currentThread c) m := by
  intro hw
  obtain ⟨⟨rest,hrest⟩,_⟩ := hw.current rfl
  rw [hrest] at hcalls
  exact hcall (List.cons.inj hcalls).1.symm

omit [DecidableEq Cpu] [DecidableEq Process] [DecidableEq Mutex] [DecidableEq Thread] in
theorem IdleInv.tail (h : IdleInv objects s) {call : ThreadCall Thread Process Mutex}
    (hcalls : s.calls u = call :: calls) : .threadUnblock t ∉ calls := by
  have htail := h.unblocksNext u t
  rwa [hcalls] at htail

omit [DecidableEq Cpu] [DecidableEq Process] [DecidableEq Mutex] in
theorem IdleInv.takeBlockLock (h : IdleInv objects s)
    (hcalls : s.calls (s.currentThread c) = []) :
    IdleInv objects
      ((s.setCalls (s.currentThread c) [.threadBlock]).setBlockLock (s.currentThread c) (some c)) := by
  refine h.setCalls rfl rfl rfl ?_ rfl rfl (by simp [hcalls]) (by simp)
  intro t c' hne _ hown
  simpa only [CleanupState.setBlockLock,CleanupState.setCalls,Function.update_of_ne hne] using hown

omit [DecidableEq Cpu] [DecidableEq Process] [DecidableEq Mutex] in
theorem IdleInv.releaseBlockLock (h : IdleInv objects s) {prev : Thread}
    (hcalls : s.calls (s.currentThread c) = .threadCleanupPostSchedule :: calls)
    (hown : s.blockLock prev = some c) :
    IdleInv objects ((s.setCalls (s.currentThread c) calls).setBlockLock prev none) := by
  refine h.setCalls rfl rfl rfl ?_ rfl rfl (by simp [hcalls]) (fun t => h.tail hcalls)
  intro t c' hne hcurrent hlock
  have hprev : t ≠ prev := by
    rintro rfl
    rw [hown] at hlock
    rw [Option.some.inj hlock] at hne
    exact hne hcurrent.symm
  simpa only [CleanupState.setBlockLock,CleanupState.setCalls,Function.update_of_ne hprev] using hlock

omit [DecidableEq Cpu] [DecidableEq Process] in
theorem IdleInv.wait (h : IdleInv objects s) (hidle : ∀ c', objects.idleThread c' ≠ s.currentThread c)
    {call : ThreadCall Thread Process Mutex} (hcall : call ≠ .threadBlock)
    (hcalls : s.calls (s.currentThread c) = call :: calls) :
    IdleInv objects
      (((s.setCalls (s.currentThread c) (.threadBlock :: .mutexLoop m :: calls)).setWaitingList m
        (s.waitingList m ++ [s.currentThread c])).setBlockLock (s.currentThread c) (some c)) := by
  set t₀ := s.currentThread c with ht₀
  set s' := ((s.setCalls t₀ (.threadBlock :: .mutexLoop m :: calls)).setWaitingList m
    (s.waitingList m ++ [t₀])).setBlockLock t₀ (some c) with hs'
  have hnot : ∀ m', ¬s.Waits objects t₀ m' := fun m' => CleanupState.not_waits hcalls hcall
  have hwaits : ∀ t m', s.Waits objects t m' → s'.Waits objects t m' := by
    intro t m' hw
    have hne : t ≠ t₀ := fun heq => hnot m' (heq ▸ hw)
    refine hw.frame (Function.update_of_ne hne _ _) rfl (fun _ => Iff.rfl) ?_
    intro c' _ hown
    rw [← hown]
    exact Function.update_of_ne hne _ _
  have hself : s'.Waits objects t₀ m :=
    ⟨hidle,Or.inl ⟨c,calls,rfl,Function.update_self _ _ _,Function.update_self _ _ _⟩⟩
  have hlist : ∀ m' t, t ∈ s'.waitingList m' → t ∈ s.waitingList m' ∨ m' = m ∧ t = t₀ := by
    intro m' t ht
    by_cases hm : m' = m
    · simpa [hs',CleanupState.setWaitingList,CleanupState.setBlockLock,hm] using ht
    · left
      simpa only [hs',CleanupState.setWaitingList,CleanupState.setBlockLock,CleanupState.setCalls,
        Function.update_of_ne hm] using ht
  have hunblocks : ∀ u t, s'.Unblocks u t → s.Unblocks u t := by
    intro u t hu
    by_cases hne : u = t₀
    · rw [CleanupState.Unblocks,hne] at hu
      simp [hs',CleanupState.setWaitingList,CleanupState.setBlockLock,CleanupState.setCalls] at hu
    · simpa only [CleanupState.Unblocks,hs',CleanupState.setWaitingList,CleanupState.setBlockLock,
        CleanupState.setCalls,Function.update_of_ne hne] using hu
  refine ⟨h.distinct,h.current,h.idle,h.nodup,h.ready,?_,?_,?_,?_,?_⟩
  · intro m' t ht
    rcases hlist m' t ht with hold | ⟨rfl,rfl⟩
    · exact hwaits t m' (h.waits m' t hold)
    · exact hself
  · intro m'
    by_cases hm : m' = m
    · subst hm
      have hfresh : t₀ ∉ s.waitingList m' := fun hmem => hnot m' (h.waits m' t₀ hmem)
      simpa [hs',CleanupState.setWaitingList,CleanupState.setBlockLock,List.nodup_append,
        h.waitingNodup m'] using fun x hx (heq : x = t₀) => hfresh (by rw [← heq]; exact hx)
    · simpa only [hs',CleanupState.setWaitingList,CleanupState.setBlockLock,CleanupState.setCalls,
        Function.update_of_ne hm] using h.waitingNodup m'
  · intro u t hu
    obtain ⟨⟨m₁,hm₁⟩,hout⟩ := h.unblocks u t (hunblocks u t hu)
    refine ⟨⟨m₁,hwaits t m₁ hm₁⟩,?_⟩
    intro m' ht
    rcases hlist m' t ht with hold | ⟨_,rfl⟩
    · exact hout m' hold
    · exact hnot m₁ hm₁
  · intro u u' t hu hu'
    exact h.unblocksOne u u' t (hunblocks u t hu) (hunblocks u' t hu')
  · intro u t hmem
    by_cases hne : u = t₀
    · have hrest : .threadUnblock t ∉ calls := h.tail hcalls
      simp [hs',hne,CleanupState.setWaitingList,CleanupState.setBlockLock,CleanupState.setCalls,
        hrest] at hmem
    · have hrest := h.unblocksNext u t
      simp only [hs',CleanupState.setWaitingList,CleanupState.setBlockLock,CleanupState.setCalls,
        Function.update_of_ne hne] at hmem
      exact hrest hmem

omit [DecidableEq Cpu] [DecidableEq Process] in
theorem IdleInv.handOver (h : IdleInv objects s) {waiting : List Thread}
    (hcalls : s.calls (s.currentThread c) = .mutexRelease m :: calls)
    (hlist : s.waitingList m = t :: waiting) :
    IdleInv objects
      (((s.setCalls (s.currentThread c) (.threadUnblock t :: calls)).setWaitingList m
        waiting).setHolder m (some t) 1) := by
  set t₀ := s.currentThread c with ht₀
  set s' := ((s.setCalls t₀ (.threadUnblock t :: calls)).setWaitingList m waiting).setHolder m
    (some t) 1 with hs'
  have hnot : ∀ m', ¬s.Waits objects t₀ m' := fun m' => CleanupState.not_waits hcalls (by simp)
  have hwaits : ∀ x m', s.Waits objects x m' → s'.Waits objects x m' := by
    intro x m' hw
    have hne : x ≠ t₀ := fun heq => hnot m' (heq ▸ hw)
    exact hw.frame (Function.update_of_ne hne _ _) rfl (fun _ => Iff.rfl) (fun _ _ hown => hown)
  have hfirst : s.Waits objects t m := h.waits m t (by simp [hlist])
  have hnodup := h.waitingNodup m
  rw [hlist] at hnodup
  obtain ⟨hfresh,hrest⟩ := List.nodup_cons.mp hnodup
  have hsub : ∀ m' x, x ∈ s'.waitingList m' → x ∈ s.waitingList m' := by
    intro m' x hx
    by_cases hm : m' = m
    · subst hm
      rw [hlist]
      apply List.mem_cons_of_mem
      simpa [hs',CleanupState.setWaitingList,CleanupState.setHolder] using hx
    · simpa only [hs',CleanupState.setWaitingList,CleanupState.setHolder,CleanupState.setCalls,
        Function.update_of_ne hm] using hx
  have hunblocks : ∀ u x, s'.Unblocks u x → s.Unblocks u x ∨ u = t₀ ∧ x = t := by
    intro u x hu
    by_cases hne : u = t₀
    · right
      rw [CleanupState.Unblocks,hne] at hu
      simp only [hs',CleanupState.setWaitingList,CleanupState.setHolder,CleanupState.setCalls,
        Function.update_self,List.head?_cons,Option.some.injEq,ThreadCall.threadUnblock.injEq] at hu
      exact ⟨hne,hu.symm⟩
    · left
      simpa only [CleanupState.Unblocks,hs',CleanupState.setWaitingList,CleanupState.setHolder,
        CleanupState.setCalls,Function.update_of_ne hne] using hu
  have hother : ∀ u, ¬s.Unblocks u t := by
    intro u hu
    exact (h.unblocks u t hu).2 m (by simp [hlist])
  refine ⟨h.distinct,h.current,h.idle,h.nodup,h.ready,?_,?_,?_,?_,?_⟩
  · intro m' x hx
    exact hwaits x m' (h.waits m' x (hsub m' x hx))
  · intro m'
    by_cases hm : m' = m
    · subst hm
      simpa [hs',CleanupState.setWaitingList,CleanupState.setHolder] using hrest
    · simpa only [hs',CleanupState.setWaitingList,CleanupState.setHolder,CleanupState.setCalls,
        Function.update_of_ne hm] using h.waitingNodup m'
  · intro u x hu
    rcases hunblocks u x hu with hold | ⟨_,rfl⟩
    · obtain ⟨⟨m₁,hm₁⟩,hout⟩ := h.unblocks u x hold
      exact ⟨⟨m₁,hwaits x m₁ hm₁⟩,fun m' hx => hout m' (hsub m' x hx)⟩
    · refine ⟨⟨m,hwaits x m hfirst⟩,?_⟩
      intro m' hx
      have hm := hfirst.unique (h.waits m' x (hsub m' x hx))
      subst hm
      simp only [hs',CleanupState.setWaitingList,CleanupState.setHolder,Function.update_self] at hx
      exact hfresh hx
  · intro u u' x hu hu'
    rcases hunblocks u x hu with hold | ⟨rfl,rfl⟩
    · rcases hunblocks u' x hu' with hold' | ⟨_,rfl⟩
      · exact h.unblocksOne u u' x hold hold'
      · exact absurd hold (hother u)
    · rcases hunblocks u' x hu' with hold' | ⟨rfl,_⟩
      · exact absurd hold' (hother u')
      · rfl
  · intro u x hmem
    by_cases hne : u = t₀
    · subst hne
      simp only [hs',CleanupState.setWaitingList,CleanupState.setHolder,CleanupState.setCalls,
        Function.update_self,List.tail_cons] at hmem
      exact h.tail hcalls hmem
    · simp only [hs',CleanupState.setWaitingList,CleanupState.setHolder,CleanupState.setCalls,
        Function.update_of_ne hne] at hmem
      exact h.unblocksNext u x hmem

omit [DecidableEq Cpu] [DecidableEq Process] [DecidableEq Mutex] in
theorem IdleInv.unblock (h : IdleInv objects s)
    (hcalls : s.calls (s.currentThread c) = .threadUnblock t :: calls) (hfree : s.blockLock t = none) :
    IdleInv objects
      ({ s.setCalls (s.currentThread c) calls with
        readyThreadsList := s.readyThreadsList ++ [t] }.setState t .ready) := by
  set t₀ := s.currentThread c with ht₀
  set s' := { s.setCalls t₀ calls with
    readyThreadsList := s.readyThreadsList ++ [t] }.setState t .ready with hs'
  have hnot : ∀ m', ¬s.Waits objects t₀ m' := fun m' => CleanupState.not_waits hcalls (by simp)
  have hwoken : s.Unblocks t₀ t := by simp [CleanupState.Unblocks,hcalls]
  obtain ⟨⟨m₁,hidle,hplace⟩,hunlisted⟩ := h.unblocks t₀ t hwoken
  obtain ⟨hblocked,hoff,_⟩ := hplace.resolve_left (by
    rintro ⟨c',_,_,hown,_⟩
    rw [hfree] at hown
    cases hown)
  have hwaits : ∀ x m', x ≠ t → s.Waits objects x m' → s'.Waits objects x m' := by
    intro x m' hx hw
    have hne : x ≠ t₀ := fun heq => hnot m' (heq ▸ hw)
    exact hw.frame (Function.update_of_ne hne _ _) (Function.update_of_ne hx _ _)
      (fun _ => Iff.rfl) (fun _ _ hown => hown)
  have hunblocks : ∀ u x, s'.Unblocks u x → u ≠ t₀ ∧ s.Unblocks u x := by
    intro u x hu
    by_cases hne : u = t₀
    · rw [CleanupState.Unblocks,hne] at hu
      simp only [hs',CleanupState.setState,CleanupState.setCalls,Function.update_self] at hu
      exact absurd (List.mem_of_mem_head? hu) (h.tail hcalls)
    · refine ⟨hne,?_⟩
      simpa only [CleanupState.Unblocks,hs',CleanupState.setState,CleanupState.setCalls,
        Function.update_of_ne hne] using hu
  refine ⟨h.distinct,h.current,h.idle,?_,?_,?_,h.waitingNodup,?_,?_,?_⟩
  · have hfresh : t ∉ s.readyThreadsList := by
      intro hmem
      rw [(h.ready t hmem).1] at hblocked
      cases hblocked
    simpa [hs',CleanupState.setState,List.nodup_append,h.nodup] using
      fun x hx (heq : x = t) => hfresh (by rw [← heq]; exact hx)
  · intro x hx
    rcases List.mem_append.mp hx with hold | hnew
    · obtain ⟨hstate,hrest⟩ := h.ready x hold
      refine ⟨?_,hrest⟩
      by_cases hx : x = t
      · rw [hx]
        exact Function.update_self _ _ _
      · rw [← hstate]
        exact Function.update_of_ne hx _ _
    · obtain rfl := List.mem_singleton.mp hnew
      exact ⟨Function.update_self _ _ _,hoff,hidle⟩
  · intro m' x hx
    have hne : x ≠ t := by
      rintro rfl
      exact hunlisted m' hx
    exact hwaits x m' hne (h.waits m' x hx)
  · intro u x hu
    obtain ⟨hne,hold⟩ := hunblocks u x hu
    have hx : x ≠ t := by
      rintro rfl
      exact hne (h.unblocksOne u t₀ x hold hwoken)
    obtain ⟨⟨m₂,hm₂⟩,hout⟩ := h.unblocks u x hold
    exact ⟨⟨m₂,hwaits x m₂ hx hm₂⟩,hout⟩
  · intro u u' x hu hu'
    exact h.unblocksOne u u' x (hunblocks u x hu).2 (hunblocks u' x hu').2
  · intro u x hmem
    by_cases hne : u = t₀
    · subst hne
      simp only [hs',CleanupState.setState,CleanupState.setCalls,Function.update_self] at hmem
      exact h.tail hcalls (List.mem_of_mem_tail hmem)
    · simp only [hs',CleanupState.setState,CleanupState.setCalls,Function.update_of_ne hne] at hmem
      exact h.unblocksNext u x hmem

variable (objects) in
/-- The thread a CPU switches to: the first of the ready list, else the idle thread of the CPU. -/
def CleanupState.Next (s : CleanupState Cpu Thread Process Mutex) (c : Cpu) (next : Thread)
    (rest : List Thread) : Prop :=
  s.readyThreadsList = next :: rest ∧ s.state next = .ready ∨
    s.readyThreadsList = [] ∧ rest = [] ∧ next = objects.idleThread c

/-- The state behind a switch from the current thread to `next`. -/
def CleanupState.switchTo (s : CleanupState Cpu Thread Process Mutex) (c : Cpu)
    (calls : List (ThreadCall Thread Process Mutex)) (next : Thread) (rest : List Thread) :
    CleanupState Cpu Thread Process Mutex :=
  { s.setCalls (s.currentThread c) (.threadCleanupPostSchedule :: calls) with
    previousThread := Function.update s.previousThread c (some (s.currentThread c))
    readyThreadsList := rest
    currentThread := Function.update s.currentThread c next }

omit [DecidableEq Process] [DecidableEq Mutex] in
theorem CleanupState.schedule_eq (h : s.schedule objects c calls = some s') :
    ∃ next rest, s.Next objects c next rest ∧ s' = s.switchTo c calls next rest := by
  unfold CleanupState.schedule at h
  simp only at h
  split at h
  · rename_i hlist
    obtain rfl := Option.some.inj h
    refine ⟨objects.idleThread c,[],Or.inr ⟨hlist,rfl,rfl⟩,?_⟩
    rw [CleanupState.switchTo,← hlist]
    rfl
  · rename_i next rest hlist
    obtain ⟨_,hstate,hs⟩ := Option.bind_eq_some_iff.mp h
    obtain rfl := Option.some.inj hs
    simp only [assert_eq_some,decide_eq_true_eq] at hstate
    exact ⟨next,rest,Or.inl ⟨hlist,hstate⟩,rfl⟩

variable (objects) in
/-- `s₀` is `s` up to the state of the thread that leaves its CPU and its place on the ready list. -/
structure CleanupState.Leaves (s s₀ : CleanupState Cpu Thread Process Mutex) (c : Cpu)
    (calls : List (ThreadCall Thread Process Mutex)) : Prop where
  currentThread : s₀.currentThread = s.currentThread
  blockLock : s₀.blockLock = s.blockLock
  waitingList : s₀.waitingList = s.waitingList
  state : ∀ x, x ≠ s.currentThread c → s₀.state x = s.state x
  nodup : s₀.readyThreadsList.Nodup
  ready : ∀ x ∈ s₀.readyThreadsList, x ∈ s.readyThreadsList ∨
    x = s.currentThread c ∧ s₀.state x = .ready ∧ ∀ c', objects.idleThread c' ≠ x
  waits : ∀ m, s.Waits objects (s.currentThread c) m → s₀.state (s.currentThread c) = .blocked ∧
    ∃ rest, calls = .mutexLoop m :: rest
  unblocks : ∀ t, .threadUnblock t ∉ calls
  calls : s₀.calls = s.calls

section Switch

variable {s₀ : CleanupState Cpu Thread Process Mutex} {next : Thread} {rest : List Thread}

omit [DecidableEq Cpu] [DecidableEq Thread] [DecidableEq Process] [DecidableEq Mutex] in
private theorem CleanupState.Next.mem (hnext : s₀.Next objects c next rest) :
    ∀ x ∈ rest, x ∈ s₀.readyThreadsList := by
  intro x hx
  rcases hnext with ⟨hlist,_⟩ | ⟨_,hrest,_⟩
  · rw [hlist]
    exact List.mem_cons_of_mem _ hx
  · rw [hrest] at hx
    cases hx

omit [DecidableEq Cpu] [DecidableEq Thread] [DecidableEq Process] [DecidableEq Mutex] in
private theorem CleanupState.Next.nodup (hnext : s₀.Next objects c next rest)
    (hnodup : s₀.readyThreadsList.Nodup) : rest.Nodup ∧ next ∉ rest := by
  rcases hnext with ⟨hlist,_⟩ | ⟨_,hrest,_⟩
  · rw [hlist] at hnodup
    exact (List.nodup_cons.mp hnodup).symm
  · simp [hrest]

omit [DecidableEq Cpu] [DecidableEq Thread] [DecidableEq Process] [DecidableEq Mutex] in
private theorem IdleInv.listed (h : IdleInv objects s) (hleaves : s.Leaves objects s₀ c calls) :
    ∀ x ∈ s₀.readyThreadsList, s₀.state x = .ready ∧
      (∀ c', c' ≠ c → s.currentThread c' ≠ x) ∧ ∀ c', objects.idleThread c' ≠ x := by
  intro x hx
  rcases hleaves.ready x hx with hold | ⟨rfl,hx,hidle⟩
  · obtain ⟨hx,hoff,hidle⟩ := h.ready x hold
    exact ⟨by rw [hleaves.state x fun heq => hoff c heq.symm,hx],fun c' _ => hoff c',hidle⟩
  · exact ⟨hx,fun c' hne heq => hne (h.current heq),hidle⟩

omit [DecidableEq Cpu] [DecidableEq Thread] [DecidableEq Process] [DecidableEq Mutex] in
private theorem IdleInv.next_off (h : IdleInv objects s) (hleaves : s.Leaves objects s₀ c calls)
    (hnext : s₀.Next objects c next rest) : ∀ c', c' ≠ c → s.currentThread c' ≠ next := by
  intro c' hne heq
  rcases hnext with ⟨hlist,_⟩ | ⟨_,_,rfl⟩
  · exact (h.listed hleaves next (by simp [hlist])).2.1 c' hne heq
  · exact hne (h.idle c' c heq)

omit [DecidableEq Cpu] [DecidableEq Process] [DecidableEq Mutex] in
private theorem IdleInv.waits_ne_next (h : IdleInv objects s)
    (hleaves : s.Leaves objects s₀ c calls) (hnext : s₀.Next objects c next rest) {x : Thread}
    (hw : s.Waits objects x m) : x ≠ next := by
  rintro rfl
  rcases hnext with ⟨hlist,_⟩ | ⟨_,_,rfl⟩
  · have hmem : x ∈ s₀.readyThreadsList := by simp [hlist]
    have hx := (h.listed hleaves x hmem).1
    by_cases hne : x = s.currentThread c
    · rw [hne,(hleaves.waits m (hne ▸ hw)).1] at hx
      cases hx
    · rcases hleaves.ready x hmem with hold | ⟨heq,_⟩
      · rcases hw with ⟨_,⟨c',_,hc',_⟩ | ⟨hblocked,_⟩⟩
        · exact (h.ready x hold).2.1 c' hc'
        · rw [(h.ready x hold).1] at hblocked
          cases hblocked
      · exact hne heq
  · exact hw.1 c rfl

omit [DecidableEq Process] [DecidableEq Mutex] in
private theorem IdleInv.waits_switch (h : IdleInv objects s)
    (hleaves : s.Leaves objects s₀ c calls) (hnext : s₀.Next objects c next rest) {x : Thread}
    (hw : s.Waits objects x m) : (s₀.switchTo c calls next rest).Waits objects x m := by
  have hrest : ∀ c', c' ≠ c → (s₀.switchTo c calls next rest).currentThread c' =
      s.currentThread c' := by
    intro c' hc
    rw [← hleaves.currentThread]
    exact Function.update_of_ne hc _ _
  have hcurrent : (s₀.switchTo c calls next rest).currentThread c = next :=
    Function.update_self _ _ _
  by_cases hne : x = s.currentThread c
  · obtain ⟨hblocked,later,rfl⟩ := hleaves.waits m (hne ▸ hw)
    rw [← hne] at hblocked
    refine ⟨hw.1,Or.inr ⟨hblocked,?_,later,?_⟩⟩
    · intro c' heq
      by_cases hc : c' = c
      · rw [hc,hcurrent] at heq
        exact h.waits_ne_next hleaves hnext hw heq.symm
      · rw [hrest c' hc,hne] at heq
        exact hc (h.current heq)
    · rw [hne,← hleaves.currentThread]
      exact Function.update_self _ _ _
  · refine hw.frame ?_ (hleaves.state x hne) ?_ ?_
    · rw [← hleaves.calls]
      exact Function.update_of_ne (hleaves.currentThread ▸ hne) _ _
    · intro c'
      by_cases hc : c' = c
      · rw [hc,hcurrent]
        exact ⟨fun heq => absurd heq.symm (h.waits_ne_next hleaves hnext hw),
          fun heq => absurd heq.symm hne⟩
      · rw [hrest c' hc]
    · intro c' _ hown
      rw [← hown,← hleaves.blockLock]
      rfl

omit [DecidableEq Process] [DecidableEq Mutex] in
private theorem CleanupState.Leaves.unblocks_of_switch (hleaves : s.Leaves objects s₀ c calls)
    {u x : Thread} (hu : (s₀.switchTo c calls next rest).Unblocks u x) : s.Unblocks u x := by
  by_cases hne : u = s₀.currentThread c
  · rw [CleanupState.Unblocks,hne] at hu
    simp [CleanupState.switchTo,CleanupState.setCalls] at hu
  · rw [CleanupState.Unblocks,← hleaves.calls]
    simpa only [CleanupState.Unblocks,CleanupState.switchTo,CleanupState.setCalls,
      Function.update_of_ne hne] using hu

omit [DecidableEq Process] [DecidableEq Mutex] in
private theorem IdleInv.current_switch (h : IdleInv objects s)
    (hleaves : s.Leaves objects s₀ c calls) (hnext : s₀.Next objects c next rest) :
    Function.Injective (s₀.switchTo c calls next rest).currentThread := by
  have hoff := h.next_off hleaves hnext
  intro c₁ c₂ heq
  simp only [CleanupState.switchTo,hleaves.currentThread] at heq
  by_cases h₁ : c₁ = c <;> by_cases h₂ : c₂ = c
  · rw [h₁,h₂]
  · rw [h₁,Function.update_self,Function.update_of_ne h₂] at heq
    exact absurd heq.symm (hoff c₂ h₂)
  · rw [h₂,Function.update_self,Function.update_of_ne h₁] at heq
    exact absurd heq (hoff c₁ h₁)
  · rw [Function.update_of_ne h₁,Function.update_of_ne h₂] at heq
    exact h.current heq

omit [DecidableEq Process] [DecidableEq Mutex] in
private theorem IdleInv.idle_switch (h : IdleInv objects s)
    (hleaves : s.Leaves objects s₀ c calls) (hnext : s₀.Next objects c next rest) (c₁ c₂ : Cpu)
    (heq : (s₀.switchTo c calls next rest).currentThread c₁ = objects.idleThread c₂) : c₁ = c₂ := by
  simp only [CleanupState.switchTo,hleaves.currentThread] at heq
  by_cases h₁ : c₁ = c
  · rw [h₁,Function.update_self] at heq
    rcases hnext with ⟨hlist,_⟩ | ⟨_,_,rfl⟩
    · exact absurd heq.symm ((h.listed hleaves next (by simp [hlist])).2.2 c₂)
    · rw [h₁,h.distinct heq]
  · rw [Function.update_of_ne h₁] at heq
    exact h.idle c₁ c₂ heq

omit [DecidableEq Process] [DecidableEq Mutex] in
theorem IdleInv.schedule (h : IdleInv objects s) (hs : s₀.schedule objects c calls = some s')
    (hleaves : s.Leaves objects s₀ c calls) : IdleInv objects s' := by
  obtain ⟨next,rest,hnext,rfl⟩ := CleanupState.schedule_eq hs
  have hwaits : ∀ x m, s.Waits objects x m → (s₀.switchTo c calls next rest).Waits objects x m :=
    fun x m hw => h.waits_switch hleaves hnext hw
  have hlists : (s₀.switchTo c calls next rest).waitingList = s.waitingList := hleaves.waitingList
  refine ⟨h.distinct,h.current_switch hleaves hnext,h.idle_switch hleaves hnext,
    (hnext.nodup hleaves.nodup).1,?_,?_,?_,?_,?_,?_⟩
  · intro x hx
    obtain ⟨hstate,hother,hidle⟩ := h.listed hleaves x (hnext.mem x hx)
    refine ⟨hstate,?_,hidle⟩
    intro c' heq
    simp only [CleanupState.switchTo,hleaves.currentThread] at heq
    by_cases hc : c' = c
    · rw [hc,Function.update_self] at heq
      rw [← heq] at hx
      exact (hnext.nodup hleaves.nodup).2 hx
    · rw [Function.update_of_ne hc] at heq
      exact hother c' hc heq
  · intro m x hx
    rw [hlists] at hx
    exact hwaits x m (h.waits m x hx)
  · intro m
    rw [hlists]
    exact h.waitingNodup m
  · intro u x hu
    obtain ⟨⟨m,hm⟩,hout⟩ := h.unblocks u x (hleaves.unblocks_of_switch hu)
    rw [hlists]
    exact ⟨⟨m,hwaits x m hm⟩,hout⟩
  · intro u u' x hu hu'
    exact h.unblocksOne u u' x (hleaves.unblocks_of_switch hu) (hleaves.unblocks_of_switch hu')
  · intro u x hmem
    by_cases hne : u = s₀.currentThread c
    · simp only [hne,CleanupState.switchTo,CleanupState.setCalls,Function.update_self,
        List.tail_cons] at hmem
      exact hleaves.unblocks x hmem
    · simp only [CleanupState.switchTo,CleanupState.setCalls,Function.update_of_ne hne,
        hleaves.calls] at hmem
      exact h.unblocksNext u x hmem

end Switch

omit [DecidableEq Process] [DecidableEq Mutex] in
theorem IdleInv.yield (h : IdleInv objects s)
    (hcalls : s.calls (s.currentThread c) = .threadYield :: calls)
    (hs : ({ s with
      readyThreadsList :=
        if s.currentThread c = objects.idleThread c then s.readyThreadsList
        else s.readyThreadsList ++ [s.currentThread c] }.setState (s.currentThread c)
          .ready).schedule objects c calls = some s') : IdleInv objects s' := by
  have hnot : ∀ m', ¬s.Waits objects (s.currentThread c) m' :=
    fun m' => CleanupState.not_waits hcalls (by simp)
  have hstate : ∀ x, x ≠ s.currentThread c →
      Function.update s.state (s.currentThread c) .ready x = s.state x :=
    fun x hne => Function.update_of_ne hne _ _
  by_cases hidle : s.currentThread c = objects.idleThread c
  · rw [if_pos hidle] at hs
    exact h.schedule hs ⟨rfl,rfl,rfl,hstate,h.nodup,fun x hx => Or.inl hx,
      fun m hw => absurd hw (hnot m),fun t => h.tail hcalls,rfl⟩
  · rw [if_neg hidle] at hs
    refine h.schedule hs ⟨rfl,rfl,rfl,hstate,?_,?_,fun m hw => absurd hw (hnot m),
      fun t => h.tail hcalls,rfl⟩
    · have hfresh : s.currentThread c ∉ s.readyThreadsList :=
        fun hmem => (h.ready _ hmem).2.1 c rfl
      simpa [CleanupState.setState,List.nodup_append,h.nodup] using
        fun x hx (heq : x = s.currentThread c) => hfresh (by rw [← heq]; exact hx)
    · intro x hx
      rcases List.mem_append.mp hx with hold | hnew
      · exact Or.inl hold
      · obtain rfl := List.mem_singleton.mp hnew
        refine Or.inr ⟨rfl,Function.update_self _ _ _,?_⟩
        intro c' heq
        have hc := h.idle c c' heq.symm
        subst hc
        exact hidle heq.symm

theorem IdleInv.run (h : IdleInv objects s) (hguard : NoIdleContention objects s (.run c))
    (hs : cleanupRun objects s c = some s') : IdleInv objects s' := by
  cases cleanupRun_cases hs with
  | own hready hcurrent hstate hblock hwaiting hcalls hhead hsub =>
    refine h.setCalls hready hcurrent hstate ?_ hwaiting hcalls hhead ?_
    · intro t c' _ _ hown
      rw [hblock,hown]
    · exact fun t ht => h.unblocksNext _ t (hsub t ht)
  | takeBlockLock _ hcalls _ => exact h.takeBlockLock hcalls
  | @wait m call calls hcall hcalls hholder _ =>
    have hnot : call ≠ .threadBlock := by
      rcases hcall with ⟨rfl,_⟩ | rfl <;> simp
    refine h.wait ?_ hnot hcalls
    intro c' heq
    have hc := h.idle c c' heq.symm
    subst hc
    have hfree := hguard heq.symm
    rcases hcall with ⟨rfl,hheld⟩ | rfl <;>
      · rw [CleanupState.contends,hcalls] at hfree
        simp_all
  | handOver hcalls hlist => exact h.handOver hcalls hlist
  | unblock hcalls hfree _ => exact h.unblock hcalls hfree
  | releaseBlockLock hcalls hown => exact h.releaseBlockLock hcalls hown
  | @block calls s' hcalls hs =>
    refine h.schedule hs ⟨rfl,rfl,rfl,fun x hne => Function.update_of_ne hne _ _,h.nodup,
      fun x hx => Or.inl hx,?_,fun t => h.tail hcalls,rfl⟩
    intro m hw
    obtain ⟨⟨rest,hrest⟩,_⟩ := hw.current rfl
    rw [hcalls] at hrest
    exact ⟨Function.update_self _ _ _,rest,(List.cons.inj hrest).2⟩
  | yield hcalls hs => exact h.yield hcalls hs
  | exit hcalls hs =>
    exact h.schedule hs ⟨rfl,rfl,rfl,fun x hne => Function.update_of_ne hne _ _,h.nodup,
      fun x hx => Or.inl hx,fun m hw => absurd hw (CleanupState.not_waits hcalls (by simp)),
      fun t => by simp,rfl⟩

omit [DecidableEq Cpu] [DecidableEq Process] [DecidableEq Mutex] in
theorem IdleInv.push (h : IdleInv objects s)
    (hhead : (s.calls (s.currentThread c)).head? ≠ some .threadBlock)
    (hnone : ∀ t, .threadUnblock t ∉ calls) :
    IdleInv objects (s.setCalls (s.currentThread c) calls) :=
  h.setCalls rfl rfl rfl (fun _ _ _ _ hown => hown) rfl rfl hhead hnone

omit [DecidableEq Cpu] [DecidableEq Process] [DecidableEq Mutex] in
theorem IdleInv.enter (h : IdleInv objects s) {call : ThreadCall Thread Process Mutex}
    (hcall : ∀ t, call ≠ .threadUnblock t) (hs : s.enter objects c call = some s') :
    IdleInv objects s' := by
  unfold CleanupState.enter at hs
  split_ifs at hs with hempty
  obtain rfl := Option.some.inj hs
  refine h.push (by simp [hempty.1]) ?_
  intro t hmem
  exact hcall t (List.mem_singleton.mp hmem).symm

theorem IdleInv.step (h : IdleInv objects s) {action : CleanupAction Cpu Thread Process Mutex}
    (hguard : NoIdleContention objects s action) (hs : cleanupStep objects s action = some s') :
    IdleInv objects s' := by
  cases action with
  | run c => exact h.run hguard hs
  | preempt c =>
    simp only [cleanupStep] at hs
    split at hs
    · rename_i hcalls
      obtain rfl := Option.some.inj hs
      exact h.push (by simp [hcalls]) (by simp)
    · rename_i call calls hcalls
      split_ifs at hs with hinterruptible
      obtain rfl := Option.some.inj hs
      refine h.push ?_ ?_
      · rw [hcalls]
        rintro heq
        rw [Option.some.inj heq] at hinterruptible
        cases hinterruptible
      · intro t hmem
        rcases List.mem_cons.mp hmem with heq | hmem
        · cases heq
        · rcases List.mem_cons.mp hmem with rfl | hmem
          · cases hinterruptible
          · exact h.tail hcalls hmem
  | mutexAcquire c m => exact h.enter (by simp) hs
  | mutexRelease c m => exact h.enter (by simp) hs
  | threadYield c => exact h.enter (by simp) hs
  | threadExit c => exact h.enter (by simp) hs
  | threadCloseHandle c t => exact h.enter (by simp) hs
  | processCloseHandle c p => exact h.enter (by simp) hs

omit [DecidableEq Cpu] [DecidableEq Thread] [DecidableEq Process] [DecidableEq Mutex] in
theorem IdleInv.initial (h : s.Initial objects) : IdleInv objects s := by
  have hnone : ∀ u t, ThreadCall.threadUnblock t ∉ s.calls u := by
    intro u t
    rcases h.calls u with hcalls | hcalls <;> simp [hcalls]
  refine ⟨h.distinct,h.current,h.idle,h.nodup,h.ready,?_,?_,?_,?_,?_⟩
  · intro m t ht
    rw [h.waitingList m] at ht
    cases ht
  · intro m
    rw [h.waitingList m]
    exact List.nodup_nil
  · exact fun u t hu => absurd (List.mem_of_mem_head? hu) (hnone u t)
  · exact fun u _ t hu => absurd (List.mem_of_mem_head? hu) (hnone u t)
  · exact fun u t hmem => hnone u t (List.mem_of_mem_tail hmem)

omit [DecidableEq Cpu] [DecidableEq Thread] [DecidableEq Process] [DecidableEq Mutex] in
theorem IdleInv.unlinked (h : IdleInv objects s) : s.IdleThreadsUnlinked objects :=
  ⟨h.waitingNodup,fun c => ⟨fun m hmem => (h.waits m _ hmem).1 c rfl,
    fun hmem => (h.ready _ hmem).2.2 c rfl⟩⟩

theorem idle_thread_waits (hidle : s.currentThread c = objects.idleThread c)
    (hheld : s.contends (s.currentThread c) = true) (hs : cleanupRun objects s c = some s') :
    ∃ m, objects.idleThread c ∈ s'.waitingList m := by
  have hlinked : ∀ m calls, s.wait c m calls = some s' → objects.idleThread c ∈ s'.waitingList m := by
    intro m calls hw
    obtain ⟨_,rfl⟩ := wait_eq hw
    simp [CleanupState.setBlockLock,CleanupState.setWaitingList,CleanupState.setCalls,hidle]
  unfold CleanupState.contends at hheld
  split at hheld
  · rename_i m calls hcalls
    obtain ⟨hheld,hother⟩ := of_decide_eq_true hheld
    simp only [cleanupRun,hcalls,if_neg hother,if_neg hheld] at hs
    exact ⟨m,hlinked m calls hs⟩
  · rename_i m calls hcalls
    simp only [cleanupRun,hcalls,if_neg (of_decide_eq_true hheld)] at hs
    exact ⟨m,hlinked m calls hs⟩
  · cases hheld

/-- The idle threads stay unlinked for as long as they find every mutex free, and no longer. -/
theorem idle_threads_unlinked
    (h : (cleanupSystem objects).ReachableUnder (NoIdleContention objects) s) :
    s.IdleThreadsUnlinked objects ∧ ∀ action s', cleanupStep objects s action = some s' →
      (s'.IdleThreadsUnlinked objects ↔ NoIdleContention objects s action) := by
  have hinv : IdleInv objects s :=
    h.invariant (fun _ => .initial) (fun _ _ _ _ h hguard hs => h.step hguard hs)
  refine ⟨hinv.unlinked,?_⟩
  intro action s' hs
  constructor
  · intro hunlinked
    cases action with
    | run c =>
      intro hidle
      by_contra hheld
      obtain ⟨m,hmem⟩ := idle_thread_waits hidle (Bool.not_eq_false _ ▸ hheld) hs
      exact (hunlinked.2 c).1 m hmem
    | _ => trivial
  · exact fun hguard => (hinv.step hguard hs).unlinked

instance decidableNoIdleContention (s : CleanupState Cpu Thread Process Mutex) :
    ∀ action, Decidable (NoIdleContention objects s action)
  | .run _ => inferInstanceAs (Decidable (_ → _))
  | .preempt _ | .mutexAcquire _ _ | .mutexRelease _ _ | .threadYield _ | .threadExit _
  | .threadCloseHandle _ _ | .processCloseHandle _ _ => .isTrue trivial

end Cleanup

/-- Thread 0 is the only one of process 1; threads 2 and 3 are idle. -/
def lastThread : CleanupObjects (Fin 2) (Fin 4) (Fin 2) (Fin 2) where
  idleThread c := if c = 0 then 2 else 3
  process t := if t = 0 then 1 else 0
  processId p := p.val
  processListLock := 0
  pidBitmapLock := 1
  maxRecursivityDepth _ := 1

def lastThreadStart : CleanupState (Fin 2) (Fin 4) (Fin 2) (Fin 2) where
  readyThreadsList := []
  currentThread c := if c = 0 then 0 else 1
  previousThread _ := none
  calls t := if t.val < 2 then [] else [.threadCleanupPostSchedule]
  state _ := .ready
  blockLock _ := none
  refCnt _ := 1
  processRefCnt _ := 2
  numberOfThreads _ := 1
  holder _ := none
  currentRecursivityDepth _ := 0
  waitingList _ := []

theorem lastThreadStart_initial : lastThreadStart.Initial lastThread := by
  refine ⟨by decide,by decide,by decide,List.nodup_nil,by simp [lastThreadStart],?_,fun _ => rfl⟩
  decide

/-- Thread 1 holds the mutex of the list of processes while thread 0 exits. -/
def contendedExit : List (CleanupAction (Fin 2) (Fin 4) (Fin 2) (Fin 2)) :=
  [.mutexAcquire 1 0,.run 1,.threadExit 0] ++ List.replicate 10 (.run 0)

/-- The clean-up of an idle thread finds the mutexes free. -/
theorem idle_threads_unlinked_free : ∃ s : CleanupState (Fin 2) (Fin 4) (Fin 2) (Fin 2),
    (cleanupSystem lastThread).ReachableUnder (NoIdleContention lastThread) s ∧
    s.processRefCnt 1 = 0 ∧ s.currentThread 0 = 2 ∧ s.IdleThreadsUnlinked lastThread := by
  obtain ⟨s,hreach,hs⟩ := TransitionSystem.exists_reachable (cleanupSystem lastThread)
    (NoIdleContention lastThread) lastThreadStart lastThreadStart_initial
    (.threadExit 0 :: List.replicate 12 (.run 0))
    (fun s => decide (s.processRefCnt 1 = 0 ∧ s.currentThread 0 = 2))
    (by decide +kernel) (by decide +kernel)
  obtain ⟨hdestroyed,hcurrent⟩ := of_decide_eq_true hs
  exact ⟨s,hreach,hdestroyed,hcurrent,(idle_threads_unlinked hreach).1⟩

/-- The idle thread is put twice into the waiting list of the mutex, and then into the ready list. -/
theorem idle_thread_linked :
    (∃ s, (cleanupSystem lastThread).Reachable s ∧ s.waitingList 0 = [2,2]) ∧
    ∃ s, (cleanupSystem lastThread).Reachable s ∧ s.waitingList 0 = [2] ∧
      s.readyThreadsList = [2] := by
  constructor
  · obtain ⟨s,hreach,hs⟩ := TransitionSystem.exists_reachable (cleanupSystem lastThread)
      (fun _ _ => True) lastThreadStart lastThreadStart_initial contendedExit
      (fun s => decide (s.waitingList 0 = [2,2]))
      (TransitionSystem.runSatisfies_of_forall (fun _ _ => trivial) _ _) (by decide +kernel)
    exact ⟨s,hreach,of_decide_eq_true hs⟩
  · obtain ⟨s,hreach,hs⟩ := TransitionSystem.exists_reachable (cleanupSystem lastThread)
      (fun _ _ => True) lastThreadStart lastThreadStart_initial
      (contendedExit ++ [.mutexRelease 1 0,.run 1,.run 0,.run 0,.run 1])
      (fun s => decide (s.waitingList 0 = [2] ∧ s.readyThreadsList = [2]))
      (TransitionSystem.runSatisfies_of_forall (fun _ _ => trivial) _ _) (by decide +kernel)
    exact ⟨s,hreach,of_decide_eq_true hs⟩

end Hal9000
