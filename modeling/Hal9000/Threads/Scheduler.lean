import Hal9000.Common.Machine
import Hal9000.Framework.TransitionSystem

/-!
# The scheduler

The scheduling half of `thread.c` on any number of CPUs, one step for each lock taken or released
and each access to what another CPU may write. Both the lock of the ready list and the block lock
of a thread are taken by one thread and released by the thread that the CPU runs next. An idle
thread runs only `_IdleThread`, so that nobody unblocks it.
-/

namespace Hal9000

/-- What `ThreadCreateEx` has done with a thread. -/
inductive ThreadStage
  | absent
  | initialized
  | setUp
  /-- Returned to the caller, who may use it from then on. -/
  | started
  | idle
  deriving DecidableEq

/-- Who has written `Thread->Stack`. While the thread runs, what is stored there is not its
stack. -/
inductive ThreadStack
  | unset
  /-- `_ThreadSetupInitialState`; the thread has not run yet. -/
  | initial
  /-- `ThreadSwitch`, when the thread was last switched away from. -/
  | switched
  | inUse
  deriving DecidableEq

/-- Where `ThreadUnblock` returns to. -/
inductive UnblockCaller
  | thread
  | exit
  deriving DecidableEq

inductive SchedPc (Thread : Type)
  /-- Outside of the scheduler. -/
  | running
  | yieldLock
  | yieldInsert
  | tookBlockLock
  | blockState
  | blockLock
  | unblockLock (t : Thread) (caller : UnblockCaller)
  | unblockState (t : Thread) (caller : UnblockCaller)
  | unblockReadyLock (t : Thread) (caller : UnblockCaller)
  | unblockInsert (t : Thread) (caller : UnblockCaller)
  | unblockReleaseReady (t : Thread) (caller : UnblockCaller)
  | unblockRelease (t : Thread) (caller : UnblockCaller)
  | exitUnlock
  | exitDying
  /-- The thread signals its termination, for which it may unblock others. -/
  | exitNotify
  -- _ThreadSchedule
  | schedule
  | getReadyThread
  | setCurrentThread (next : Thread)
  | threadSwitch (old : Thread)
  -- ThreadCleanupPostSchedule
  | releaseReady
  | inspectLock
  | inspectState
  | dereference
  deriving DecidableEq

structure SchedState (Cpu Thread : Type) where
  readyThreadsList : List Thread
  readyThreadsLock : Option Cpu
  currentThread : Cpu → Thread
  previousThread : Cpu → Option Thread
  idleThread : Cpu → Option Thread
  pc : Cpu → SchedPc Thread
  state : Thread → ThreadState
  blockLock : Thread → Option Cpu
  stack : Thread → ThreadStack
  forceTerminatePending : Thread → Bool
  stage : Thread → ThreadStage
  refCnt : Thread → Nat
  /-- The caller of `ThreadCreateEx` has not closed its handle. -/
  handle : Thread → Bool
  /-- `_ThreadDestroy` has run. -/
  destroyed : Thread → Bool

inductive SchedAction (Cpu Thread : Type)
  | run (c : Cpu)
  | threadYield (c : Cpu)
  | threadTakeBlockLock (c : Cpu)
  | threadUnblock (c : Cpu) (t : Thread)
  | threadExit (c : Cpu)
  | threadInit (c : Cpu) (t : Thread)
  | threadSetupInitialState (c : Cpu) (t : Thread)
  /-- The end of `ThreadCreateEx`. -/
  | threadStart (c : Cpu) (t : Thread)
  | threadCloseHandle (t : Thread)
  | threadTerminate (t : Thread)

section Scheduler

variable {Cpu Thread : Type}

def UnblockCaller.resume : UnblockCaller → SchedPc Thread
  | .thread => .running
  | .exit => .exitNotify

variable [DecidableEq Cpu] [DecidableEq Thread]

def SchedState.setPc (s : SchedState Cpu Thread) (c : Cpu) (pc : SchedPc Thread) :
    SchedState Cpu Thread :=
  { s with pc := Function.update s.pc c pc }

def SchedState.setState (s : SchedState Cpu Thread) (t : Thread) (state : ThreadState) :
    SchedState Cpu Thread :=
  { s with state := Function.update s.state t state }

def SchedState.setBlockLock (s : SchedState Cpu Thread) (t : Thread) (owner : Option Cpu) :
    SchedState Cpu Thread :=
  { s with blockLock := Function.update s.blockLock t owner }

def SchedState.setPrevious (s : SchedState Cpu Thread) (c : Cpu) (t : Option Thread) :
    SchedState Cpu Thread :=
  { s with previousThread := Function.update s.previousThread c t }

def SchedState.setStack (s : SchedState Cpu Thread) (t : Thread) (stack : ThreadStack) :
    SchedState Cpu Thread :=
  { s with stack := Function.update s.stack t stack }

def SchedState.setStage (s : SchedState Cpu Thread) (t : Thread) (stage : ThreadStage) :
    SchedState Cpu Thread :=
  { s with stage := Function.update s.stage t stage }

def SchedState.setRefCnt (s : SchedState Cpu Thread) (t : Thread) (refCnt : Nat) :
    SchedState Cpu Thread :=
  { s with refCnt := Function.update s.refCnt t refCnt }

/-- `_ThreadDereference`: the last reference destroys the thread. -/
def SchedState.threadDereference (s : SchedState Cpu Thread) (t : Thread) : SchedState Cpu Thread :=
  { s.setRefCnt t (s.refCnt t - 1) with
    destroyed := Function.update s.destroyed t (s.destroyed t || s.refCnt t == 1) }

/-- `LockAcquire` of the lock of the ready list. -/
def SchedState.acquireReady (s : SchedState Cpu Thread) (c : Cpu) (pc : SchedPc Thread) :
    Option (SchedState Cpu Thread) :=
  if s.readyThreadsLock = none then some { s.setPc c pc with readyThreadsLock := some c } else none

/-- The end of `_ThreadSchedule`: it switches unless the next thread is the current one. -/
def SchedState.dispatch (s : SchedState Cpu Thread) (c : Cpu) (next : Thread) :
    SchedState Cpu Thread :=
  s.setPc c (if next = s.currentThread c then .releaseReady else .setCurrentThread next)

/-- The next step of a CPU, from where it is in the scheduler. -/
def schedRun (s : SchedState Cpu Thread) (c : Cpu) : Option (SchedState Cpu Thread) :=
  let t := s.currentThread c
  match s.pc c with
  | .running => none
  | .yieldLock => s.acquireReady c .yieldInsert
  | .yieldInsert =>
    some ({ s.setPc c .schedule with
      readyThreadsList :=
        if s.idleThread c = some t then s.readyThreadsList
        else s.readyThreadsList ++ [t] }.setState t .ready)
  | .tookBlockLock => do
    assert (decide (s.blockLock t = some c))
    return s.setPc c (if s.forceTerminatePending t = true then .exitUnlock else .blockState)
  | .blockState => some ((s.setPc c .blockLock).setState t .blocked)
  | .blockLock => s.acquireReady c .schedule
  | .unblockLock t' caller =>
    if s.blockLock t' = none then
      some ((s.setPc c (.unblockState t' caller)).setBlockLock t' (some c))
    else none
  | .unblockState t' caller => do
    assert (decide (s.state t' = .blocked))
    return s.setPc c (.unblockReadyLock t' caller)
  | .unblockReadyLock t' caller => s.acquireReady c (.unblockInsert t' caller)
  | .unblockInsert t' caller =>
    some ({ s.setPc c (.unblockReleaseReady t' caller) with
      readyThreadsList := s.readyThreadsList ++ [t'] }.setState t' .ready)
  | .unblockReleaseReady t' caller =>
    some { s.setPc c (.unblockRelease t' caller) with readyThreadsLock := none }
  | .unblockRelease t' caller => some ((s.setPc c caller.resume).setBlockLock t' none)
  | .exitUnlock =>
    some ((s.setPc c .exitDying).setBlockLock t
      (if s.blockLock t = some c then none else s.blockLock t))
  | .exitDying => some ((s.setPc c .exitNotify).setState t .dying)
  | .exitNotify => s.acquireReady c .schedule
  | .schedule => some ((s.setPc c .getReadyThread).setPrevious c (some t))
  | .getReadyThread =>
    match s.readyThreadsList with
    | [] => (s.idleThread c).map (s.dispatch c)
    | next :: rest => do
      assert (decide (s.state next = .ready))
      return { s with readyThreadsList := rest }.dispatch c next
  | .setCurrentThread next =>
    some { s.setPc c (.threadSwitch t) with
      currentThread := Function.update s.currentThread c next }
  | .threadSwitch old =>
    some (((s.setPc c .releaseReady).setStack old .switched).setStack t .inUse)
  | .releaseReady => some { s.setPc c .inspectLock with readyThreadsLock := none }
  | .inspectLock =>
    match s.previousThread c with
    | none => some (s.setPc c .running)
    | some prev =>
      if s.blockLock prev = some c then do
        assert (decide (s.state prev = .blocked ∨ s.idleThread c = some prev))
        return (s.setPc c .running).setBlockLock prev none
      else some (s.setPc c .inspectState)
  | .inspectState =>
    match s.previousThread c with
    | none => some (s.setPc c .running)
    | some prev =>
      some (s.setPc c (if s.state prev = .dying then .dereference else .running))
  | .dereference =>
    match s.previousThread c with
    | none => some (s.setPc c .running)
    | some prev => some (((s.setPc c .running).setPrevious c none).threadDereference prev)

def schedStep (s : SchedState Cpu Thread) :
    SchedAction Cpu Thread → Option (SchedState Cpu Thread)
  | .run c => schedRun s c
  | .threadYield c =>
    if s.pc c = .running then
      some (s.setPc c (if s.forceTerminatePending (s.currentThread c) = true then .exitUnlock
        else .yieldLock))
    else none
  | .threadTakeBlockLock c =>
    if s.pc c = .running ∧ s.blockLock (s.currentThread c) = none then
      some ((s.setPc c .tookBlockLock).setBlockLock (s.currentThread c) (some c))
    else none
  | .threadUnblock c t =>
    if s.stage t = .started then
      match s.pc c with
      | .running => some (s.setPc c (.unblockLock t .thread))
      | .exitNotify => some (s.setPc c (.unblockLock t .exit))
      | _ => none
    else none
  | .threadExit c =>
    if s.pc c = .running ∧ s.stage (s.currentThread c) = .started then
      some (s.setPc c .exitUnlock)
    else none
  | .threadInit c t =>
    if s.pc c = .running ∧ s.stage t = .absent then
      some (((s.setStage t .initialized).setState t .blocked).setRefCnt t 1)
    else none
  | .threadSetupInitialState c t =>
    if s.pc c = .running ∧ s.stage t = .initialized then
      some (((s.setStage t .setUp).setStack t .initial).setRefCnt t (s.refCnt t + 1))
    else none
  | .threadStart c t =>
    if s.pc c = .running ∧ s.stage t = .setUp then
      let s := { s with handle := Function.update s.handle t true }
      match s.idleThread c with
      | none =>
        some { (s.setStage t .idle).setState t .ready with
          idleThread := Function.update s.idleThread c (some t) }
      | some _ => some ((s.setStage t .started).setPc c (.unblockLock t .thread))
    else none
  | .threadCloseHandle t =>
    if s.handle t = true then
      some { s.threadDereference t with handle := Function.update s.handle t false }
    else none
  | .threadTerminate t =>
    if s.stage t = .started then
      some { s with forceTerminatePending := Function.update s.forceTerminatePending t true }
    else none

/-- Every CPU runs its main thread, and there are no others. -/
structure SchedState.Initial (s : SchedState Cpu Thread) : Prop where
  list : s.readyThreadsList = []
  lock : s.readyThreadsLock = none
  current : Function.Injective s.currentThread
  previous : ∀ c, s.previousThread c = none
  idle : ∀ c, s.idleThread c = none
  pc : ∀ c, s.pc c = .running
  blockLock : ∀ t, s.blockLock t = none
  flag : ∀ t, s.forceTerminatePending t = false
  handle : ∀ t, s.handle t = false
  destroyed : ∀ t, s.destroyed t = false
  main : ∀ c, s.stage (s.currentThread c) = .started ∧ s.state (s.currentThread c) = .running ∧
    s.stack (s.currentThread c) = .inUse ∧ s.refCnt (s.currentThread c) = 1
  others : ∀ t, (∀ c, s.currentThread c ≠ t) →
    s.stage t = .absent ∧ s.state t = .blocked ∧ s.stack t = .unset ∧ s.refCnt t = 0

/-- The state in which each CPU has come to run its main thread. -/
def SchedState.start [Fintype Cpu] (main : Cpu → Thread) : SchedState Cpu Thread where
  readyThreadsList := []
  readyThreadsLock := none
  currentThread := main
  previousThread _ := none
  idleThread _ := none
  pc _ := .running
  state t := if ∃ c, main c = t then .running else .blocked
  blockLock _ := none
  stack t := if ∃ c, main c = t then .inUse else .unset
  forceTerminatePending _ := false
  stage t := if ∃ c, main c = t then .started else .absent
  refCnt t := if ∃ c, main c = t then 1 else 0
  handle _ := false
  destroyed _ := false

omit [DecidableEq Cpu] in
theorem SchedState.start_initial [Fintype Cpu] {main : Cpu → Thread}
    (hmain : Function.Injective main) : (SchedState.start main).Initial where
  list := rfl
  lock := rfl
  current := hmain
  previous _ := rfl
  idle _ := rfl
  pc _ := rfl
  blockLock _ := rfl
  flag _ := rfl
  handle _ := rfl
  destroyed _ := rfl
  main c := by simp [SchedState.start]
  others t ht := by
    have hnone : ¬∃ c, main c = t := fun hmem => hmem.elim ht
    simp [SchedState.start,hnone]

def schedSystem (Cpu Thread : Type) [DecidableEq Cpu] [DecidableEq Thread] :
    TransitionSystem (SchedState Cpu Thread) (SchedAction Cpu Thread) where
  init := SchedState.Initial
  step := schedStep

end Scheduler

end Hal9000
