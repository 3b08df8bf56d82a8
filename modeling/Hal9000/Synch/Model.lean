import Hal9000.Common.Machine
import Hal9000.Framework.TransitionSystem
import Hal9000.Framework.WaitQueue

/-!
# Mutexes, events and blocked threads

`mutex.c`, `ex_event.c` and the blocking half of `thread.c`, one step for each lock taken or
released and each access to a variable another thread may write. Which ready thread runs where
is left to the scheduler, so a ready thread may take its next step at any time. No idle thread is
among the threads: `ThreadBlock` returns at once to one that finds the ready list empty.
-/

namespace Hal9000

inductive ExEventType
  | notification
  | synchronization
  deriving DecidableEq

/-- An object with a waiting list. -/
inductive Waitable (Event Mutex : Type)
  | event (e : Event)
  | mutex (m : Mutex)
  deriving DecidableEq

/-- Where `ExEventSignal` or `MutexRelease` returns to: the thread, or `ThreadExit`. -/
inductive SignalCaller
  | thread
  | exitNotify
  | exitSchedule
  deriving DecidableEq

inductive SynchPc (Thread Event Mutex : Type)
  | outside
  | yieldState
  -- ExEventWaitForSignal, before the thread queues itself
  | waitTest (e : Event) (woken : Bool)
  | waitLock (e : Event)
  -- MutexAcquire, before the thread queues itself and after it is woken
  | acquireEntry (m : Mutex)
  | acquireLock (m : Mutex)
  | acquireTake (m : Mutex)
  | acquireLoop (m : Mutex)
  | acquireAgain (m : Mutex)
  | acquireDone (m : Mutex)
  -- the common part of both, with ThreadBlock
  | insertWait (w : Waitable Event Mutex)
  | takeBlockLock (w : Waitable Event Mutex)
  | unlockWait (w : Waitable Event Mutex)
  | threadBlock (w : Waitable Event Mutex)
  | blockState (w : Waitable Event Mutex)
  | schedule (w : Waitable Event Mutex)
  | blocked (w : Waitable Event Mutex)
  -- ExEventSignal, ExEventClearSignal, MutexRelease
  | signalLock (e : Event) (caller : SignalCaller)
  | signalSet (e : Event) (caller : SignalCaller)
  | signalPop (e : Event) (caller : SignalCaller)
  | clearSignal (e : Event)
  | releaseEntry (m : Mutex)
  | releaseLock (m : Mutex)
  | releasePop (m : Mutex)
  -- ThreadUnblock of the thread taken off the list, and the release of the object
  | unblockLock (w : Waitable Event Mutex) (t : Thread) (caller : SignalCaller)
  | unblockReady (w : Waitable Event Mutex) (t : Thread) (caller : SignalCaller)
  | unblockUnlock (w : Waitable Event Mutex) (t : Thread) (caller : SignalCaller)
  | unlockObject (w : Waitable Event Mutex) (caller : SignalCaller)
  -- ThreadExit, called in ThreadBlock or elsewhere
  | exitUnlock (waiting : Option (Waitable Event Mutex))
  | exitDying
  | exitNotify
  | exitSchedule
  | dead
  deriving DecidableEq

structure SynchState (Thread Event Mutex : Type) where
  signaled : Event → Bool
  holder : Mutex → Option Thread
  currentRecursivityDepth : Mutex → Nat
  /-- `EventLock` and `MutexLock`. -/
  lock : Waitable Event Mutex → Option Thread
  waitingList : Waitable Event Mutex → List Thread
  blockLock : Thread → Option Thread
  state : Thread → ThreadState
  forceTerminatePending : Thread → Bool
  pc : Thread → SynchPc Thread Event Mutex

/-- What the objects are created with. -/
structure SynchObjects (Thread Event Mutex : Type) where
  eventType : Event → ExEventType
  maxRecursivityDepth : Mutex → Nat
  terminationEvt : Thread → Event

inductive SynchCall (Event Mutex : Type)
  | exEventWaitForSignal (e : Event)
  | exEventSignal (e : Event)
  | exEventClearSignal (e : Event)
  | mutexAcquire (m : Mutex)
  | mutexRelease (m : Mutex)

inductive SynchAction (Thread Event Mutex : Type)
  | call (t : Thread) (call : SynchCall Event Mutex)
  | run (t : Thread)
  | threadYield (t : Thread)
  | threadExit (t : Thread)
  | threadTerminate (t : Thread)
  /-- `ProcessNotifyThreadTermination`; the last thread signals the event of its process. -/
  | notifyTermination (t : Thread) (processEvt : Option Event)

section Synch

variable {Thread Event Mutex : Type} [DecidableEq Thread] [DecidableEq Event] [DecidableEq Mutex]

def SynchState.setPc (s : SynchState Thread Event Mutex) (t : Thread)
    (pc : SynchPc Thread Event Mutex) : SynchState Thread Event Mutex :=
  { s with pc := Function.update s.pc t pc }

def SynchState.setLock (s : SynchState Thread Event Mutex) (w : Waitable Event Mutex)
    (owner : Option Thread) : SynchState Thread Event Mutex :=
  { s with lock := Function.update s.lock w owner }

def SynchState.setBlockLock (s : SynchState Thread Event Mutex) (t : Thread)
    (owner : Option Thread) : SynchState Thread Event Mutex :=
  { s with blockLock := Function.update s.blockLock t owner }

def SynchState.setState (s : SynchState Thread Event Mutex) (t : Thread) (state : ThreadState) :
    SynchState Thread Event Mutex :=
  { s with state := Function.update s.state t state }

def SynchState.setWaitingList (s : SynchState Thread Event Mutex) (w : Waitable Event Mutex)
    (waitingList : List Thread) : SynchState Thread Event Mutex :=
  { s with waitingList := Function.update s.waitingList w waitingList }

def SynchState.setSignaled (s : SynchState Thread Event Mutex) (e : Event) (signaled : Bool) :
    SynchState Thread Event Mutex :=
  { s with signaled := Function.update s.signaled e signaled }

def SynchState.setHolder (s : SynchState Thread Event Mutex) (m : Mutex)
    (holder : Option Thread) : SynchState Thread Event Mutex :=
  { s with holder := Function.update s.holder m holder }

def SynchState.setDepth (s : SynchState Thread Event Mutex) (m : Mutex) (depth : Nat) :
    SynchState Thread Event Mutex :=
  { s with currentRecursivityDepth := Function.update s.currentRecursivityDepth m depth }

/-- The first statement of a call. -/
def SynchCall.entry : SynchCall Event Mutex → SynchPc Thread Event Mutex
  | .exEventWaitForSignal e => .waitTest e false
  | .exEventSignal e => .signalLock e .thread
  | .exEventClearSignal e => .clearSignal e
  | .mutexAcquire m => .acquireEntry m
  | .mutexRelease m => .releaseEntry m

def SignalCaller.resume : SignalCaller → SynchPc Thread Event Mutex
  | .thread => .outside
  | .exitNotify => .exitNotify
  | .exitSchedule => .exitSchedule

/-- A spinlock is taken once it is free. -/
def SynchState.acquire (s : SynchState Thread Event Mutex) (t : Thread)
    (w : Waitable Event Mutex) (pc : SynchPc Thread Event Mutex) :
    Option (SynchState Thread Event Mutex) :=
  if s.lock w = none then some ((s.setPc t pc).setLock w (some t)) else none

variable (objects : SynchObjects Thread Event Mutex)

/-- What follows `ThreadBlock`: a notification event is not tested again, and the loops of the
others are. -/
def afterBlock : Waitable Event Mutex → SynchPc Thread Event Mutex
  | .event e =>
    match objects.eventType e with
    | .notification => .outside
    | .synchronization => .waitTest e true
  | .mutex m => .acquireAgain m

/-- What follows `ThreadUnblock`: a notification event wakes the next waiter as well. -/
def afterUnblock (caller : SignalCaller) : Waitable Event Mutex → SynchPc Thread Event Mutex
  | .event e =>
    match objects.eventType e with
    | .notification => .signalPop e caller
    | .synchronization => .unlockObject (.event e) caller
  | .mutex m => .unlockObject (.mutex m) caller

/-- The next step of a thread, from where it is. -/
def synchRun (s : SynchState Thread Event Mutex) (t : Thread) :
    Option (SynchState Thread Event Mutex) :=
  match s.pc t with
  | .outside => none
  | .yieldState => some ((s.setPc t .outside).setState t .ready)
  | .waitTest e _ =>
    -- `_InterlockedCompareExchange8(&Event->Signaled, newState, TRUE)`
    if s.signaled e = true then
      some ((s.setPc t .outside).setSignaled e (objects.eventType e == .notification))
    else some (s.setPc t (.waitLock e))
  | .waitLock e => s.acquire t (.event e) (.insertWait (.event e))
  | .acquireEntry m =>
    if s.holder m = some t then do
      assert (decide (s.currentRecursivityDepth m < objects.maxRecursivityDepth m))
      return (s.setPc t .outside).setDepth m (s.currentRecursivityDepth m + 1)
    else some (s.setPc t (.acquireLock m))
  | .acquireLock m => s.acquire t (.mutex m) (.acquireTake m)
  | .acquireTake m =>
    if s.holder m = none then
      some (((s.setPc t (.acquireLoop m)).setHolder m (some t)).setDepth m 1)
    else some (s.setPc t (.acquireLoop m))
  | .acquireLoop m =>
    if s.holder m = some t then some (s.setPc t (.acquireDone m))
    else some (s.setPc t (.insertWait (.mutex m)))
  | .acquireAgain m => s.acquire t (.mutex m) (.acquireLoop m)
  | .acquireDone m => some ((s.setPc t .outside).setLock (.mutex m) none)
  | .insertWait w =>
    some ((s.setPc t (.takeBlockLock w)).setWaitingList w (s.waitingList w ++ [t]))
  | .takeBlockLock w =>
    if s.blockLock t = none then some ((s.setPc t (.unlockWait w)).setBlockLock t (some t))
    else none
  | .unlockWait w => some ((s.setPc t (.threadBlock w)).setLock w none)
  | .threadBlock w =>
    some (s.setPc t (if s.forceTerminatePending t = true then .exitUnlock (some w)
      else .blockState w))
  | .blockState w => some ((s.setPc t (.schedule w)).setState t .blocked)
  | .schedule w =>
    -- the lock is released in `ThreadCleanupPostSchedule`, by the thread that runs next
    some ((s.setPc t (.blocked w)).setBlockLock t none)
  | .blocked w => if s.state t = .ready then some (s.setPc t (afterBlock objects w)) else none
  | .signalLock e caller => s.acquire t (.event e) (.signalSet e caller)
  | .signalSet e caller => some ((s.setPc t (.signalPop e caller)).setSignaled e true)
  | .signalPop e caller =>
    match s.waitingList (.event e) with
    | [] => some (s.setPc t (.unlockObject (.event e) caller))
    | t' :: rest =>
      some ((s.setPc t (.unblockLock (.event e) t' caller)).setWaitingList (.event e) rest)
  | .clearSignal e => some ((s.setPc t .outside).setSignaled e false)
  | .releaseEntry m => do
    assert (decide (s.holder m = some t))
    return if s.currentRecursivityDepth m > 1 then
        (s.setPc t .outside).setDepth m (s.currentRecursivityDepth m - 1)
      else s.setPc t (.releaseLock m)
  | .releaseLock m => s.acquire t (.mutex m) (.releasePop m)
  | .releasePop m =>
    match s.waitingList (.mutex m) with
    | [] => some ((s.setPc t (.unlockObject (.mutex m) .thread)).setHolder m none)
    | t' :: rest =>
      some ((((s.setPc t (.unblockLock (.mutex m) t' .thread)).setWaitingList (.mutex m)
        rest).setHolder m (some t')).setDepth m 1)
  | .unblockLock w t' caller =>
    if s.blockLock t' = none then
      some ((s.setPc t (.unblockReady w t' caller)).setBlockLock t' (some t))
    else none
  | .unblockReady w t' caller => do
    assert (decide (s.state t' = .blocked))
    return (s.setPc t (.unblockUnlock w t' caller)).setState t' .ready
  | .unblockUnlock w t' caller =>
    some ((s.setPc t (afterUnblock objects caller w)).setBlockLock t' none)
  | .unlockObject w caller => some ((s.setPc t caller.resume).setLock w none)
  | .exitUnlock _ =>
    some ((s.setPc t .exitDying).setBlockLock t
      (if s.blockLock t = some t then none else s.blockLock t))
  | .exitDying =>
    some ((s.setPc t (.signalLock (objects.terminationEvt t) .exitNotify)).setState t .dying)
  | .exitNotify => none
  | .exitSchedule => some (s.setPc t .dead)
  | .dead => none

def synchStep (s : SynchState Thread Event Mutex) :
    SynchAction Thread Event Mutex → Option (SynchState Thread Event Mutex)
  | .call t call => if s.pc t = .outside then some (s.setPc t call.entry) else none
  | .run t => synchRun objects s t
  | .threadYield t =>
    if s.pc t = .outside then
      some (s.setPc t (if s.forceTerminatePending t = true then .exitUnlock none else .yieldState))
    else none
  | .threadExit t => if s.pc t = .outside then some (s.setPc t (.exitUnlock none)) else none
  | .threadTerminate t =>
    some { s with forceTerminatePending := Function.update s.forceTerminatePending t true }
  | .notifyTermination t processEvt =>
    if s.pc t = .exitNotify then
      match processEvt with
      | none => some (s.setPc t .exitSchedule)
      | some e => some (s.setPc t (.signalLock e .exitSchedule))
    else none

/-- Threads start outside of every call, with every lock free and every object as it is
initialized. -/
structure SynchState.Initial (s : SynchState Thread Event Mutex) : Prop where
  pc : ∀ t, s.pc t = .outside
  state : ∀ t, s.state t = .running ∨ s.state t = .ready
  lock : ∀ w, s.lock w = none
  blockLock : ∀ t, s.blockLock t = none
  waitingList : ∀ w, s.waitingList w = []
  holder : ∀ m, s.holder m = none

def SynchState.start : SynchState Thread Event Mutex where
  signaled _ := false
  holder _ := none
  currentRecursivityDepth _ := 0
  lock _ := none
  waitingList _ := []
  blockLock _ := none
  state _ := .running
  forceTerminatePending _ := false
  pc _ := .outside

omit [DecidableEq Thread] [DecidableEq Event] [DecidableEq Mutex] in
theorem start_initial : (SynchState.start : SynchState Thread Event Mutex).Initial where
  pc _ := rfl
  state _ := Or.inl rfl
  lock _ := rfl
  blockLock _ := rfl
  waitingList _ := rfl
  holder _ := rfl

def synchSystem : TransitionSystem (SynchState Thread Event Mutex)
    (SynchAction Thread Event Mutex) where
  init := SynchState.Initial
  step := synchStep objects

end Synch

/-- Two threads, with a notification event for the end of each. -/
def twoThreads : SynchObjects (Fin 2) (Fin 2) Unit where
  eventType _ := .notification
  maxRecursivityDepth _ := 1
  terminationEvt t := t

end Hal9000
