import Hal9000.Common.Machine
import Hal9000.Framework.TransitionSystem

/-!
# The lifetime of a process

The reference count of one process object while `ProcessCreate` runs beside the threads of the
process. The count mixes the initial reference, dropped when the last thread is removed from
the list, one reference per listed thread and one for the handle `ProcessCreate` returns.
-/

namespace Hal9000

/-- `ProcessCreate` and `UmApplicationRun`, up to the handle and its close. -/
inductive CreatorPc (Thread : Type)
  | processInit
  | retrieveHeader
  | createAddressSpace
  | loadPe
  | createThread
  | creating (t : Thread)
  | closeThread (t : Thread)
  | destroyThread (t : Thread)
  | referenceProcess
  | returned
  | closed
  | dereferenceProcess
  | failed
  deriving DecidableEq

/-- The life of a thread of the process, with the steps of its removal from the list. -/
inductive ThreadPc (Thread : Type)
  | unused
  | inserting
  | suspended
  | live
  | creating (t : Thread)
  | exited
  | released
  | remove
  | removeDereference (remainingThreads : Nat)
  | removeLast (remainingThreads : Nat)
  | removed (remainingThreads : Nat)
  deriving DecidableEq

/-- The caller of `ThreadCreateEx`: `UmApplicationRun`, or a thread of the process. -/
inductive Caller (Thread : Type)
  | umApplicationRun
  | thread (c : Thread)

structure LifetimeState (Thread : Type) where
  refCnt : Nat
  numberOfThreads : Nat
  activeThreads : Nat
  threadList : List Thread
  /-- The thread that is inserted or removed under `ThreadListLock`. -/
  threadListLock : Option Thread
  terminationSignaled : Bool
  /-- How often `_ProcessDestroy` has run. -/
  destroyed : Nat
  creator : CreatorPc Thread
  pc : Thread → ThreadPc Thread
  threadRefCnt : Thread → Nat
  handleOpen : Thread → Bool

inductive LifetimeAction (Thread : Type)
  | prepare (succeeded : Bool)
  | insertThread (caller : Caller Thread) (t : Thread)
  | insertReference (t : Thread)
  | finishCreate (caller : Caller Thread) (isEntryPoint succeeded : Bool)
  | exit (t : Thread)
  | cleanup (t : Thread)
  | threadCloseHandle (t : Thread)
  | removeCount (t : Thread)
  | removeDereference (t : Thread)
  | removeLast (t : Thread)
  | closeThread
  | threadDestroyed
  | referenceProcess
  | dereferenceProcess
  | processCloseHandle

/-- The step of `ProcessCreate` after a call that succeeded. -/
def CreatorPc.afterCall {Thread : Type} : CreatorPc Thread → Option (CreatorPc Thread)
  | .processInit => some .retrieveHeader
  | .retrieveHeader => some .createAddressSpace
  | .createAddressSpace => some .loadPe
  | .loadPe => some .createThread
  | _ => none

section Lifetime

variable {Thread : Type} [DecidableEq Thread]

def LifetimeState.setPc (s : LifetimeState Thread) (t : Thread) (pc : ThreadPc Thread) :
    LifetimeState Thread :=
  { s with pc := Function.update s.pc t pc }

def processReference (s : LifetimeState Thread) : LifetimeState Thread :=
  { s with refCnt := s.refCnt + 1 }

/-- The free function runs when the count reaches zero. Its assertion that no thread is left
is not a condition here: it is a consequence of the invariant. -/
def processDereference (s : LifetimeState Thread) : LifetimeState Thread :=
  { s with
    refCnt := s.refCnt - 1
    destroyed := if s.refCnt = 1 then s.destroyed + 1 else s.destroyed }

/-- `_ThreadDereference`; the last reference starts `_ThreadDestroy`, else `pc` is next. -/
def threadDereference (s : LifetimeState Thread) (t : Thread) (pc : ThreadPc Thread) :
    LifetimeState Thread :=
  { s with threadRefCnt := Function.update s.threadRefCnt t (s.threadRefCnt t - 1) }.setPc t
    (if s.threadRefCnt t = 1 then .remove else pc)

/-- The first half of `ProcessInsertThreadInList`. -/
def processInsertThread (s : LifetimeState Thread) (t : Thread) :
    Option (LifetimeState Thread) := do
  assert (decide (s.numberOfThreads < maxDword))
  assert (decide (s.activeThreads + 1 ≤ s.numberOfThreads + 1))
  return { s with
    numberOfThreads := s.numberOfThreads + 1
    activeThreads := s.activeThreads + 1
    threadList := s.threadList ++ [t]
    threadListLock := some t }.setPc t .inserting

/-- A thread exits by itself, or it is forced to inside `ThreadCreateEx`: the thread it creates then
stays suspended. The holder of `ThreadListLock` is not interrupted. -/
def LifetimeState.mayExit (s : LifetimeState Thread) (t : Thread) : Bool :=
  match s.pc t with
  | .live => true
  | .creating t' => decide (s.pc t' ≠ .inserting)
  | _ => false

def lifetimeStep (s : LifetimeState Thread) : LifetimeAction Thread → Option (LifetimeState Thread)
  | .prepare succeeded => do
    let next ← s.creator.afterCall
    return { s with creator := if succeeded then next else .dereferenceProcess }
  | .insertThread caller t =>
    if s.threadListLock ≠ none ∨ s.pc t ≠ .unused then none
    else match caller with
      | .umApplicationRun =>
        if s.creator = .createThread then
          processInsertThread { s with creator := .creating t } t
        else none
      | .thread c =>
        if s.pc c = .live then processInsertThread (s.setPc c (.creating t)) t else none
  | .insertReference t =>
    -- `_ThreadInit` has left one reference, `_ThreadReference` takes the second
    if s.pc t = .inserting then
      some ({ processReference s with
        threadListLock := none
        threadRefCnt := Function.update s.threadRefCnt t 2 }.setPc t .suspended)
    else none
  | .finishCreate .umApplicationRun isEntryPoint succeeded =>
    match s.creator with
    | .creating t => do
      assert (isEntryPoint && decide (s.pc t = .suspended))
      assert (s.numberOfThreads == 1)
      return if succeeded then { s with creator := .closeThread t }.setPc t .live
        else { s with creator := .dereferenceProcess }
    | _ => none
  | .finishCreate (.thread c) isEntryPoint succeeded =>
    match s.pc c with
    | .creating t => do
      assert (decide (s.pc t = .suspended))
      assert (!isEntryPoint || s.numberOfThreads == 1)
      return if succeeded then
          { s with handleOpen := Function.update s.handleOpen t true }.setPc t .live |>.setPc c .live
        else s.setPc c .live
    | _ => none
  | .exit t =>
    if s.mayExit t then
      some ({ s with
        activeThreads := s.activeThreads - 1
        terminationSignaled := s.terminationSignaled || s.activeThreads == 1 }.setPc t .exited)
    else none
  | .cleanup t =>
    if s.pc t = .exited then some (threadDereference s t .released) else none
  | .threadCloseHandle t =>
    if s.handleOpen t = true then
      some (threadDereference
        { s with handleOpen := Function.update s.handleOpen t false } t (s.pc t))
    else none
  | .removeCount t =>
    if s.pc t = .remove ∧ s.threadListLock = none then
      some ({ s with
        numberOfThreads := s.numberOfThreads - 1
        threadList := s.threadList.erase t
        threadListLock := some t }.setPc t (.removeDereference (s.numberOfThreads - 1)))
    else none
  | .removeDereference t =>
    match s.pc t with
    | .removeDereference remaining =>
      some ({ processDereference s with threadListLock := none }.setPc t (.removeLast remaining))
    | _ => none
  | .removeLast t =>
    match s.pc t with
    | .removeLast remaining =>
      some ((if remaining = 0 then processDereference s else s).setPc t (.removed remaining))
    | _ => none
  | .closeThread =>
    match s.creator with
    | .closeThread t =>
      some (threadDereference { s with
        creator := if s.threadRefCnt t = 1 then .destroyThread t else .referenceProcess } t
        (s.pc t))
    | _ => none
  | .threadDestroyed =>
    match s.creator with
    | .destroyThread t =>
      match s.pc t with
      | .removed _ => some { s with creator := .referenceProcess }
      | _ => none
    | _ => none
  | .referenceProcess =>
    if s.creator = .referenceProcess then
      some { processReference s with creator := .returned }
    else none
  | .dereferenceProcess =>
    if s.creator = .dereferenceProcess then
      some { processDereference s with creator := .failed }
    else none
  | .processCloseHandle =>
    if s.creator = .returned then
      some { processDereference s with creator := .closed }
    else none

/-- The process object once `RfcInit` has given it its initial reference. -/
def newProcess : LifetimeState Thread where
  refCnt := 1
  numberOfThreads := 0
  activeThreads := 0
  threadList := []
  threadListLock := none
  terminationSignaled := false
  destroyed := 0
  creator := .processInit
  pc _ := .unused
  threadRefCnt _ := 0
  handleOpen _ := false

variable (Thread) in
def lifetimeSystem : TransitionSystem (LifetimeState Thread) (LifetimeAction Thread) where
  init s := s = newProcess
  step := lifetimeStep

/-- The reference of the process dropped by the removal of its last thread is dropped only once
`ProcessCreate` has taken the reference of the handle. -/
def KeepsUntilReferenced (s : LifetimeState Thread) : LifetimeAction Thread → Prop
  | .removeLast t => s.pc t = .removeLast 0 → s.creator = .returned ∨ s.creator = .closed
  | _ => True

instance (s : LifetimeState Thread) : ∀ action, Decidable (KeepsUntilReferenced s action)
  | .removeLast t => inferInstanceAs (Decidable (s.pc t = .removeLast 0 → _ ∨ _))
  | .prepare _ | .insertThread _ _ | .insertReference _ | .finishCreate _ _ _ | .exit _
  | .cleanup _ | .threadCloseHandle _ | .removeCount _ | .removeDereference _ | .closeThread
  | .threadDestroyed | .referenceProcess | .dereferenceProcess | .processCloseHandle =>
    .isTrue trivial

end Lifetime

end Hal9000
