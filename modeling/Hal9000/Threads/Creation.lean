import Hal9000.Common.Machine

/-!
# The creation of a thread

`ThreadCreateEx` allocates the `THREAD`, its kernel stack, its name and, in a process with an
address space of its own, its user stack. A failure in `_ThreadInit` goes through `_ThreadDestroy`,
which takes the thread out of lists it is not in yet; a failure behind it takes it out of none.
-/

namespace Hal9000

inductive CreationStatus
  | invalidParameter1
  | invalidParameter3
  | invalidParameter5
  | invalidParameter6
  | heapInsufficientResources
  | memoryCannotBeCommited
  deriving DecidableEq

/-- What stops every processor: an assertion of the creation, or its clean-up at an assertion or
at an entry that is in no list. -/
inductive Halt
  | assertion
  | cleanUp
  deriving DecidableEq

/-- Values of the common library headers. -/
structure ThreadConstants where
  threadPriorityLowest : Nat
  threadPriorityMaximum : Nat
  shadowStackSize : Nat
  completeProcessorStateSize : Nat

def stackDefaultSize : Nat := 8 * pageSize
def interruptStackSize : Nat := 40
def tidIncrement : Nat := 4

inductive StartFunction
  | threadKernelFunction
  | address (function : Nat)
  deriving DecidableEq

/-- What a new thread starts with: the interrupt stack and the first two arguments. -/
structure InitialThreadState where
  rip : StartFunction
  usermode : Bool
  rsp : Nat
  firstArgument : Nat
  secondArgument : Nat
  deriving DecidableEq

/-- The fields of a `THREAD` that its creation and destruction use. Pointers are addresses, `0` is
`NULL`; a list entry is linked or still zero. -/
structure ThreadObject (Process : Type) where
  refCnt : Nat
  id : Nat
  name : Option String
  priority : Nat
  state : ThreadState
  terminationSignaled : Bool
  allList : Bool
  processList : Bool
  initialStackBase : Nat
  stackSize : Nat
  stack : Nat
  userStack : Nat
  initialState : Option InitialThreadState
  process : Option Process
  deriving DecidableEq

/-- The fields of a `PROCESS` that its threads use. -/
structure ProcessObject (Thread : Type) where
  isSystem : Bool
  kernelSpace : Bool
  addressOfEntryPoint : Nat
  numberOfArguments : Nat
  threadList : List Thread
  numberOfThreads : Nat
  activeThreads : Nat
  refCnt : Nat
  destroyed : Bool
  deriving DecidableEq

/-- `m_threadSystemData`, the live threads, and the idle thread of the processor that creates. -/
structure ThreadSystem (Thread Process : Type) where
  threads : Thread → Option (ThreadObject Process)
  processes : Process → ProcessObject Thread
  allThreadsList : List Thread
  readyThreadsList : List Thread
  currentTid : Nat
  idleThread : Option Thread

/-- What the heap and `MmuAllocStack` answer; `stackFreed` tells whether `MmuFreeStack` returns. -/
structure ThreadAllocations (Thread Process : Type) where
  thread : Option Thread
  kernelStack : Nat
  name : Bool
  userStack : Nat
  stackFreed : Option Process → Nat → Bool

/-- The arguments of `ThreadCreateEx`; `thread` tells whether there is a place for the result. -/
structure ThreadRequest (Process : Type) where
  name : Option String
  priority : Nat
  function : Nat
  context : Nat
  thread : Bool
  process : Option Process

/-- A status or what was created, with the state left behind. -/
abbrev Creation (Created Thread Process : Type) : Type :=
  Except CreationStatus Created × ThreadSystem Thread Process

def check (condition : Bool) : Except Halt Unit :=
  if condition then .ok () else .error .assertion

theorem check_bind_true {Result : Type} {condition : Bool} {rest : Unit → Except Halt Result}
    (h : condition = true) : (check condition >>= rest) = rest () := by
  rw [h]
  rfl

theorem check_bind_false {Result : Type} {condition : Bool} {rest : Unit → Except Halt Result}
    (h : condition = false) : (check condition >>= rest) = .error .assertion := by
  rw [h]
  rfl

/-- `RemoveEntryList`; an entry that was never inserted has null links. -/
def removeEntryList {Thread : Type} [DecidableEq Thread] (linked : Bool) (list : List Thread)
    (entry : Thread) : Option (List Thread) :=
  if linked then some (list.erase entry) else none

section Functions

variable {Thread Process : Type} [DecidableEq Thread] [DecidableEq Process]

namespace ThreadSystem

def setThread (s : ThreadSystem Thread Process) (t : Thread) (thread : ThreadObject Process) :
    ThreadSystem Thread Process :=
  { s with threads := Function.update s.threads t (some thread) }

def setProcess (s : ThreadSystem Thread Process) (p : Process) (process : ProcessObject Thread) :
    ThreadSystem Thread Process :=
  { s with processes := Function.update s.processes p process }

end ThreadSystem

/-- `_ProcessDestroy`. -/
def processDestroyed (process : ProcessObject Thread) : Option (ProcessObject Thread) := do
  assert (!process.isSystem)
  assert (process.numberOfThreads = 0)
  return { process with destroyed := true }

/-- `_ProcessDereference`. -/
def processDereferenced (process : ProcessObject Thread) : Option (ProcessObject Thread) :=
  let process := { process with refCnt := process.refCnt - 1 }
  if process.refCnt = 0 then processDestroyed process else some process

def processRemoveThreadFromList (s : ThreadSystem Thread Process) (t : Thread)
    (thread : ThreadObject Process) : Option (ThreadSystem Thread Process) := do
  let p ← thread.process
  let process := s.processes p
  let remainingThreads := (process.numberOfThreads + maxDword) % (maxDword + 1)
  assert (remainingThreads != maxDword)
  let threadList ← removeEntryList thread.processList process.threadList t
  let process ← processDereferenced
    { process with numberOfThreads := remainingThreads, threadList := threadList }
  let process ← if remainingThreads = 0 then processDereferenced process else some process
  return s.setProcess p process

/-- `MmuFreeStack`, for a stack that may be `NULL`. -/
def freeStackIfAny (allocations : ThreadAllocations Thread Process) (process : Option Process)
    (stack : Nat) : Option Unit :=
  assert (stack = 0 || allocations.stackFreed process stack)

/-- `_ThreadDestroy`. -/
def threadDestroy (allocations : ThreadAllocations Thread Process)
    (s : ThreadSystem Thread Process) (t : Thread) (thread : ThreadObject Process) :
    Option (ThreadSystem Thread Process) := do
  let allThreadsList ← removeEntryList thread.allList s.allThreadsList t
  let s := { s with allThreadsList := allThreadsList }
  freeStackIfAny allocations thread.process thread.userStack
  let s ← processRemoveThreadFromList s t thread
  freeStackIfAny allocations none thread.stack
  return { s with threads := Function.update s.threads t none }

/-- `_ThreadDereference`. -/
def threadDereferenced (allocations : ThreadAllocations Thread Process)
    (s : ThreadSystem Thread Process) (t : Thread) (thread : ThreadObject Process) :
    Option (ThreadSystem Thread Process) :=
  let thread := { thread with refCnt := thread.refCnt - 1 }
  if thread.refCnt = 0 then threadDestroy allocations s t thread else some (s.setThread t thread)

/-- A new `THREAD`, with the reference of `RfcInit` and everything else zero. -/
def newThread (Process : Type) : ThreadObject Process where
  refCnt := 1
  id := 0
  name := none
  priority := 0
  state := .running
  terminationSignaled := false
  allList := false
  processList := false
  initialStackBase := 0
  stackSize := 0
  stack := 0
  userStack := 0
  initialState := none
  process := none

def withKernelStack (thread : ThreadObject Process) (stack : Nat) : ThreadObject Process :=
  { thread with stack := stack, initialStackBase := stack, stackSize := stackDefaultSize }

/-- The `__finally` of `_ThreadInit` after a failure. -/
def threadInitFails (allocations : ThreadAllocations Thread Process)
    (s : ThreadSystem Thread Process) (t : Thread) (thread : ThreadObject Process)
    (status : CreationStatus) :
    Except Halt (Creation (Thread × ThreadObject Process) Thread Process) :=
  match threadDereferenced allocations s t thread with
  | some s => .ok (.error status,s)
  | none => .error .cleanUp

/-- `_ThreadInit`. -/
def threadInit (constants : ThreadConstants) (allocations : ThreadAllocations Thread Process)
    (s : ThreadSystem Thread Process) (name : String) (priority : Nat)
    (allocateKernelStack : Bool) :
    Except Halt (Creation (Thread × ThreadObject Process) Thread Process) := do
  check (decide (constants.threadPriorityLowest ≤ priority) &&
    decide (priority ≤ constants.threadPriorityMaximum))
  match allocations.thread with
  | none => return (.error .heapInsufficientResources,s)
  | some t =>
    let thread := newThread Process
    let s := s.setThread t thread
    if allocateKernelStack && allocations.kernelStack = 0 then
      threadInitFails allocations s t thread .memoryCannotBeCommited
    else
      let thread := if allocateKernelStack then withKernelStack thread allocations.kernelStack
        else thread
      if allocations.name then
        let thread := { thread with
          name := some name
          id := s.currentTid
          state := .blocked
          priority := priority
          allList := true }
        let s := { s with
          currentTid := (s.currentTid + tidIncrement) % qwordModulus
          allThreadsList := s.allThreadsList ++ [t] }
        return (.ok (t,thread),s.setThread t thread)
      else
        threadInitFails allocations s t thread .heapInsufficientResources

def processInsertThreadInList (s : ThreadSystem Thread Process) (p : Process) (t : Thread)
    (thread : ThreadObject Process) :
    Except Halt (ThreadObject Process × ThreadSystem Thread Process) := do
  let process := s.processes p
  check (decide (process.numberOfThreads < maxDword))
  let numberOfThreads := process.numberOfThreads + 1
  let activeThreads := (process.activeThreads + 1) % (maxDword + 1)
  check (decide (activeThreads ≤ numberOfThreads))
  let process := { process with
    numberOfThreads := numberOfThreads
    activeThreads := activeThreads
    threadList := process.threadList ++ [t]
    refCnt := process.refCnt + 1 }
  return ({ thread with process := some p, processList := true },s.setProcess p process)

/-- `_ThreadSetupInitialState`. -/
def threadSetupInitialState (constants : ThreadConstants) (thread : ThreadObject Process)
    (startFunction : StartFunction) (firstArgument secondArgument : Nat) (kernelStack : Bool) :
    Except Halt (ThreadObject Process) := do
  check (startFunction != .address 0)
  -- the shadow space and the return address of the kernel function, then its interrupt stack
  let interruptStack := ptrDiff (ptrDiff thread.stack ((4 + 1) * 8)) interruptStackSize
  let rsp := if kernelStack then ptrOffset interruptStack interruptStackSize else thread.userStack
  check (kernelStack || thread.userStack != 0)
  return { thread with
    stack := ptrDiff (ptrDiff interruptStack 8) constants.completeProcessorStateSize
    initialState := some ⟨startFunction,!kernelStack,rsp,firstArgument,secondArgument⟩ }

/-- The end of `ThreadCreateEx`: the first thread of a processor becomes its idle thread, any other
one is unblocked. -/
def threadMadeReady (s : ThreadSystem Thread Process) (t : Thread)
    (thread : ThreadObject Process) : Except Halt (ThreadSystem Thread Process) :=
  match s.idleThread with
  | none => .ok { s.setThread t { thread with state := .ready } with idleThread := some t }
  | some _ => do
    check (thread.state = .blocked)
    return { s.setThread t { thread with state := .ready } with
      readyThreadsList := s.readyThreadsList ++ [t] }

def threadStarted (constants : ThreadConstants) (s : ThreadSystem Thread Process) (t : Thread)
    (thread : ThreadObject Process) (startFunction : StartFunction)
    (firstArgument secondArgument : Nat) (kernelSpace : Bool) :
    Except Halt (Creation Thread Thread Process) := do
  let thread ← threadSetupInitialState constants thread startFunction firstArgument secondArgument
    kernelSpace
  let s ← threadMadeReady s t thread
  return (.ok t,s)

/-- `ThreadCreateEx` with a user stack; `_ThreadSetupMainThreadUserStack` keeps the pointer. -/
def userThreadStarted (constants : ThreadConstants) (s : ThreadSystem Thread Process)
    (process : ProcessObject Thread) (t : Thread) (thread : ThreadObject Process)
    (function context : Nat) : Except Halt (Creation Thread Thread Process) := do
  let frame := constants.shadowStackSize + 8
  if function = process.addressOfEntryPoint then
    check (process.numberOfThreads = 1)
    threadStarted constants s t thread (.address process.addressOfEntryPoint)
      process.numberOfArguments (ptrOffset thread.userStack frame) false
  else
    let thread := { thread with userStack := ptrDiff thread.userStack frame }
    threadStarted constants s t thread (.address function) context 0 false

/-- `ThreadCreateEx` behind `_ThreadInit`. -/
def createdThreadStarted (constants : ThreadConstants)
    (allocations : ThreadAllocations Thread Process) (s : ThreadSystem Thread Process)
    (p : Process) (t : Thread) (thread : ThreadObject Process) (function context : Nat) :
    Except Halt (Creation Thread Thread Process) := do
  let (thread,s) ← processInsertThreadInList s p t thread
  let thread := { thread with refCnt := thread.refCnt + 1 }
  let process := s.processes p
  if process.kernelSpace then
    threadStarted constants s t thread .threadKernelFunction function context true
  else
    let thread := { thread with userStack := allocations.userStack }
    if allocations.userStack = 0 then return (.error .memoryCannotBeCommited,s.setThread t thread)
    else userThreadStarted constants s process t thread function context

def threadCreateEx (constants : ThreadConstants) (allocations : ThreadAllocations Thread Process)
    (s : ThreadSystem Thread Process) (request : ThreadRequest Process) :
    Except Halt (Creation Thread Thread Process) :=
  match request.name with
  | none => .ok (.error .invalidParameter1,s)
  | some name =>
    if request.function = 0 then .ok (.error .invalidParameter3,s)
    else if !request.thread then .ok (.error .invalidParameter5,s)
    else match request.process with
      | none => .ok (.error .invalidParameter6,s)
      | some p => do
        let (created,s) ← threadInit constants allocations s name request.priority true
        match created with
        | .error status => return (.error status,s)
        | .ok (t,thread) =>
          createdThreadStarted constants allocations s p t thread request.function request.context

end Functions

section Failure

variable {Thread Process : Type}

/-- The threads, their lists and counts are as before. -/
structure ThreadSystem.KeepsThreads (s s' : ThreadSystem Thread Process)
    (process : Option Process) : Prop where
  threads : s'.threads = s.threads
  allThreadsList : s'.allThreadsList = s.allThreadsList
  threadList : ∀ p, process = some p → (s'.processes p).threadList = (s.processes p).threadList
  numberOfThreads : ∀ p, process = some p →
    (s'.processes p).numberOfThreads = (s.processes p).numberOfThreads
  activeThreads : ∀ p, process = some p →
    (s'.processes p).activeThreads = (s.processes p).activeThreads
  refCnt : ∀ p, process = some p → (s'.processes p).refCnt = (s.processes p).refCnt

/-- A creation that fails changes no thread, no list and no count, and its clean-up completes. -/
def FailsCleanly (s : ThreadSystem Thread Process) (process : Option Process)
    (creation : Except Halt (Creation Thread Thread Process)) : Prop :=
  creation ≠ .error .cleanUp ∧
    ∀ status s', creation = .ok (.error status,s') → s.KeepsThreads s' process

/-- The arguments pass the checks of `ThreadCreateEx` and the assertion of `_ThreadInit`. -/
structure ThreadRequest.Accepted (constants : ThreadConstants) (request : ThreadRequest Process) :
    Prop where
  name : request.name ≠ none
  function : request.function ≠ 0
  thread : request.thread = true
  lowest : constants.threadPriorityLowest ≤ request.priority
  maximum : request.priority ≤ constants.threadPriorityMaximum

/-- The counters of a process pass the assertions of `ProcessInsertThreadInList`. -/
def ProcessObject.AcceptsThread (process : ProcessObject Thread) : Prop :=
  process.numberOfThreads < maxDword ∧
    (process.activeThreads + 1) % (maxDword + 1) ≤ process.numberOfThreads + 1

/-- No allocation fails behind that of the `THREAD`. -/
structure ThreadAllocations.Suffice (allocations : ThreadAllocations Thread Process)
    (process : ProcessObject Thread) : Prop where
  kernelStack : allocations.kernelStack ≠ 0
  name : allocations.name = true
  userStack : process.kernelSpace = false → process.AcceptsThread → allocations.userStack ≠ 0

/-- A creation that runs on to its end, unless one of its own assertions fails. -/
inductive Completes (t : Thread) : Except Halt (Creation Thread Thread Process) → Prop
  | halted : Completes t (.error .assertion)
  | created (s : ThreadSystem Thread Process) : Completes t (.ok (.ok t,s))

theorem FailsCleanly.halted (s : ThreadSystem Thread Process) (process : Option Process) :
    FailsCleanly s process (.error .assertion) :=
  ⟨(by intro h; cases h),(by intro _ _ h; cases h)⟩

theorem FailsCleanly.created (s s' : ThreadSystem Thread Process) (process : Option Process)
    (t : Thread) : FailsCleanly s process (.ok (.ok t,s')) :=
  ⟨(by intro h; cases h),(by intro _ _ h; cases h)⟩

theorem Completes.failsCleanly {t : Thread}
    {creation : Except Halt (Creation Thread Thread Process)} (h : Completes t creation)
    (s : ThreadSystem Thread Process) (process : Option Process) :
    FailsCleanly s process creation := by
  cases h with
  | halted => exact .halted s process
  | created s' => exact .created s s' process t

theorem Completes.check {t : Thread} {condition : Bool}
    {rest : Unit → Except Halt (Creation Thread Thread Process)}
    (h : condition = true → Completes t (rest ())) : Completes t (check condition >>= rest) := by
  cases condition with
  | false => exact .halted
  | true => exact h rfl

theorem FailsCleanly.refused (s : ThreadSystem Thread Process) (process : Option Process)
    (status : CreationStatus) : FailsCleanly s process (.ok (.error status,s)) := by
  refine ⟨by simp,fun status' s' h => ?_⟩
  obtain ⟨-,rfl⟩ := Prod.mk.inj (Except.ok.inj h)
  exact ⟨rfl,rfl,fun _ _ => rfl,fun _ _ => rfl,fun _ _ => rfl,fun _ _ => rfl⟩

theorem not_failsCleanly_of_listed {s s' : ThreadSystem Thread Process} {process : Option Process}
    {status : CreationStatus} {t : Thread}
    (hlisted : s'.allThreadsList = s.allThreadsList ++ [t]) :
    ¬FailsCleanly s process (.ok (.error status,s')) := by
  intro h
  have hkept := (h.2 status s' rfl).allThreadsList
  rw [hlisted] at hkept
  exact absurd (congrArg List.length hkept) (by simp)

end Failure

section Creation

variable {Thread Process : Type} [DecidableEq Thread] [DecidableEq Process]
  {constants : ThreadConstants} {allocations : ThreadAllocations Thread Process}
  {s : ThreadSystem Thread Process} {t : Thread} {thread : ThreadObject Process}

theorem threadInitFails_unlinked (hreferences : thread.refCnt = 1)
    (hlinked : thread.allList = false) (status : CreationStatus) :
    threadInitFails allocations s t thread status = .error .cleanUp := by
  have hdestroy : threadDereferenced allocations s t thread = none := by
    simp only [threadDereferenced,hreferences,if_pos,threadDestroy,hlinked,removeEntryList]
    rfl
  rw [threadInitFails,hdestroy]

omit [DecidableEq Process] in
theorem threadStarted_completes (startFunction : StartFunction)
    (firstArgument secondArgument : Nat) (kernelSpace : Bool) :
    Completes t (threadStarted constants s t thread startFunction firstArgument secondArgument
      kernelSpace) := by
  simp only [threadStarted,threadSetupInitialState,bind_assoc]
  refine Completes.check fun _ => Completes.check fun _ => ?_
  simp only [pure_bind,threadMadeReady]
  cases s.idleThread with
  | none => exact .created _
  | some _ =>
    simp only [bind_assoc]
    exact Completes.check fun _ => .created _

omit [DecidableEq Process] in
theorem userThreadStarted_completes (process : ProcessObject Thread) (function context : Nat) :
    Completes t (userThreadStarted constants s process t thread function context) := by
  rw [userThreadStarted]
  by_cases hinitial : function = process.addressOfEntryPoint
  · rw [if_pos hinitial]
    exact Completes.check fun _ => threadStarted_completes _ _ _ _
  · rw [if_neg hinitial]
    exact threadStarted_completes _ _ _ _

omit [DecidableEq Thread] in
theorem processInsertThreadInList_inserts (t : Thread) (thread : ThreadObject Process) {p : Process}
    (haccepts : (s.processes p).AcceptsThread) :
    ∃ thread' s', processInsertThreadInList s p t thread = .ok (thread',s') ∧
      s'.allThreadsList = s.allThreadsList ∧
      (s'.processes p).kernelSpace = (s.processes p).kernelSpace := by
  simp only [processInsertThreadInList]
  rw [check_bind_true (decide_eq_true haccepts.1),check_bind_true (decide_eq_true haccepts.2)]
  refine ⟨_,_,rfl,rfl,?_⟩
  simp only [ThreadSystem.setProcess,Function.update_self]

omit [DecidableEq Thread] in
theorem processInsertThreadInList_halts {p : Process}
    (haccepts : ¬(s.processes p).AcceptsThread) :
    processInsertThreadInList s p t thread = .error .assertion := by
  simp only [processInsertThreadInList]
  by_cases hfull : (s.processes p).numberOfThreads < maxDword
  · have hactive := mt (And.intro hfull) haccepts
    rw [check_bind_true (decide_eq_true hfull),check_bind_false (decide_eq_false hactive)]
  · rw [check_bind_false (decide_eq_false hfull)]

theorem createdThreadStarted_failsCleanly {before : ThreadSystem Thread Process}
    {process : Option Process} {p : Process}
    (hlisted : s.allThreadsList = before.allThreadsList ++ [t]) (function context : Nat) :
    FailsCleanly before process (createdThreadStarted constants allocations s p t thread function
        context) ↔
      ((s.processes p).kernelSpace = false → (s.processes p).AcceptsThread →
        allocations.userStack ≠ 0) := by
  by_cases haccepts : (s.processes p).AcceptsThread
  · obtain ⟨thread',s',hinsert,hlist,hspace⟩ :=
      processInsertThreadInList_inserts t thread haccepts
    simp only [createdThreadStarted,hinsert]
    change FailsCleanly _ _ (if _ then _ else _) ↔ _
    rw [hspace]
    cases hkernel : (s.processes p).kernelSpace with
    | true =>
      rw [if_pos rfl]
      exact iff_of_true ((threadStarted_completes _ _ _ _).failsCleanly _ _) fun h => by cases h
    | false =>
      rw [if_neg Bool.false_ne_true]
      by_cases hstack : allocations.userStack = 0
      · rw [if_pos hstack]
        refine iff_of_false (not_failsCleanly_of_listed (t := t) (hlist.trans hlisted)) fun h => ?_
        exact h rfl haccepts hstack
      · rw [if_neg hstack]
        exact iff_of_true ((userThreadStarted_completes _ _ _).failsCleanly _ _) fun _ _ => hstack
  · rw [createdThreadStarted,processInsertThreadInList_halts haccepts]
    exact iff_of_true (.halted _ _) fun _ h => absurd h haccepts

theorem threadInit_eq (name : String) {priority : Nat}
    (hlowest : constants.threadPriorityLowest ≤ priority)
    (hmaximum : priority ≤ constants.threadPriorityMaximum)
    (hthread : allocations.thread = some t) :
    if allocations.kernelStack ≠ 0 ∧ allocations.name = true then
      ∃ thread s', threadInit constants allocations s name priority true =
          .ok (.ok (t,thread),s') ∧
        s'.allThreadsList = s.allThreadsList ++ [t] ∧ s'.processes = s.processes
    else threadInit constants allocations s name priority true = .error .cleanUp := by
  rw [threadInit,check_bind_true (by rw [decide_eq_true hlowest,decide_eq_true hmaximum]; rfl),
    hthread]
  by_cases hstack : allocations.kernelStack = 0
  · rw [if_neg (fun h => h.1 hstack)]
    simp only [hstack,decide_true,Bool.and_self,if_pos]
    exact threadInitFails_unlinked rfl rfl _
  · cases hname : allocations.name with
    | true =>
      rw [if_pos ⟨hstack,rfl⟩]
      simp only [hstack,decide_false,Bool.and_false,Bool.false_eq_true,if_false,if_true]
      exact ⟨_,_,rfl,rfl,rfl⟩
    | false =>
      rw [if_neg (fun h => Bool.false_ne_true h.2)]
      simp only [hstack,decide_false,Bool.and_false,Bool.false_eq_true,if_false,if_true]
      exact threadInitFails_unlinked rfl rfl _

theorem threadInit_halts {name : String} {priority : Nat}
    (hpriority : ¬(constants.threadPriorityLowest ≤ priority ∧
      priority ≤ constants.threadPriorityMaximum)) :
    threadInit constants allocations s name priority true = .error .assertion := by
  rw [threadInit,check_bind_false]
  rw [← Bool.decide_and]
  exact decide_eq_false hpriority

theorem threadInit_noThread {name : String} {priority : Nat}
    (hlowest : constants.threadPriorityLowest ≤ priority)
    (hmaximum : priority ≤ constants.threadPriorityMaximum)
    (hthread : allocations.thread = none) :
    threadInit constants allocations s name priority true =
      .ok (.error .heapInsufficientResources,s) := by
  rw [threadInit,check_bind_true (by rw [decide_eq_true hlowest,decide_eq_true hmaximum]; rfl),
    hthread]
  rfl

theorem threadCreateEx_checked {request : ThreadRequest Process} {name : String} {p : Process}
    (hname : request.name = some name) (hfunction : request.function ≠ 0)
    (hplace : request.thread = true) (hprocess : request.process = some p) :
    threadCreateEx constants allocations s request =
      threadInit constants allocations s name request.priority true >>= fun created =>
        match created with
        | (.error status,s) => .ok (.error status,s)
        | (.ok (t,thread),s) => createdThreadStarted constants allocations s p t thread
            request.function request.context := by
  rw [threadCreateEx,hname,hprocess]
  simp only [if_neg hfunction,hplace,Bool.not_true,Bool.false_eq_true,if_false]
  congr 1
  funext created
  obtain ⟨created,s'⟩ := created
  cases created <;> rfl

theorem threadCreateEx_refused {request : ThreadRequest Process}
    (hrefused : ¬(request.name ≠ none ∧ request.function ≠ 0 ∧ request.thread = true ∧
      request.process ≠ none)) :
    ∃ status, threadCreateEx constants allocations s request = .ok (.error status,s) := by
  rw [threadCreateEx]
  cases hname : request.name with
  | none => exact ⟨_,rfl⟩
  | some name =>
    by_cases hfunction : request.function = 0
    · exact ⟨_,if_pos hfunction⟩
    · simp only [if_neg hfunction]
      cases hplace : request.thread with
      | false => exact ⟨_,rfl⟩
      | true =>
        cases hprocess : request.process with
        | none => exact ⟨_,rfl⟩
        | some p => exact absurd ⟨by simp [hname],hfunction,hplace,by simp [hprocess]⟩ hrefused

/-- A creation that fails leaves the threads as they were exactly when no allocation behind that of
the `THREAD` fails. -/
theorem threadCreateEx_failsCleanly_iff (constants : ThreadConstants)
    (allocations : ThreadAllocations Thread Process) (s : ThreadSystem Thread Process)
    (request : ThreadRequest Process) :
    FailsCleanly s request.process (threadCreateEx constants allocations s request) ↔
      ∀ p, request.process = some p → request.Accepted constants → allocations.thread ≠ none →
        allocations.Suffice (s.processes p) := by
  by_cases hchecked : request.name ≠ none ∧ request.function ≠ 0 ∧ request.thread = true ∧
      request.process ≠ none
  · obtain ⟨hnamed,hfunction,hplace,howned⟩ := hchecked
    obtain ⟨name,hname⟩ := Option.ne_none_iff_exists'.mp hnamed
    obtain ⟨p,hprocess⟩ := Option.ne_none_iff_exists'.mp howned
    rw [threadCreateEx_checked hname hfunction hplace hprocess,hprocess]
    by_cases hpriority : constants.threadPriorityLowest ≤ request.priority ∧
        request.priority ≤ constants.threadPriorityMaximum
    · obtain ⟨hlowest,hmaximum⟩ := hpriority
      have haccepted : request.Accepted constants := ⟨hnamed,hfunction,hplace,hlowest,hmaximum⟩
      cases hthread : allocations.thread with
      | none =>
        rw [threadInit_noThread hlowest hmaximum hthread]
        exact iff_of_true (.refused s _ _) fun _ _ _ h => absurd rfl h
      | some t =>
        have hinit := threadInit_eq (s := s) name hlowest hmaximum hthread
        by_cases hbuilt : allocations.kernelStack ≠ 0 ∧ allocations.name = true
        · rw [if_pos hbuilt] at hinit
          obtain ⟨thread,s',hinit,hlisted,hprocesses⟩ := hinit
          rw [hinit]
          refine (createdThreadStarted_failsCleanly hlisted _ _).trans ?_
          rw [hprocesses]
          constructor
          · intro hstack p' hp' _ _
            obtain rfl := Option.some.inj hp'
            exact ⟨hbuilt.1,hbuilt.2,hstack⟩
          · intro hsuffice
            exact (hsuffice p rfl haccepted (by simp)).userStack
        · rw [if_neg hbuilt] at hinit
          rw [hinit]
          refine iff_of_false (fun h => h.1 rfl) fun hsuffice => ?_
          obtain ⟨hstack,hallocated,-⟩ := hsuffice p rfl haccepted (by simp)
          exact hbuilt ⟨hstack,hallocated⟩
    · rw [threadInit_halts hpriority]
      refine iff_of_true (.halted s _) fun _ _ haccepted => ?_
      exact absurd ⟨haccepted.lowest,haccepted.maximum⟩ hpriority
  · obtain ⟨status,hrefused⟩ : ∃ status, threadCreateEx constants allocations s request =
        .ok (.error status,s) := threadCreateEx_refused hchecked
    rw [hrefused]
    refine iff_of_true (.refused s _ _) fun p hprocess haccepted => ?_
    refine absurd ⟨haccepted.name,haccepted.function,haccepted.thread,?_⟩ hchecked
    rw [hprocess]
    exact Option.some_ne_none p

end Creation

private def exampleConstants : ThreadConstants := ⟨0,31,32,0x300⟩

private def exampleThreadSystem : ThreadSystem Nat Unit where
  threads _ := none
  processes _ := ⟨false,false,0x401000,1,[],0,0,1,false⟩
  allThreadsList := []
  readyThreadsList := []
  currentTid := 0
  idleThread := none

private def mainThreadRequest : ThreadRequest Unit := ⟨some "main",16,0x401000,0,true,some ()⟩

private def withAllocations (kernelStack : Nat) (name : Bool) (userStack : Nat) :
    ThreadAllocations Nat Unit :=
  ⟨some 1,kernelStack,name,userStack,fun _ _ => true⟩

/-- Without a kernel stack or a name the clean-up takes the thread from a list it is not in; without
a user stack the thread stays where it is. -/
theorem threadCreateEx_leaves :
    ¬FailsCleanly exampleThreadSystem (some ()) (threadCreateEx exampleConstants
        (withAllocations 0 true 0) exampleThreadSystem mainThreadRequest) ∧
      ¬FailsCleanly exampleThreadSystem (some ()) (threadCreateEx exampleConstants
        (withAllocations 0x100A000 false 0) exampleThreadSystem mainThreadRequest) ∧
      ∃ s, threadCreateEx exampleConstants (withAllocations 0x100A000 true 0) exampleThreadSystem
          mainThreadRequest = .ok (.error .memoryCannotBeCommited,s) ∧
        s.allThreadsList = [1] ∧ (s.threads 1).isSome = true ∧
        (s.processes ()).threadList = [1] ∧ (s.processes ()).numberOfThreads = 1 ∧
        (s.processes ()).activeThreads = 1 ∧ (s.processes ()).refCnt = 2 :=
  ⟨fun h => h.1 rfl,fun h => h.1 rfl,_,rfl,rfl,rfl,rfl,rfl,rfl,rfl⟩

end Hal9000
