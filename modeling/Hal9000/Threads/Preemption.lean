import Hal9000.Io.Interrupts
import Hal9000.Threads.Places

/-!
# Preemption

The interrupt handler of `isr.c` around the scheduler. A CPU takes an interrupt while it runs a
thread, and the handler has the thread until it returns; the system tick charges the thread with
its time slice, and the handler yields in its place when the slice is used up. What a CPU has of an
interrupt is gone before it yields: the thread may come back on another CPU, or never.
-/

namespace Hal9000

def threadTimeSlice : Nat := 1
def picMasterOffset : Nat := 32
def picSlaveOffset : Nat := 40

theorem threadTimeSlice_pos : 0 < threadTimeSlice := by decide

/-- A function that `_IomuGenericInterrupt` calls. -/
inductive IsrFunction
  /-- `_IomuSystemTickInterrupt`. -/
  | systemTick
  | device
  deriving DecidableEq

/-- Where a CPU is in `_IsrInterruptHandler`. -/
inductive IsrHandlerPc
  /-- In no interrupt. -/
  | thread
  | functions (vector prevIrql : Nat) (rest : List IsrFunction)
  | called (vector prevIrql : Nat) (interruptHandled : Bool)
  | acknowledged (prevIrql : Nat)
  | lowered
  deriving DecidableEq

structure IsrState (Cpu Thread : Type) where
  sched : SchedState Cpu Thread
  isr : Cpu → IsrHandlerPc
  /-- The task priority register. -/
  irql : Cpu → Nat
  /-- The vectors the local APIC has in service, the last one first. -/
  inService : Cpu → List Nat
  idleTicks : Cpu → Nat
  kernelTicks : Cpu → Nat
  runningThreadTicks : Cpu → Nat
  yieldOnInterruptReturn : Cpu → Bool
  tickCountCompleted : Thread → Nat

inductive IsrAction (Cpu Thread : Type)
  | sched (action : SchedAction Cpu Thread)
  /-- A CPU takes an interrupt. One that the local APIC did not send is not in service. -/
  | interrupt (c : Cpu) (vector : Nat) (serviced : Bool)
  /-- The next function for the vector, and whether it finds that its device interrupted. -/
  | isrFunction (c : Cpu) (handles : Bool)
  | isrReturn (c : Cpu)

section Isr

variable {Cpu Thread : Type} [DecidableEq Cpu] [DecidableEq Thread]

def IsrState.setIsr (s : IsrState Cpu Thread) (c : Cpu) (isr : IsrHandlerPc) : IsrState Cpu Thread :=
  { s with isr := Function.update s.isr c isr }

/-- `ThreadYield` clears the flag, and `ThreadCleanupPostSchedule` begins a time slice. -/
def IsrState.schedule (s : IsrState Cpu Thread) (action : SchedAction Cpu Thread) :
    Option (IsrState Cpu Thread) :=
  (schedStep s.sched action).map fun sched' => match action with
    | .threadYield c => { s with
        sched := sched'
        yieldOnInterruptReturn := Function.update s.yieldOnInterruptReturn c false }
    | .run c =>
      if s.sched.pc c = .releaseReady then
        { s with
          sched := sched'
          runningThreadTicks := Function.update s.runningThreadTicks c 0 }
      else { s with sched := sched' }
    | _ => { s with sched := sched' }

/-- The functions of an interrupt call into the scheduler to unblock threads only. -/
def IsrHandlerPc.mayUnblock : IsrHandlerPc → Bool
  | .thread | .functions _ _ _ => true
  | _ => false

/-- The thread of a CPU calls nothing while the CPU is in an interrupt. -/
def IsrState.allows (s : IsrState Cpu Thread) : SchedAction Cpu Thread → Bool
  | .run _ | .threadCloseHandle _ | .threadTerminate _ => true
  | .threadUnblock c _ => (s.isr c).mayUnblock
  | .threadYield c | .threadTakeBlockLock c | .threadExit c | .threadInit c _
  | .threadSetupInitialState c _ | .threadStart c _ => s.isr c = .thread

def IsrState.threadTick (s : IsrState Cpu Thread) (c : Cpu) : IsrState Cpu Thread :=
  let t := s.sched.currentThread c
  let idle := s.sched.idleThread c = some t
  let ticks := s.runningThreadTicks c + 1
  { s with
    idleTicks := if idle then Function.update s.idleTicks c (s.idleTicks c + 1) else s.idleTicks
    kernelTicks :=
      if idle then s.kernelTicks else Function.update s.kernelTicks c (s.kernelTicks c + 1)
    tickCountCompleted := Function.update s.tickCountCompleted t (s.tickCountCompleted t + 1)
    runningThreadTicks := Function.update s.runningThreadTicks c ticks
    yieldOnInterruptReturn :=
      if threadTimeSlice ≤ ticks then Function.update s.yieldOnInterruptReturn c true
      else s.yieldOnInterruptReturn }

variable (data : IomuData IsrFunction) (irqSpurious : Nat)

/-- What the routine in the table of the ISRs calls. Without one the interrupt is not handled. -/
def isrFunctions (vector : Nat) : List IsrFunction :=
  match data.isrRoutines (vector - noOfReservedExceptions) with
  | none => []
  | some (.iomuGenericInterrupt,interrupt) => data.registeredInterrupts interrupt
  | some (.other,_) => [.device]

def iomuIsInterruptSpurious (inService : List Nat) (vector : Nat) : Bool :=
  (vector == picMasterOffset + irqSpurious || vector == picSlaveOffset + irqSpurious) &&
    !inService.contains vector

/-- A CPU takes an interrupt when its thread has interrupts enabled; the local APIC sends only what
is above the priority of the CPU and of what it has in service. -/
def IsrState.TakesInterrupt (s : IsrState Cpu Thread) (c : Cpu) (vector : Nat) (serviced : Bool) :
    Prop :=
  s.sched.pc c = .running ∧ s.isr c = .thread ∧ noOfReservedExceptions ≤ vector ∧
    (serviced = true → s.irql c < vectorToIrql vector ∧
      ∀ v ∈ s.inService c, vectorToIrql v < vectorToIrql vector)

instance IsrState.decidableTakesInterrupt (s : IsrState Cpu Thread) (c : Cpu) (vector : Nat)
    (serviced : Bool) : Decidable (s.TakesInterrupt c vector serviced) := by
  unfold IsrState.TakesInterrupt
  infer_instance

def isrStep (s : IsrState Cpu Thread) : IsrAction Cpu Thread → Option (IsrState Cpu Thread)
  | .sched action => if s.allows action then s.schedule action else none
  | .interrupt c vector serviced =>
    if s.TakesInterrupt c vector serviced then do
      -- CpuMuRaiseIrql
      assert (decide (s.irql c ≤ vectorToIrql vector))
      return { s.setIsr c (.functions vector (s.irql c) (isrFunctions data vector)) with
        irql := Function.update s.irql c (vectorToIrql vector)
        inService :=
          if serviced then Function.update s.inService c (vector :: s.inService c)
          else s.inService }
    else none
  | .isrFunction c handles =>
    if s.sched.pc c = .running then
      match s.isr c with
      | .functions vector prevIrql [] => some (s.setIsr c (.called vector prevIrql false))
      | .functions vector prevIrql (.systemTick :: _) =>
        some ((s.threadTick c).setIsr c (.called vector prevIrql true))
      | .functions vector prevIrql (.device :: rest) =>
        some (s.setIsr c (if handles then .called vector prevIrql true
          else .functions vector prevIrql rest))
      | _ => none
    else none
  | .isrReturn c =>
    match s.isr c with
    | .called vector prevIrql interruptHandled => do
      let bSpuriousInterrupt :=
        !interruptHandled && iomuIsInterruptSpurious irqSpurious (s.inService c) vector
      assert (interruptHandled || bSpuriousInterrupt)
      -- the local APIC ends the interrupt of the highest priority
      return { s.setIsr c (.acknowledged prevIrql) with
        inService :=
          if bSpuriousInterrupt then s.inService
          else Function.update s.inService c (s.inService c).tail }
    | .acknowledged prevIrql => do
      -- CpuMuLowerIrql
      assert (decide (prevIrql ≤ s.irql c))
      return { s.setIsr c .lowered with irql := Function.update s.irql c prevIrql }
    | .lowered =>
      if s.yieldOnInterruptReturn c then (s.setIsr c .thread).schedule (.threadYield c)
      else some (s.setIsr c .thread)
    | _ => none

structure IsrState.Initial (s : IsrState Cpu Thread) : Prop where
  sched : s.sched.Initial
  isr : ∀ c, s.isr c = .thread
  irql : ∀ c, s.irql c = 0
  inService : ∀ c, s.inService c = []
  ticks : ∀ c, s.runningThreadTicks c = 0
  flag : ∀ c, s.yieldOnInterruptReturn c = false

/-- Every CPU runs its main thread. -/
def IsrState.start [Fintype Cpu] (main : Cpu → Thread) : IsrState Cpu Thread where
  sched := .start main
  isr _ := .thread
  irql _ := 0
  inService _ := []
  idleTicks _ := 0
  kernelTicks _ := 0
  runningThreadTicks _ := 0
  yieldOnInterruptReturn _ := false
  tickCountCompleted _ := 0

omit [DecidableEq Cpu] in
theorem IsrState.start_initial [Fintype Cpu] {main : Cpu → Thread}
    (hmain : Function.Injective main) : (IsrState.start main).Initial where
  sched := SchedState.start_initial hmain
  isr _ := rfl
  irql _ := rfl
  inService _ := rfl
  ticks _ := rfl
  flag _ := rfl

def isrSystem (Cpu Thread : Type) [DecidableEq Cpu] [DecidableEq Thread] :
    TransitionSystem (IsrState Cpu Thread) (IsrAction Cpu Thread) where
  init := IsrState.Initial
  step := isrStep data irqSpurious

end Isr

end Hal9000
