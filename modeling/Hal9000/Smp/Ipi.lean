import Hal9000.Common.Machine
import Hal9000.Framework.TransitionSystem

/-!
# Inter-processor interrupts

`SmpSendGenericIpiEx` queues an event on every CPU that matches the destination and then has the
local APIC interrupt them; `_SmpIpcIpiIsr` takes one event for each interrupt. A step is what is
done under one lock, or one access to an event.
-/

namespace Hal9000

inductive SmpIpiSendMode
  | sendToCpu
  | sendToSelf
  | sendToAllIncludingSelf
  | sendToAllExcludingSelf
  | sendToGroup
  deriving DecidableEq

inductive ApicDestinationShorthand
  | none
  | self
  | all
  | allExcludingSelf
  deriving DecidableEq

inductive ApicDestinationMode
  | physical
  | logical
  deriving DecidableEq

/-- The CPUs of the machine. -/
structure SmpData (Cpu : Type) where
  cpuList : List Cpu
  apicId : Cpu → BitVec 8
  nodup : cpuList.Nodup
  mem : ∀ c, c ∈ cpuList
  distinct : Function.Injective apicId

/-- What `SmpSendGenericIpiEx` is called with. Without `interruptible`, interrupts are off or the
priority is that of the IPI. -/
structure IpiRequest where
  sendMode : SmpIpiSendMode
  destination : BitVec 8
  waitForHandling : Bool
  interruptible : Bool
  deriving DecidableEq

/-- `IsBooleanFlagOn`. -/
def isBooleanFlagOn (value flag : BitVec 8) : Bool := value &&& flag == flag

namespace SmpData

variable {Cpu : Type} [DecidableEq Cpu] (smp : SmpData Cpu)

/-- `(BYTE) (1U << ApicId)`; the processor takes the count modulo 32. -/
def logicalApicId (c : Cpu) : BitVec 8 :=
  ((1 : BitVec 32) <<< ((smp.apicId c).toNat % 32)).setWidth 8

/-- `_SmpDoesCpuMatchDestination`, on the CPU `current`. -/
def smpDoesCpuMatchDestination (current : Cpu) (sendMode : SmpIpiSendMode) (destination : BitVec 8)
    (c : Cpu) : Bool :=
  match sendMode with
  | .sendToAllExcludingSelf => smp.apicId c != smp.apicId current
  | .sendToAllIncludingSelf => true
  | .sendToSelf => smp.apicId c == smp.apicId current
  | .sendToCpu => smp.apicId c == destination
  | .sendToGroup => isBooleanFlagOn destination (smp.logicalApicId c)

/-- `_SmpRetrieveMatchingCpus`: the matches that fit, and the number of all matches. -/
def smpRetrieveMatchingCpus (current : Cpu) (sendMode : SmpIpiSendMode) (destination : BitVec 8)
    (maximumCpuMatches : Nat) : List Cpu × Nat :=
  let cpus := smp.cpuList.filter (smp.smpDoesCpuMatchDestination current sendMode destination)
  (cpus.take maximumCpuMatches,cpus.length)

/-- The CPUs whose local APIC accepts an IPI that `current` sends: flat logical mode, and the
physical broadcast. -/
def lapicAccepts (current : Cpu) (apicId : BitVec 8) (shorthand : ApicDestinationShorthand)
    (mode : ApicDestinationMode) (c : Cpu) : Bool :=
  match shorthand with
  | .self => c == current
  | .all => true
  | .allExcludingSelf => c != current
  | .none =>
    match mode with
    | .physical => apicId == 0xFF || smp.apicId c == apicId
    | .logical => apicId &&& smp.logicalApicId c != 0

/-- `_SmpSendIpcIpi`: the CPUs it interrupts. -/
def smpSendIpcIpi (current : Cpu) (sendMode : SmpIpiSendMode) (destination : BitVec 8) :
    Cpu → Bool :=
  let shorthand : ApicDestinationShorthand :=
    match sendMode with
    | .sendToCpu | .sendToGroup => .none
    | .sendToSelf => .self
    | .sendToAllIncludingSelf => .all
    | .sendToAllExcludingSelf => .allExcludingSelf
  let mode : ApicDestinationMode := if sendMode ≠ .sendToGroup then .physical else .logical
  let apicId :=
    if sendMode = .sendToCpu ∨ sendMode = .sendToGroup then destination else 0
  smp.lapicAccepts current apicId shorthand mode

end SmpData

/-- Where a thread is in `SmpSendGenericIpiEx`. -/
inductive SenderPc (Cpu Event : Type)
  | idle
  | counted (request : IpiRequest) (noOfMatchingCpus : Nat)
  | identified (request : IpiRequest) (noOfMatchingCpus : Nat) (apicId : BitVec 8)
  | matched (request : IpiRequest) (apicId : BitVec 8) (matchingCpus : List Cpu)
  /-- The loop, with the CPUs that are left. -/
  | inserting (request : IpiRequest) (apicId : BitVec 8) (matchingCpus : List Cpu) (event : Event)
    (left : List Cpu) (selfInDestination : Bool)
  | waiting (event : Event)
  /-- `EvtWaitForSignal` has returned. -/
  | signaled (event : Event)
  deriving DecidableEq

/-- Where a CPU is in `_SmpIpcIpiIsr`. -/
inductive IsrPc (Event : Type)
  | none
  | entered
  | removed (event : Event)
  /-- `BroadcastFunction` has returned. -/
  | returned (event : Event) (signalTermination : Bool)
  | dereferenced (event : Event) (signalTermination : Bool) (newRefCount : Nat)
  /-- The interrupt is not acknowledged yet. -/
  | processed
  deriving DecidableEq

structure SmpState (Cpu Thread Event : Type) where
  cpu : Thread → Cpu
  pc : Thread → SenderPc Cpu Event
  eventList : Cpu → List Event
  noOfEventsInList : Cpu → Nat
  pending : Cpu → Bool
  isr : Cpu → IsrPc Event
  /-- The CPUs that the entries `CpuEvents` of the event are for; none before it is allocated. -/
  cpuEvents : Event → List Cpu
  refCnt : Event → Nat
  signalTermination : Event → Bool
  terminationEvent : Event → Bool

inductive SmpAction (Cpu Thread Event : Type)
  | smpSendGenericIpiEx (t : Thread) (request : IpiRequest)
  /-- `IpcGenerateEvent`, with what the heap returns. -/
  | ipcGenerateEvent (t : Thread) (event : Option Event)
  | run (t : Thread)
  | migrate (t : Thread) (c : Cpu)
  | interrupt (c : Cpu)
  | handle (c : Cpu)
  deriving DecidableEq

section Smp

variable {Cpu Thread Event : Type} [DecidableEq Cpu] [DecidableEq Thread] [DecidableEq Event]

namespace SmpState

def setPc (s : SmpState Cpu Thread Event) (t : Thread) (pc : SenderPc Cpu Event) :
    SmpState Cpu Thread Event :=
  { s with pc := Function.update s.pc t pc }

def setIsr (s : SmpState Cpu Thread Event) (c : Cpu) (isr : IsrPc Event) :
    SmpState Cpu Thread Event :=
  { s with isr := Function.update s.isr c isr }

/-- `RfcDereference`. -/
def rfcDereference (s : SmpState Cpu Thread Event) (event : Event) : SmpState Cpu Thread Event :=
  { s with refCnt := Function.update s.refCnt event (s.refCnt event - 1) }

/-- `InsertTailList`, with the count. -/
def insertEvent (s : SmpState Cpu Thread Event) (c : Cpu) (event : Event) :
    SmpState Cpu Thread Event :=
  { s with
    eventList := Function.update s.eventList c (s.eventList c ++ [event])
    noOfEventsInList := Function.update s.noOfEventsInList c (s.noOfEventsInList c + 1) }

/-- The CPUs accept an IPI; one that has it pending already stays as it is. -/
def sendIpi (s : SmpState Cpu Thread Event) (accepts : Cpu → Bool) : SmpState Cpu Thread Event :=
  { s with pending := fun c => s.pending c || accepts c }

/-- The memory of a new event: a reference for every CPU, and one for a thread that waits. -/
def initEvent (s : SmpState Cpu Thread Event) (event : Event) (cpus : List Cpu)
    (waitForHandling : Bool) : SmpState Cpu Thread Event :=
  let noOfAdditionalReferences := if waitForHandling then cpus.length else cpus.length - 1
  { s with
    cpuEvents := Function.update s.cpuEvents event cpus
    refCnt := Function.update s.refCnt event (1 + noOfAdditionalReferences)
    signalTermination := Function.update s.signalTermination event waitForHandling
    terminationEvent := Function.update s.terminationEvent event false }

end SmpState

variable (smp : SmpData Cpu)

/-- The next step of a thread, after the event is allocated and before. -/
def senderRun (s : SmpState Cpu Thread Event) (t : Thread) : Option (SmpState Cpu Thread Event) :=
  match s.pc t with
  | .idle | .matched _ _ _ => none
  | .counted request count => some (s.setPc t (.identified request count (smp.apicId (s.cpu t))))
  | .identified request count apicId =>
    let matching := smp.smpRetrieveMatchingCpus (s.cpu t) request.sendMode request.destination count
    if matching.2 > count then some (s.setPc t .idle)
    else do
      assert (decide (matching.2 = count))
      return s.setPc t (.matched request apicId matching.1)
  | .inserting request apicId cpus event (c :: left) selfInDestination =>
    some ((s.insertEvent c event).setPc t (.inserting request apicId cpus event left
      (apicId == smp.apicId c || selfInDestination)))
  | .inserting request _ _ event [] selfInDestination =>
    let s := s.sendIpi (smp.smpSendIpcIpi (s.cpu t) request.sendMode request.destination)
    if request.waitForHandling then do
      assert (!selfInDestination || request.interruptible)
      return s.setPc t (.waiting event)
    else some (s.setPc t .idle)
  | .waiting event => do
    assert (s.signalTermination event)
    if s.terminationEvent event then
      return { s.setPc t (.signaled event) with
        terminationEvent := Function.update s.terminationEvent event false }
    else none
  | .signaled event => some ((s.rfcDereference event).setPc t .idle)

/-- The next step of `_SmpIpcIpiIsr` and `IpcProcessEvent`. -/
def isrRun (s : SmpState Cpu Thread Event) (c : Cpu) : Option (SmpState Cpu Thread Event) :=
  match s.isr c with
  | .none => none
  | .entered => do
    assert (decide (s.noOfEventsInList c > 0))
    match s.eventList c with
    | [] => none
    | event :: rest =>
      return { s.setIsr c (.removed event) with
        eventList := Function.update s.eventList c rest
        noOfEventsInList := Function.update s.noOfEventsInList c (s.noOfEventsInList c - 1) }
  | .removed event => some (s.setIsr c (.returned event (s.signalTermination event)))
  | .returned event signalTermination =>
    some ((s.rfcDereference event).setIsr c
      (.dereferenced event signalTermination (s.refCnt event - 1)))
  | .dereferenced event signalTermination newRefCount =>
    if signalTermination ∧ newRefCount = 1 then
      some { s.setIsr c .processed with
        terminationEvent := Function.update s.terminationEvent event true }
    else some (s.setIsr c .processed)
  | .processed => some (s.setIsr c .none)

def smpStep (s : SmpState Cpu Thread Event) :
    SmpAction Cpu Thread Event → Option (SmpState Cpu Thread Event)
  | .smpSendGenericIpiEx t request =>
    if s.pc t = .idle ∧ s.isr (s.cpu t) = .none then
      let count := (smp.smpRetrieveMatchingCpus (s.cpu t) request.sendMode request.destination 0).2
      some (if count = 0 then s else s.setPc t (.counted request count))
    else none
  | .ipcGenerateEvent t event =>
    match s.pc t with
    | .matched request apicId cpus =>
      if s.isr (s.cpu t) = .none then
        match event with
        | none => some (s.setPc t .idle)
        | some event =>
          -- memory that is in use is not allocated
          if s.cpuEvents event = [] then
            some ((s.initEvent event cpus request.waitForHandling).setPc t
              (.inserting request apicId cpus event cpus false))
          else none
      else none
    | _ => none
  | .run t => if s.isr (s.cpu t) = .none then senderRun smp s t else none
  | .migrate t c => some { s with cpu := Function.update s.cpu t c }
  | .interrupt c =>
    if s.pending c ∧ s.isr c = .none then
      some { s.setIsr c .entered with pending := Function.update s.pending c false }
    else none
  | .handle c => isrRun s c

/-- No IPI was sent yet. -/
structure SmpState.Initial (s : SmpState Cpu Thread Event) : Prop where
  pc : ∀ t, s.pc t = .idle
  eventList : ∀ c, s.eventList c = []
  noOfEventsInList : ∀ c, s.noOfEventsInList c = 0
  pending : ∀ c, s.pending c = false
  isr : ∀ c, s.isr c = .none
  cpuEvents : ∀ event, s.cpuEvents event = []
  refCnt : ∀ event, s.refCnt event = 0
  signalTermination : ∀ event, s.signalTermination event = false
  terminationEvent : ∀ event, s.terminationEvent event = false

/-- The threads run on these CPUs and no IPI was sent yet. -/
def SmpState.start (cpu : Thread → Cpu) : SmpState Cpu Thread Event where
  cpu := cpu
  pc _ := .idle
  eventList _ := []
  noOfEventsInList _ := 0
  pending _ := false
  isr _ := .none
  cpuEvents _ := []
  refCnt _ := 0
  signalTermination _ := false
  terminationEvent _ := false

omit [DecidableEq Cpu] [DecidableEq Thread] [DecidableEq Event] in
theorem SmpState.start_initial (cpu : Thread → Cpu) :
    (SmpState.start cpu : SmpState Cpu Thread Event).Initial :=
  ⟨fun _ => rfl,fun _ => rfl,fun _ => rfl,fun _ => rfl,fun _ => rfl,fun _ => rfl,fun _ => rfl,
    fun _ => rfl,fun _ => rfl⟩

def smpSystem : TransitionSystem (SmpState Cpu Thread Event) (SmpAction Cpu Thread Event) where
  init := SmpState.Initial
  step := smpStep smp

/-- What a step does with an event. -/
inductive SmpTrace (Cpu Event : Type)
  | queued (c : Cpu) (event : Event)
  /-- The IPI for the event is sent to the CPU. -/
  | sent (c : Cpu) (event : Event)
  | removed (c : Cpu) (event : Event)
  /-- The handler on the CPU has returned from `BroadcastFunction`. -/
  | returned (c : Cpu) (event : Event)
  | dereferenced (c : Cpu) (event : Event)
  /-- The thread that waited drops its reference and returns. -/
  | released (event : Event)
  | freed (event : Event)
  deriving DecidableEq

variable {smp}

/-- The reference that is dropped is the last one. -/
def SmpState.freedTrace (s : SmpState Cpu Thread Event) (event : Event) :
    List (SmpTrace Cpu Event) :=
  if s.refCnt event = 1 then [.freed event] else []

variable (smp) in
def smpTrace (s : SmpState Cpu Thread Event) :
    SmpAction Cpu Thread Event → List (SmpTrace Cpu Event)
  | .run t =>
    match s.pc t with
    | .inserting _ _ _ event (c :: _) _ => [.queued c event]
    | .inserting request _ _ event [] _ =>
      (smp.cpuList.filter (smp.smpSendIpcIpi (s.cpu t) request.sendMode request.destination)).map
        (.sent · event)
    | .signaled event => .released event :: s.freedTrace event
    | _ => []
  | .handle c =>
    match s.isr c with
    | .entered => (s.eventList c).head?.toList.map (.removed c ·)
    | .removed event => [.returned c event]
    | .returned event _ => .dereferenced c event :: s.freedTrace event
    | _ => []
  | _ => []

/-- The event that a thread has a pointer to. -/
def SenderPc.event : SenderPc Cpu Event → Option Event
  | .inserting _ _ _ event _ _ | .waiting event | .signaled event => some event
  | _ => none

/-- The event whose entry the handler has removed and whose reference it still has. -/
def IsrPc.handling : IsrPc Event → Option Event
  | .removed event | .returned event _ => some event
  | _ => Option.none

variable (smp) in
/-- The matching CPUs are some, and those of the CPU that `_SmpRetrieveMatchingCpus` ran on. -/
def SenderPc.WellFormed : SenderPc Cpu Event → Prop
  | .counted _ count | .identified _ count _ => 0 < count
  | .matched request _ cpus | .inserting request _ cpus _ _ _ => cpus ≠ [] ∧ ∃ current,
    cpus = smp.cpuList.filter
      (smp.smpDoesCpuMatchDestination current request.sendMode request.destination)
  | _ => True

variable (smp) in
/-- The steps, with what they do with events. -/
inductive SmpEffect (s : SmpState Cpu Thread Event) :
    SmpAction Cpu Thread Event → List (SmpTrace Cpu Event) → SmpState Cpu Thread Event → Prop
  | stay {t : Thread} {request : IpiRequest} : SmpEffect s (.smpSendGenericIpiEx t request) [] s
  /-- The thread has no event, before and after. -/
  | outside {action : SmpAction Cpu Thread Event} {t : Thread} {pc : SenderPc Cpu Event}
      (hold : (s.pc t).event = none) (hnew : pc.event = none)
      (hwell : (s.pc t).WellFormed smp → pc.WellFormed smp) : SmpEffect s action [] (s.setPc t pc)
  | generate {t : Thread} {request : IpiRequest} {apicId : BitVec 8} {cpus : List Cpu}
      {event : Event} (hpc : s.pc t = .matched request apicId cpus)
      (hfree : s.cpuEvents event = []) :
      SmpEffect s (.ipcGenerateEvent t (some event)) []
        ((s.initEvent event cpus request.waitForHandling).setPc t
          (.inserting request apicId cpus event cpus false))
  | insert {t : Thread} {request : IpiRequest} {apicId : BitVec 8} {cpus left : List Cpu}
      {event : Event} {c : Cpu} {self : Bool}
      (hpc : s.pc t = .inserting request apicId cpus event (c :: left) self) :
      SmpEffect s (.run t) [.queued c event] ((s.insertEvent c event).setPc t
        (.inserting request apicId cpus event left (apicId == smp.apicId c || self)))
  | send {t : Thread} {request : IpiRequest} {apicId : BitVec 8} {cpus : List Cpu}
      {event : Event} {self : Bool} (hpc : s.pc t = .inserting request apicId cpus event [] self) :
      SmpEffect s (.run t)
        ((smp.cpuList.filter (smp.smpSendIpcIpi (s.cpu t) request.sendMode
          request.destination)).map (.sent · event))
        ((s.sendIpi (smp.smpSendIpcIpi (s.cpu t) request.sendMode request.destination)).setPc t
          (if request.waitForHandling then .waiting event else .idle))
  | wake {t : Thread} {event : Event} (hpc : s.pc t = .waiting event)
      (hsignaled : s.terminationEvent event = true) :
      SmpEffect s (.run t) [] { s.setPc t (.signaled event) with
        terminationEvent := Function.update s.terminationEvent event false }
  | release {t : Thread} {event : Event} (hpc : s.pc t = .signaled event) :
      SmpEffect s (.run t) (.released event :: s.freedTrace event)
        ((s.rfcDereference event).setPc t .idle)
  | migrate {t : Thread} {c : Cpu} : SmpEffect s (.migrate t c) []
      { s with cpu := Function.update s.cpu t c }
  | interrupt {c : Cpu} (hpending : s.pending c = true) (hisr : s.isr c = .none) :
      SmpEffect s (.interrupt c) []
        { s.setIsr c .entered with pending := Function.update s.pending c false }
  | remove {c : Cpu} {event : Event} {rest : List Event} (hisr : s.isr c = .entered)
      (hlist : s.eventList c = event :: rest) :
      SmpEffect s (.handle c) [.removed c event] { s.setIsr c (.removed event) with
        eventList := Function.update s.eventList c rest
        noOfEventsInList := Function.update s.noOfEventsInList c (s.noOfEventsInList c - 1) }
  | call {c : Cpu} {event : Event} (hisr : s.isr c = .removed event) :
      SmpEffect s (.handle c) [.returned c event]
        (s.setIsr c (.returned event (s.signalTermination event)))
  | dereference {c : Cpu} {event : Event} {signalTermination : Bool}
      (hisr : s.isr c = .returned event signalTermination) :
      SmpEffect s (.handle c) (.dereferenced c event :: s.freedTrace event)
        ((s.rfcDereference event).setIsr c
          (.dereferenced event signalTermination (s.refCnt event - 1)))
  | signal {c : Cpu} {event : Event} (hisr : s.isr c = .dereferenced event true 1) :
      SmpEffect s (.handle c) [] { s.setIsr c .processed with
        terminationEvent := Function.update s.terminationEvent event true }
  | finish {c : Cpu} {isr : IsrPc Event} (hentered : s.isr c ≠ .entered)
      (hhandling : (s.isr c).handling = none) (hnew : isr = .processed ∨ isr = .none)
      (hlast : ∀ event, s.isr c ≠ .dereferenced event true 1) :
      SmpEffect s (.handle c) [] (s.setIsr c isr)

variable {s s' : SmpState Cpu Thread Event} {action : SmpAction Cpu Thread Event}

private theorem senderRun_cases {t : Thread} (h : senderRun smp s t = some s') :
    SmpEffect smp s (.run t) (smpTrace smp s (.run t)) s' := by
  simp only [senderRun] at h
  simp only [smpTrace]
  cases hpc : s.pc t with
  | idle | matched => simp [hpc] at h
  | counted request count =>
    rw [hpc] at h
    obtain rfl := Option.some.inj h
    exact .outside (by rw [hpc]; rfl) rfl (by rw [hpc]; exact id)
  | identified request count apicId =>
    rw [hpc] at h
    simp only at h
    split_ifs at h with hmore
    · obtain rfl := Option.some.inj h
      exact .outside (by rw [hpc]; rfl) rfl (fun _ => trivial)
    · obtain ⟨_,hcount,hs⟩ := Option.bind_eq_some_iff.mp h
      obtain rfl := Option.some.inj hs
      simp only [assert_eq_some,decide_eq_true_eq] at hcount
      refine .outside (by rw [hpc]; rfl) rfl ?_
      rw [hpc]
      intro hpositive
      have hall : (smp.smpRetrieveMatchingCpus (s.cpu t) request.sendMode request.destination
          count).1 = smp.cpuList.filter
            (smp.smpDoesCpuMatchDestination (s.cpu t) request.sendMode request.destination) := by
        apply List.take_of_length_le
        exact hcount.le
      refine ⟨?_,s.cpu t,hall⟩
      rw [hall]
      rintro hnone
      rw [SmpData.smpRetrieveMatchingCpus,hnone] at hcount
      exact hpositive.ne hcount
  | inserting request apicId cpus event left self =>
    rw [hpc] at h
    cases left with
    | cons c left =>
      obtain rfl := Option.some.inj h
      exact .insert hpc
    | nil =>
      simp only at h
      split_ifs at h with hwait
      · obtain ⟨_,_,hs⟩ := Option.bind_eq_some_iff.mp h
        obtain rfl := Option.some.inj hs
        have heffect : SmpEffect smp s _ _ _ := .send hpc
        rwa [if_pos hwait] at heffect
      · obtain rfl := Option.some.inj h
        have heffect : SmpEffect smp s _ _ _ := .send hpc
        rwa [if_neg hwait] at heffect
  | waiting event =>
    rw [hpc] at h
    obtain ⟨_,_,hs⟩ := Option.bind_eq_some_iff.mp h
    split_ifs at hs with hsignaled
    obtain rfl := Option.some.inj hs
    exact .wake hpc hsignaled
  | signaled event =>
    rw [hpc] at h
    obtain rfl := Option.some.inj h
    exact .release hpc

private theorem isrRun_cases {c : Cpu} (h : isrRun s c = some s') :
    SmpEffect smp s (.handle c) (smpTrace smp s (.handle c)) s' := by
  simp only [isrRun] at h
  simp only [smpTrace]
  cases hisr : s.isr c with
  | none => simp [hisr] at h
  | entered =>
    rw [hisr] at h
    obtain ⟨_,_,hs⟩ := Option.bind_eq_some_iff.mp h
    split at hs
    · cases hs
    · rename_i event rest hlist
      obtain rfl := Option.some.inj hs
      rw [hlist]
      exact .remove hisr hlist
  | removed event =>
    rw [hisr] at h
    obtain rfl := Option.some.inj h
    exact .call hisr
  | returned event signalTermination =>
    rw [hisr] at h
    obtain rfl := Option.some.inj h
    exact .dereference hisr
  | dereferenced event signalTermination newRefCount =>
    rw [hisr] at h
    simp only at h
    split_ifs at h with hlast
    · obtain rfl := Option.some.inj h
      obtain ⟨rfl,rfl⟩ := hlast
      exact .signal hisr
    · obtain rfl := Option.some.inj h
      refine .finish (by simp [hisr]) (by rw [hisr]; rfl) (Or.inl rfl) ?_
      intro event' heq
      rw [hisr] at heq
      cases heq
      exact hlast ⟨rfl,rfl⟩
  | processed =>
    rw [hisr] at h
    obtain rfl := Option.some.inj h
    exact .finish (by simp [hisr]) (by rw [hisr]; rfl) (Or.inr rfl) (by simp [hisr])

theorem smpStep_cases (h : smpStep smp s action = some s') :
    SmpEffect smp s action (smpTrace smp s action) s' := by
  cases action with
  | smpSendGenericIpiEx t request =>
    simp only [smpStep] at h
    split_ifs at h with hidle hcount
    · obtain rfl := Option.some.inj h
      exact .stay
    · obtain rfl := Option.some.inj h
      exact .outside (by rw [hidle.1]; rfl) rfl (fun _ => Nat.pos_of_ne_zero hcount)
  | ipcGenerateEvent t event =>
    simp only [smpStep] at h
    split at h
    · rename_i request apicId cpus hpc
      split_ifs at h
      split at h
      · obtain rfl := Option.some.inj h
        exact .outside (by rw [hpc]; rfl) rfl (fun _ => trivial)
      · split_ifs at h with hfree
        obtain rfl := Option.some.inj h
        exact .generate hpc hfree
    · cases h
  | run t =>
    simp only [smpStep] at h
    split_ifs at h
    exact senderRun_cases h
  | migrate t c =>
    obtain rfl := Option.some.inj h
    exact .migrate
  | interrupt c =>
    simp only [smpStep] at h
    split_ifs at h with hpending
    obtain rfl := Option.some.inj h
    exact .interrupt hpending.1 hpending.2
  | handle c => exact isrRun_cases h

theorem SmpEffect.wellFormed {obs : List (SmpTrace Cpu Event)} (h : SmpEffect smp s action obs s')
    (hwell : ∀ t, (s.pc t).WellFormed smp) (u : Thread) : (s'.pc u).WellFormed smp := by
  have hmove : ∀ t pc, ((s.pc t).WellFormed smp → pc.WellFormed smp) →
      (Function.update s.pc t pc u).WellFormed smp := by
    intro t pc hnew
    by_cases hu : u = t
    · rw [hu,Function.update_self]
      exact hnew (hwell t)
    · rw [Function.update_of_ne hu]
      exact hwell u
  cases h with
  | outside _ _ hnew => exact hmove _ _ hnew
  | generate hpc => exact hmove _ _ (by rw [hpc]; exact id)
  | insert hpc => exact hmove _ _ (by rw [hpc]; exact id)
  | send hpc => exact hmove _ _ (fun _ => by split <;> trivial)
  | wake | release => exact hmove _ _ (fun _ => trivial)
  | _ => exact hwell u

theorem wellFormed_of_reachable {guard : SmpState Cpu Thread Event →
      SmpAction Cpu Thread Event → Prop} (h : (smpSystem smp).ReachableUnder guard s) :
    ∀ t, (s.pc t).WellFormed smp := by
  induction h with
  | init hinit =>
    intro t
    rw [hinit.pc t]
    trivial
  | step _ _ hs ih => exact (smpStep_cases hs).wellFormed ih

end Smp

/-- Two CPUs with the APIC ids 0 and 1. -/
def twoCpuSmp : SmpData (Fin 2) where
  cpuList := [0,1]
  apicId c := BitVec.ofNat 8 c.val
  nodup := by decide
  mem := by decide
  distinct := by decide

end Hal9000
