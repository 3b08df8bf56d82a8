import Hal9000.Common.Machine
import Hal9000.Framework.TransitionSystem

/-!
# Registering interrupts

`IomuRegisterInterrupt` takes a vector of the requested priority, puts the handler on the list of
that vector and programs the redirection entry of the IRQ line. Vectors are shared when the line is
routed already, and when all vectors of the priority are taken.
-/

namespace Hal9000

inductive ApicTriggerMode
  | edge
  | level
  deriving DecidableEq

inductive ApicPinPolarity
  | activeHigh
  | activeLow
  deriving DecidableEq

inductive ApicDeliveryMode
  | fixed
  | lowest
  deriving DecidableEq

structure IoApicInterruptOverride where
  sourceIrq : Nat
  destinationIrq : Nat
  triggerMode : ApicTriggerMode
  pinPolarity : ApicPinPolarity

structure IoApicEntry where
  irqBase : Nat
  maximumRedirectionEntry : Nat

/-- What is read once from the firmware tables. -/
structure IoApicSystem where
  apicList : List IoApicEntry
  interruptOverrides : List IoApicInterruptOverride

/-- An IOAPIC, and an entry of it. -/
abbrev RedirectionSlot := Nat × Nat

structure RedirectionEntry where
  vector : Nat
  deliveryMode : ApicDeliveryMode
  pinPolarity : ApicPinPolarity
  triggerMode : ApicTriggerMode
  destination : Nat
  masked : Bool
  deriving DecidableEq

inductive IoInterruptType
  | legacy (irq : Fin 256)
  /-- A PCI device, with the line of its pin. -/
  | pci (msiCapable : Bool) (interruptLine : Nat)
  | lapic

/-- `IO_INTERRUPT`, with its device. The priority class of an interrupt has four bits. -/
structure IoInterrupt (Handler : Type) where
  type : IoInterruptType
  irql : Fin 16
  exclusive : Bool
  broadcastInterrupt : Bool
  handler : Handler

/-- What the calls out of the model return. -/
structure IoEnvironment where
  allocates : Bool
  programsPciInterrupt : Bool
  lapicEnabled : Bool

inductive IoStatus
  | deviceDoesNotExist
  | deviceInterruptNotConfigured
  | deviceInterruptNotAvailable
  | deviceInterruptPriorityNotAvailable
  | alreadyInitialized
  | heapInsufficientResources
  | pciInterruptFailed
  deriving DecidableEq

inductive IsrRoutine
  | iomuGenericInterrupt
  | other
  deriving DecidableEq

structure IomuData (Handler : Type) where
  interruptBitmap : Nat → Bool
  registeredInterrupts : Nat → List Handler
  isrRoutines : Nat → Option (IsrRoutine × Nat)
  interruptsWritten : RedirectionSlot → Bool
  redirectionTable : RedirectionSlot → RedirectionEntry
  maskInterrupts : Bool

def noOfReservedExceptions : Nat := 32
def noOfTotalInterrupts : Nat := 256
def vectorsPerIrql : Nat := 16
def irqlToVector (irql : Fin 16) : Nat := irql.val * vectorsPerIrql
def vectorToIrql (vector : Nat) : Nat := vector / vectorsPerIrql

/-- The line of an interrupt that goes through an IOAPIC. -/
def IoInterruptType.interruptLine : IoInterruptType → Option Nat
  | .legacy irq => some irq.val
  | .pci false interruptLine => some interruptLine
  | .pci true _ | .lapic => none

namespace IoApicSystem

variable (sys : IoApicSystem)

/-- `_IoApicReturnInterruptOverrideForIrq`: the last one that matches. -/
def interruptOverrideForIrq (irq : Nat) : Option IoApicInterruptOverride :=
  (sys.interruptOverrides.filter (·.sourceIrq == irq)).getLast?

/-- `_IoApicSystemGetIoApicForIrq`. -/
def ioApicForIrq (irq : Nat) : Option RedirectionSlot :=
  let finalIrq := match sys.interruptOverrideForIrq irq with
    | some override => override.destinationIrq
    | none => irq
  (sys.apicList.zipIdx.find? fun entry =>
    checkBounds finalIrq 1 entry.1.irqBase (entry.1.maximumRedirectionEntry + 1)).map
      fun entry => (entry.2,finalIrq - entry.1.irqBase)

end IoApicSystem

section Iomu

variable {Handler : Type} (sys : IoApicSystem)

/-- `IoApicSystemGetVectorForIrq`. -/
def ioApicSystemGetVectorForIrq (s : IomuData Handler) (irq : Nat) : Except IoStatus Nat :=
  match sys.ioApicForIrq irq with
  | none => .error .deviceDoesNotExist
  | some slot =>
    if s.interruptsWritten slot then .ok (s.redirectionTable slot).vector
    else .error .deviceInterruptNotConfigured

/-- `IoApicSystemSetInterrupt`, in logical mode, to all CPUs and without overwriting. -/
def ioApicSystemSetInterrupt (s : IomuData Handler) (env : IoEnvironment) (irq vector : Nat)
    (deliveryMode : ApicDeliveryMode) (pinPolarity : ApicPinPolarity)
    (triggerMode : ApicTriggerMode) : Option (Except IoStatus (IomuData Handler)) :=
  match sys.ioApicForIrq irq with
  | none => some (.error .deviceDoesNotExist)
  | some slot =>
    if s.interruptsWritten slot then some (.error .deviceInterruptNotAvailable)
    else do
      assert env.lapicEnabled
      let override := sys.interruptOverrideForIrq irq
      let triggerMode := (override.map (·.triggerMode)).getD triggerMode
      let entry : RedirectionEntry :=
        { vector := vector
          deliveryMode := deliveryMode
          pinPolarity := (override.map (·.pinPolarity)).getD pinPolarity
          triggerMode := if irq ≠ 8 then triggerMode else .level
          destination := 255
          masked := s.maskInterrupts }
      return .ok { s with
        interruptsWritten := Function.update s.interruptsWritten slot true
        redirectionTable := Function.update s.redirectionTable slot entry }

/-- `BitmapScanFromToAndFlip`, for one clear bit. -/
def bitmapScanFromTo (bitmap : Nat → Bool) (start limit : Nat) : Option Nat :=
  (List.range' start (limit - start)).find? (fun i => !bitmap i)

/-- `IsrInstallEx`. -/
def isrInstallEx (s : IomuData Handler) (vector : Nat) (routine : IsrRoutine) (context : Nat) :
    Option (Except IoStatus (IomuData Handler)) := do
  assert (decide (vector > noOfReservedExceptions))
  let index := vector - noOfReservedExceptions
  if (s.isrRoutines index).isSome then return .error .alreadyInitialized
  else return .ok { s with
    isrRoutines := Function.update s.isrRoutines index (some (routine,context)) }

/-- The vector for the interrupt, given the one its line is routed to. -/
def chooseVector (s : IomuData Handler) (interrupt : IoInterrupt Handler) (routed : Option Nat) :
    Except IoStatus (Nat × IomuData Handler) :=
  match routed with
  | some vector =>
    if interrupt.exclusive then .error .deviceInterruptNotAvailable else .ok (vector,s)
  | none =>
    match bitmapScanFromTo s.interruptBitmap (irqlToVector interrupt.irql)
      (irqlToVector interrupt.irql + vectorsPerIrql) with
    | some vector =>
      .ok (vector,{ s with interruptBitmap := Function.update s.interruptBitmap vector true })
    | none =>
      if interrupt.exclusive then .error .deviceInterruptNotAvailable
      else .ok (irqlToVector interrupt.irql,s)

/-- The routine of the vector is installed with its first handler. -/
def installRoutine (s : IomuData Handler) (vector : Nat) (bListEmpty : Bool) :
    Option (Except IoStatus (IomuData Handler)) :=
  if bListEmpty then
    isrInstallEx s vector .iomuGenericInterrupt (vector - noOfReservedExceptions)
  else some (.ok s)

/-- Puts the handler on the list of the vector. The flag is `bSetupIoApicRedirEntry`. -/
def addHandler (s : IomuData Handler) (env : IoEnvironment) (interrupt : IoInterrupt Handler)
    (vector : Nat) (routed : Option Nat) :
    Option (Except IoStatus Bool × IomuData Handler) := do
  assert (decide (vector ≥ noOfReservedExceptions ∧ vector < noOfTotalInterrupts))
  let index := vector - noOfReservedExceptions
  let bListEmpty := (s.registeredInterrupts index).isEmpty
  assert (bListEmpty || !interrupt.exclusive)
  match ← installRoutine s vector bListEmpty with
  | .error status => return (.error status,s)
  | .ok s =>
    if !env.allocates then return (.error .heapInsufficientResources,s)
    else
      return (.ok (bListEmpty && interrupt.type.interruptLine.isSome && routed.isNone),{ s with
        registeredInterrupts := Function.update s.registeredInterrupts index
          (s.registeredInterrupts index ++ [interrupt.handler]) })

/-- Programs the device or the redirection entry. -/
def programInterrupt (s : IomuData Handler) (env : IoEnvironment) (interrupt : IoInterrupt Handler)
    (vector : Nat) (bSetupIoApicRedirEntry : Bool) :
    Option (Except IoStatus Nat × IomuData Handler) :=
  let deliveryMode : ApicDeliveryMode := if interrupt.broadcastInterrupt then .fixed else .lowest
  match interrupt.type with
  | .lapic => some (.ok vector,s)
  | .pci true _ =>
    if env.programsPciInterrupt then some (.ok vector,s) else some (.error .pciInterruptFailed,s)
  | .pci false interruptLine =>
    if bSetupIoApicRedirEntry then
      (ioApicSystemSetInterrupt sys s env interruptLine vector deliveryMode .activeLow .level).map
        fun
        | .ok s => (.ok vector,s)
        | .error status => (.error status,s)
    else some (.ok vector,s)
  | .legacy irq =>
    if bSetupIoApicRedirEntry then
      (ioApicSystemSetInterrupt sys s env irq vector deliveryMode .activeHigh .edge).map
        fun
        | .ok s => (.ok vector,s)
        | .error status => (.error status,s)
    else some (.ok vector,s)

/-- The vector that the line of the interrupt is routed to, if it is. -/
def routedVector (s : IomuData Handler) (interrupt : IoInterrupt Handler) :
    Option (Except IoStatus (Option Nat)) :=
  match interrupt.type.interruptLine with
  | none => some (.ok none)
  | some interruptLine => do
    assert (decide (interruptLine ≤ 255))
    match ioApicSystemGetVectorForIrq sys s interruptLine with
    | .ok vector =>
      if vectorToIrql vector ≠ interrupt.irql.val then
        return .error .deviceInterruptPriorityNotAvailable
      else return .ok (some vector)
    | .error .deviceInterruptNotConfigured => return .ok none
    | .error status => return .error status

def iomuRegisterInterrupt (s : IomuData Handler) (env : IoEnvironment)
    (interrupt : IoInterrupt Handler) : Option (Except IoStatus Nat × IomuData Handler) := do
  match ← routedVector sys s interrupt with
  | .error status => return (.error status,s)
  | .ok routed =>
    match chooseVector s interrupt routed with
    | .error status => return (.error status,s)
    | .ok (vector,s) =>
      match ← addHandler s env interrupt vector routed with
      | (.error status,s) => return (.error status,s)
      | (.ok bSetupIoApicRedirEntry,s) =>
        programInterrupt sys s env interrupt vector bSetupIoApicRedirEntry

/-- `IoApicSystemEnableRegisteredInterrupts`. -/
def ioApicSystemEnableRegisteredInterrupts (s : IomuData Handler) : IomuData Handler :=
  { s with
    maskInterrupts := false
    redirectionTable := fun slot =>
      if s.interruptsWritten slot then { s.redirectionTable slot with masked := false }
      else s.redirectionTable slot }

/-- `_IomuGenericInterrupt`: the handlers that are called, up to one that claims the interrupt. -/
def iomuGenericInterrupt (claims : Handler → Bool) : List Handler → List Handler
  | [] => []
  | handler :: rest => handler :: if claims handler then [] else iomuGenericInterrupt claims rest

/-- The handlers that an interrupt on the line reaches. -/
def interruptOnLine (s : IomuData Handler) (claims : Handler → Bool) (interruptLine : Nat) :
    List Handler :=
  match ioApicSystemGetVectorForIrq sys s interruptLine with
  | .error _ => []
  | .ok vector =>
    match s.isrRoutines (vector - noOfReservedExceptions) with
    | some (.iomuGenericInterrupt,index) =>
      iomuGenericInterrupt claims (s.registeredInterrupts index)
    | _ => []

inductive IomuAction (Handler : Type)
  | iomuRegisterInterrupt (env : IoEnvironment) (interrupt : IoInterrupt Handler)
  | ioApicSystemEnableRegisteredInterrupts

def iomuStep (s : IomuData Handler) : IomuAction Handler → Option (IomuData Handler)
  | .iomuRegisterInterrupt env interrupt =>
    (iomuRegisterInterrupt sys s env interrupt).map Prod.snd
  | .ioApicSystemEnableRegisteredInterrupts => some (ioApicSystemEnableRegisteredInterrupts s)

/-- `IomuPreinitSystem`. -/
def IomuData.start (table : RedirectionSlot → RedirectionEntry) : IomuData Handler where
  interruptBitmap vector := decide (vector < noOfReservedExceptions)
  registeredInterrupts _ := []
  isrRoutines _ := none
  interruptsWritten _ := false
  redirectionTable := table
  maskInterrupts := true

def iomuSystem : TransitionSystem (IomuData Handler) (IomuAction Handler) where
  init s := ∃ table, s = .start table
  step := iomuStep sys

/-- A handler that was registered for a line, with the vector that was returned. -/
structure LineHandler (Handler : Type) where
  interruptLine : Nat
  handler : Handler
  vector : Nat
  deriving DecidableEq

/-- The successful calls for lines. -/
def registeredOnLines (s : IomuData Handler) : IomuAction Handler → List (LineHandler Handler)
  | .iomuRegisterInterrupt env interrupt =>
    match interrupt.type.interruptLine,iomuRegisterInterrupt sys s env interrupt with
    | some interruptLine,some (.ok vector,_) => [⟨interruptLine,interrupt.handler,vector⟩]
    | _,_ => []
  | .ioApicSystemEnableRegisteredInterrupts => []

/-- The line is programmed with the vector, and its handler is called for the vector. -/
structure IomuData.Routed (s : IomuData Handler) (line : LineHandler Handler) : Prop where
  programmed : ioApicSystemGetVectorForIrq sys s line.interruptLine = .ok line.vector
  installed : s.isrRoutines (line.vector - noOfReservedExceptions) =
    some (.iomuGenericInterrupt,line.vector - noOfReservedExceptions)
  listed : line.handler ∈ s.registeredInterrupts (line.vector - noOfReservedExceptions)

/-- A shared interrupt on a line that is not routed yet finds a vector that is not taken. -/
def FindsVector (s : IomuData Handler) : IomuAction Handler → Prop
  | .iomuRegisterInterrupt _ interrupt => interrupt.type.interruptLine.isSome = true →
    interrupt.exclusive = false → routedVector sys s interrupt = some (.ok none) →
      bitmapScanFromTo s.interruptBitmap (irqlToVector interrupt.irql)
        (irqlToVector interrupt.irql + vectorsPerIrql) ≠ none
  | .ioApicSystemEnableRegisteredInterrupts => True

variable {sys} {s s' s₁ : IomuData Handler} {env : IoEnvironment} {interrupt : IoInterrupt Handler}
  {vector : Nat} {routed : Option Nat} {line : LineHandler Handler}

/-- Nothing is taken back. -/
structure IomuData.Extends (s s' : IomuData Handler) : Prop where
  interruptBitmap : ∀ vector, s.interruptBitmap vector = true → s'.interruptBitmap vector = true
  registeredInterrupts : ∀ index handler, handler ∈ s.registeredInterrupts index →
    handler ∈ s'.registeredInterrupts index
  isrRoutines : ∀ index routine, s.isrRoutines index = some routine →
    s'.isrRoutines index = some routine
  redirectionTable : ∀ slot, s.interruptsWritten slot = true → s'.interruptsWritten slot = true ∧
    (s'.redirectionTable slot).vector = (s.redirectionTable slot).vector

theorem IomuData.Extends.refl (s : IomuData Handler) : s.Extends s :=
  ⟨fun _ => id,fun _ _ => id,fun _ _ => id,fun _ h => ⟨h,rfl⟩⟩

theorem IomuData.Extends.trans (h : s.Extends s₁) (h' : s₁.Extends s') : s.Extends s' := by
  refine ⟨?_,?_,?_,?_⟩
  · exact fun vector hv => h'.interruptBitmap vector (h.interruptBitmap vector hv)
  · exact fun index handler hh => h'.registeredInterrupts _ _ (h.registeredInterrupts _ _ hh)
  · exact fun index routine hr => h'.isrRoutines _ _ (h.isrRoutines _ _ hr)
  · intro slot hslot
    obtain ⟨hwritten,hvector⟩ := h.redirectionTable slot hslot
    obtain ⟨hwritten',hvector'⟩ := h'.redirectionTable slot hwritten
    exact ⟨hwritten',hvector'.trans hvector⟩

theorem getVectorForIrq_ok {irq : Nat} : ioApicSystemGetVectorForIrq sys s irq = .ok vector ↔
    ∃ slot, sys.ioApicForIrq irq = some slot ∧ s.interruptsWritten slot = true ∧
      (s.redirectionTable slot).vector = vector := by
  unfold ioApicSystemGetVectorForIrq
  cases sys.ioApicForIrq irq with
  | none => simp
  | some slot => by_cases hwritten : s.interruptsWritten slot = true <;> simp [hwritten]

theorem IomuData.Routed.extends (h : s.Routed sys line) (hext : s.Extends s') :
    s'.Routed sys line := by
  obtain ⟨slot,hslot,hwritten,hvector⟩ := getVectorForIrq_ok.mp h.programmed
  obtain ⟨hwritten',hvector'⟩ := hext.redirectionTable slot hwritten
  exact ⟨getVectorForIrq_ok.mpr ⟨slot,hslot,hwritten',hvector'.trans hvector⟩,
    hext.isrRoutines _ _ h.installed,hext.registeredInterrupts _ _ h.listed⟩

/-- A vector that is in use is taken, and its routine goes through its handlers. -/
structure IomuInv (s : IomuData Handler) : Prop where
  handlers : ∀ index, s.registeredInterrupts index ≠ [] →
    s.isrRoutines index = some (.iomuGenericInterrupt,index)
  taken : ∀ index, s.registeredInterrupts index ≠ [] →
    s.interruptBitmap (index + noOfReservedExceptions) = true
  written : ∀ slot, s.interruptsWritten slot = true →
    s.interruptBitmap (s.redirectionTable slot).vector = true

theorem bitmapScanFromTo_some {bitmap : Nat → Bool} {start limit : Nat}
    (h : bitmapScanFromTo bitmap start limit = some vector) : bitmap vector = false := by
  simpa using List.find?_some h

theorem bitmapScanFromTo_none {bitmap : Nat → Bool} {start limit : Nat} (hlt : start < limit)
    (h : bitmapScanFromTo bitmap start limit = none) : bitmap start = true := by
  have hstart := List.find?_eq_none.mp h start (by rw [List.mem_range'_1]; omega)
  simpa using hstart

theorem chooseVector_ok (hinv : IomuInv s)
    (hrouted : ∀ vector, routed = some vector → s.interruptBitmap vector = true)
    (h : chooseVector s interrupt routed = .ok (vector,s')) :
    IomuInv s' ∧ s.Extends s' ∧ s'.interruptBitmap vector = true ∧
      s'.registeredInterrupts = s.registeredInterrupts ∧
      s'.interruptsWritten = s.interruptsWritten ∧ s'.redirectionTable = s.redirectionTable ∧
      (∀ vector', routed = some vector' → vector' = vector) ∧
      (routed = none → bitmapScanFromTo s.interruptBitmap (irqlToVector interrupt.irql)
        (irqlToVector interrupt.irql + vectorsPerIrql) = none ∧ interrupt.exclusive = false ∨
        bitmapScanFromTo s.interruptBitmap (irqlToVector interrupt.irql)
          (irqlToVector interrupt.irql + vectorsPerIrql) = some vector) := by
  unfold chooseVector at h
  cases routed with
  | some vector' =>
    simp only at h
    split_ifs at h with hexclusive
    cases h
    exact ⟨hinv,.refl s,hrouted vector rfl,rfl,rfl,rfl,fun _ heq => (Option.some.inj heq).symm,by simp⟩
  | none =>
    simp only at h
    cases hscan : bitmapScanFromTo s.interruptBitmap (irqlToVector interrupt.irql)
      (irqlToVector interrupt.irql + vectorsPerIrql) with
    | none =>
      rw [hscan] at h
      simp only at h
      split_ifs at h with hexclusive
      cases h
      have htaken := bitmapScanFromTo_none (by simp [vectorsPerIrql]) hscan
      exact ⟨hinv,.refl s,htaken,rfl,rfl,rfl,by simp,fun _ =>
        Or.inl ⟨rfl,Bool.not_eq_true _ ▸ hexclusive⟩⟩
    | some vector' =>
      rw [hscan] at h
      cases h
      have hgrows : ∀ x, s.interruptBitmap x = true →
          Function.update s.interruptBitmap vector true x = true := by
        intro x hx
        by_cases heq : x = vector
        · rw [heq,Function.update_self]
        · rw [Function.update_of_ne heq,hx]
      exact ⟨⟨hinv.handlers,fun index hi => hgrows _ (hinv.taken index hi),
        fun slot hslot => hgrows _ (hinv.written slot hslot)⟩,
        ⟨hgrows,fun _ _ => id,fun _ _ => id,fun _ hw => ⟨hw,rfl⟩⟩,Function.update_self _ _ _,rfl,rfl,
        rfl,by simp,fun _ => Or.inr rfl⟩

theorem isrInstallEx_ok {routine : IsrRoutine} {context : Nat}
    (h : isrInstallEx s vector routine context = some (.ok s')) :
    s.isrRoutines (vector - noOfReservedExceptions) = none ∧ s' = { s with
      isrRoutines := Function.update s.isrRoutines (vector - noOfReservedExceptions)
        (some (routine,context)) } := by
  obtain ⟨_,_,h⟩ := Option.bind_eq_some_iff.mp h
  simp only at h
  split_ifs at h with hinstalled
  · cases h
  · cases h
    exact ⟨Option.not_isSome_iff_eq_none.mp hinstalled,rfl⟩

theorem addHandler_cases {result : Except IoStatus Bool} (hinv : IomuInv s)
    (htaken : s.interruptBitmap vector = true)
    (h : addHandler s env interrupt vector routed = some (result,s')) :
    IomuInv s' ∧ s.Extends s' ∧ s'.interruptBitmap = s.interruptBitmap ∧
      s'.interruptsWritten = s.interruptsWritten ∧ s'.redirectionTable = s.redirectionTable ∧
      ∀ bSetup, result = .ok bSetup → noOfReservedExceptions ≤ vector ∧
        s'.isrRoutines (vector - noOfReservedExceptions) =
          some (.iomuGenericInterrupt,vector - noOfReservedExceptions) ∧
        interrupt.handler ∈ s'.registeredInterrupts (vector - noOfReservedExceptions) ∧
        bSetup = ((s.registeredInterrupts (vector - noOfReservedExceptions)).isEmpty &&
          interrupt.type.interruptLine.isSome && routed.isNone) := by
  unfold addHandler at h
  obtain ⟨_,hrange,h⟩ := Option.bind_eq_some_iff.mp h
  obtain ⟨_,_,h⟩ := Option.bind_eq_some_iff.mp h
  obtain ⟨installed,hinstalled,h⟩ := Option.bind_eq_some_iff.mp h
  simp only [assert_eq_some,decide_eq_true_eq] at hrange
  have hinstall : ∀ s₁, installed = Except.ok s₁ → IomuInv s₁ ∧ s.Extends s₁ ∧
      s₁.interruptBitmap = s.interruptBitmap ∧ s₁.interruptsWritten = s.interruptsWritten ∧
      s₁.redirectionTable = s.redirectionTable ∧ s₁.registeredInterrupts = s.registeredInterrupts ∧
      s₁.isrRoutines (vector - noOfReservedExceptions) =
        some (.iomuGenericInterrupt,vector - noOfReservedExceptions) := by
    intro s₁ heq
    rw [heq,installRoutine] at hinstalled
    split_ifs at hinstalled with hempty
    · obtain ⟨hfree,rfl⟩ := isrInstallEx_ok hinstalled
      have hkept : ∀ index routine, s.isrRoutines index = some routine → Function.update
          s.isrRoutines (vector - noOfReservedExceptions)
          (some (.iomuGenericInterrupt,vector - noOfReservedExceptions)) index = some routine := by
        intro index routine hroutine
        have hne : index ≠ vector - noOfReservedExceptions := by
          rintro rfl
          rw [hfree] at hroutine
          cases hroutine
        rw [Function.update_of_ne hne,hroutine]
      exact ⟨⟨fun index hi => hkept _ _ (hinv.handlers index hi),hinv.taken,hinv.written⟩,
        ⟨fun _ => id,fun _ _ => id,hkept,fun _ hw => ⟨hw,rfl⟩⟩,rfl,rfl,rfl,rfl,
        Function.update_self _ _ _⟩
    · cases hinstalled
      exact ⟨hinv,.refl s,rfl,rfl,rfl,rfl,hinv.handlers _ (by simpa using hempty)⟩
  cases installed with
  | error status =>
    cases h
    exact ⟨hinv,.refl s,rfl,rfl,rfl,by simp⟩
  | ok s₁ =>
    obtain ⟨hinv₁,hext₁,hbitmap,hwritten,htable,hlists,hroutine⟩ := hinstall s₁ rfl
    simp only at h
    split_ifs at h with halloc
    · cases h
      exact ⟨hinv₁,hext₁,hbitmap,hwritten,htable,by simp⟩
    · cases h
      refine ⟨⟨?_,?_,hinv₁.written⟩,hext₁.trans ⟨fun _ => id,?_,fun _ _ => id,fun _ hw => ⟨hw,rfl⟩⟩,
        hbitmap,hwritten,htable,?_⟩
      · intro index hi
        by_cases hindex : index = vector - noOfReservedExceptions
        · rw [hindex]
          exact hroutine
        · simp only [Function.update_of_ne hindex] at hi
          exact hinv₁.handlers index hi
      · intro index hi
        by_cases hindex : index = vector - noOfReservedExceptions
        · rw [hindex,Nat.sub_add_cancel hrange.1,← htaken,← hbitmap]
        · simp only [Function.update_of_ne hindex] at hi
          exact hinv₁.taken index hi
      · intro index handler hmem
        by_cases hindex : index = vector - noOfReservedExceptions
        · rw [hindex] at hmem ⊢
          simp only [Function.update_self]
          exact List.mem_append_left _ hmem
        · simpa only [Function.update_of_ne hindex] using hmem
      · intro bSetup heq
        refine ⟨hrange.1,hroutine,?_,(Except.ok.inj heq).symm⟩
        simp only [Function.update_self]
        exact List.mem_append_right _ (List.mem_singleton_self _)

theorem setInterrupt_ok {irq : Nat} {deliveryMode : ApicDeliveryMode} {polarity : ApicPinPolarity}
    {triggerMode : ApicTriggerMode} (hinv : IomuInv s) (htaken : s.interruptBitmap vector = true)
    (h : ioApicSystemSetInterrupt sys s env irq vector deliveryMode polarity triggerMode =
      some (.ok s')) :
    IomuInv s' ∧ s.Extends s' ∧ ioApicSystemGetVectorForIrq sys s' irq = .ok vector := by
  unfold ioApicSystemSetInterrupt at h
  cases hslot : sys.ioApicForIrq irq with
  | none =>
    rw [hslot] at h
    cases h
  | some slot =>
    rw [hslot] at h
    simp only at h
    by_cases hwritten : s.interruptsWritten slot = true
    · rw [if_pos hwritten] at h
      cases h
    rw [if_neg hwritten] at h
    obtain ⟨_,_,h⟩ := Option.bind_eq_some_iff.mp h
    cases h
    refine ⟨⟨hinv.handlers,hinv.taken,?_⟩,⟨fun _ => id,fun _ _ => id,fun _ _ => id,?_⟩,
      getVectorForIrq_ok.mpr ⟨slot,hslot,Function.update_self _ _ _,?_⟩⟩
    · intro slot' hslot'
      by_cases heq : slot' = slot
      · rw [heq]
        simpa only [Function.update_self] using htaken
      · simp only [Function.update_of_ne heq] at hslot' ⊢
        exact hinv.written slot' hslot'
    · intro slot' hslot'
      have hne : slot' ≠ slot := fun heq => hwritten (heq ▸ hslot')
      exact ⟨(Function.update_of_ne hne _ _).trans hslot',by simp only [Function.update_of_ne hne]⟩
    · simp only [Function.update_self]

theorem programInterrupt_cases {result : Except IoStatus Nat} {bSetup : Bool} (hinv : IomuInv s)
    (htaken : s.interruptBitmap vector = true)
    (h : programInterrupt sys s env interrupt vector bSetup = some (result,s')) :
    IomuInv s' ∧ s.Extends s' ∧ ∀ returned, result = .ok returned → returned = vector ∧
      ∀ irq, interrupt.type.interruptLine = some irq → bSetup = true →
        ioApicSystemGetVectorForIrq sys s' irq = .ok vector := by
  have hline : ∀ irq deliveryMode polarity triggerMode,
      interrupt.type.interruptLine = some irq →
      (if bSetup = true then
        (ioApicSystemSetInterrupt sys s env irq vector deliveryMode polarity triggerMode).map
          (fun
          | .ok s => ((.ok vector : Except IoStatus Nat),s)
          | .error status => (.error status,s))
      else some (.ok vector,s)) = some (result,s') →
      IomuInv s' ∧ s.Extends s' ∧ ∀ returned, result = .ok returned → returned = vector ∧
        ∀ irq, interrupt.type.interruptLine = some irq → bSetup = true →
          ioApicSystemGetVectorForIrq sys s' irq = .ok vector := by
    intro irq deliveryMode polarity triggerMode hirq h
    by_cases hsetup : bSetup = true
    · rw [if_pos hsetup] at h
      obtain ⟨set,hset,heq⟩ := Option.map_eq_some_iff.mp h
      cases set with
      | error status =>
        cases heq
        exact ⟨hinv,.refl s,by simp⟩
      | ok s₁ =>
        cases heq
        obtain ⟨hinv',hext,hprogrammed⟩ := setInterrupt_ok hinv htaken hset
        refine ⟨hinv',hext,fun returned heq => ⟨(Except.ok.inj heq).symm,fun irq' hirq' _ => ?_⟩⟩
        rw [hirq] at hirq'
        cases hirq'
        exact hprogrammed
    · rw [if_neg hsetup] at h
      cases h
      exact ⟨hinv,.refl s,fun returned heq => ⟨(Except.ok.inj heq).symm,
        fun _ _ hsetup' => absurd hsetup' hsetup⟩⟩
  unfold programInterrupt at h
  cases htype : interrupt.type with
  | lapic =>
    rw [htype] at h
    cases h
    exact ⟨hinv,.refl s,fun returned heq => ⟨(Except.ok.inj heq).symm,nofun⟩⟩
  | pci msiCapable interruptLine =>
    rw [htype] at h
    cases msiCapable with
    | true =>
      simp only at h
      split_ifs at h
      · cases h
        exact ⟨hinv,.refl s,fun returned heq => ⟨(Except.ok.inj heq).symm,nofun⟩⟩
      · cases h
        exact ⟨hinv,.refl s,by simp⟩
    | false =>
      rw [← htype]
      exact hline _ _ _ _ (by rw [htype]; rfl) h
  | legacy irq =>
    rw [htype] at h
    rw [← htype]
    exact hline _ _ _ _ (by rw [htype]; rfl) h

theorem routedVector_ok {irq : Nat} (hirq : interrupt.type.interruptLine = some irq)
    (h : routedVector sys s interrupt = some (.ok routed)) :
    ∀ vector, routed = some vector → ioApicSystemGetVectorForIrq sys s irq = .ok vector := by
  intro vector heq
  subst heq
  unfold routedVector at h
  rw [hirq] at h
  obtain ⟨_,_,h⟩ := Option.bind_eq_some_iff.mp h
  cases hget : ioApicSystemGetVectorForIrq sys s irq with
  | ok vector' =>
    rw [hget] at h
    simp only at h
    split_ifs at h
    · cases h
    · simp only [Option.pure_def,Option.some.injEq,Except.ok.injEq] at h
      rw [h]
  | error status =>
    rw [hget] at h
    cases status <;> cases h

theorem routedVector_taken (hinv : IomuInv s)
    (h : routedVector sys s interrupt = some (.ok routed)) (vector : Nat)
    (hrouted : routed = some vector) : s.interruptBitmap vector = true := by
  cases hirq : interrupt.type.interruptLine with
  | none =>
    unfold routedVector at h
    rw [hirq,hrouted] at h
    cases h
  | some irq =>
    obtain ⟨slot,_,hwritten,rfl⟩ := getVectorForIrq_ok.mp (routedVector_ok hirq h vector hrouted)
    exact hinv.written slot hwritten

/-- What a call does: nothing is taken back, and the handler of a call that succeeds is listed. Its
line is routed if it was, or if there was a vector left. -/
theorem iomuRegisterInterrupt_cases {result : Except IoStatus Nat} (hinv : IomuInv s)
    (h : iomuRegisterInterrupt sys s env interrupt = some (result,s')) :
    IomuInv s' ∧ s.Extends s' ∧ ∀ irq, interrupt.type.interruptLine = some irq →
      FindsVector sys s (.iomuRegisterInterrupt env interrupt) →
        ∀ vector, result = .ok vector → s'.Routed sys ⟨irq,interrupt.handler,vector⟩ := by
  unfold iomuRegisterInterrupt at h
  obtain ⟨found,hfound,h⟩ := Option.bind_eq_some_iff.mp h
  cases found with
  | error status =>
    cases h
    exact ⟨hinv,.refl s,fun _ _ _ _ heq => nomatch heq⟩
  | ok routed =>
    simp only at h
    cases hchoose : chooseVector s interrupt routed with
    | error status =>
      rw [hchoose] at h
      cases h
      exact ⟨hinv,.refl s,fun _ _ _ _ heq => nomatch heq⟩
    | ok chosen =>
      obtain ⟨vector,s₁⟩ := chosen
      rw [hchoose] at h
      obtain ⟨hinv₁,hext₁,htaken₁,hlists,_,_,hsame,hscan⟩ :=
        chooseVector_ok hinv (routedVector_taken hinv hfound) hchoose
      obtain ⟨⟨added,s₂⟩,hadd,h⟩ := Option.bind_eq_some_iff.mp h
      obtain ⟨hinv₂,hext₂,hbitmap₂,_,_,hadded⟩ := addHandler_cases hinv₁ htaken₁ hadd
      cases added with
      | error status =>
        cases h
        exact ⟨hinv₂,hext₁.trans hext₂,fun _ _ _ _ heq => nomatch heq⟩
      | ok bSetup =>
        obtain ⟨hrange,hroutine,hlisted,hsetup⟩ := hadded bSetup rfl
        obtain ⟨hinv₃,hext₃,hprogram⟩ := programInterrupt_cases hinv₂ (hbitmap₂ ▸ htaken₁) h
        refine ⟨hinv₃,(hext₁.trans hext₂).trans hext₃,fun irq hirq hfinds returned heq => ?_⟩
        obtain ⟨rfl,hprogrammed⟩ := hprogram returned heq
        refine ⟨?_,hext₃.isrRoutines _ _ hroutine,hext₃.registeredInterrupts _ _ hlisted⟩
        cases hrouted : routed with
        | some vector' =>
          obtain rfl := hsame vector' hrouted
          obtain ⟨slot,hslot,hwritten,hvector⟩ :=
            getVectorForIrq_ok.mp (routedVector_ok hirq hfound vector' hrouted)
          obtain ⟨hwritten',hvector'⟩ :=
            ((hext₁.trans hext₂).trans hext₃).redirectionTable slot hwritten
          exact getVectorForIrq_ok.mpr ⟨slot,hslot,hwritten',hvector'.trans hvector⟩
        | none =>
          refine hprogrammed irq hirq ?_
          have hfree : bitmapScanFromTo s.interruptBitmap (irqlToVector interrupt.irql)
              (irqlToVector interrupt.irql + vectorsPerIrql) = some returned := by
            rcases hscan hrouted with ⟨hnone,hshared⟩ | hsome
            · rw [hrouted] at hfound
              exact absurd hnone (hfinds (by rw [hirq]; rfl) hshared hfound)
            · exact hsome
          have hempty : s.registeredInterrupts (returned - noOfReservedExceptions) = [] := by
            by_contra hne
            have htaken := hinv.taken _ hne
            rw [Nat.sub_add_cancel hrange,bitmapScanFromTo_some hfree] at htaken
            cases htaken
          rw [hsetup,hlists,hempty,hirq,hrouted]
          rfl

theorem enableRegisteredInterrupts_extends :
    s.Extends (ioApicSystemEnableRegisteredInterrupts s) := by
  refine ⟨fun _ => id,fun _ _ => id,fun _ _ => id,fun slot hslot => ⟨hslot,?_⟩⟩
  simp only [ioApicSystemEnableRegisteredInterrupts,if_pos hslot]

theorem iomuStep_cases {action : IomuAction Handler} (hinv : IomuInv s)
    (h : iomuStep sys s action = some s') : IomuInv s' ∧ s.Extends s' ∧
      (FindsVector sys s action → ∀ line ∈ registeredOnLines sys s action, s'.Routed sys line) := by
  cases action with
  | iomuRegisterInterrupt env interrupt =>
    obtain ⟨⟨result,s₁⟩,hcall,rfl⟩ := Option.map_eq_some_iff.mp h
    obtain ⟨hinv',hext,hrouted⟩ := iomuRegisterInterrupt_cases hinv hcall
    refine ⟨hinv',hext,fun hfinds line hline => ?_⟩
    simp only [registeredOnLines,hcall] at hline
    cases hirq : interrupt.type.interruptLine with
    | none =>
      rw [hirq] at hline
      cases hline
    | some irq =>
      rw [hirq] at hline
      cases result with
      | error status => cases hline
      | ok vector =>
        rw [List.mem_singleton.mp hline]
        exact hrouted irq hirq hfinds vector rfl
  | ioApicSystemEnableRegisteredInterrupts =>
    cases h
    have hext := enableRegisteredInterrupts_extends (s := s)
    refine ⟨⟨hinv.handlers,hinv.taken,fun slot hslot => ?_⟩,hext,fun _ => nofun⟩
    rw [(hext.redirectionTable slot hslot).2]
    exact hinv.written slot hslot

theorem IomuInv.start (table : RedirectionSlot → RedirectionEntry) :
    IomuInv (.start table : IomuData Handler) :=
  ⟨fun _ h => absurd rfl h,fun _ h => absurd rfl h,nofun⟩

theorem genericInterrupt_reaches (claims : Handler → Bool) {handler : Handler}
    {handlers : List Handler} (h : handler ∈ handlers) :
    handler ∈ iomuGenericInterrupt claims handlers ∨
      ∃ other ∈ iomuGenericInterrupt claims handlers, claims other = true := by
  induction handlers with
  | nil => cases h
  | cons first rest ih =>
    rw [iomuGenericInterrupt]
    by_cases hclaims : claims first = true
    · exact Or.inr ⟨first,List.mem_cons_self,hclaims⟩
    · rw [if_neg hclaims]
      cases h with
      | head => exact Or.inl List.mem_cons_self
      | tail _ h =>
        rcases ih h with hcalled | ⟨other,hother,hclaimed⟩
        · exact Or.inl (List.mem_cons_of_mem _ hcalled)
        · exact Or.inr ⟨other,List.mem_cons_of_mem _ hother,hclaimed⟩

theorem IomuData.Routed.reaches (h : s.Routed sys line) (claims : Handler → Bool) :
    line.handler ∈ interruptOnLine sys s claims line.interruptLine ∨
      ∃ other ∈ interruptOnLine sys s claims line.interruptLine, claims other = true := by
  simp only [interruptOnLine,h.programmed,h.installed]
  exact genericInterrupt_reaches claims h.listed

/-- In every run in which shared interrupts on new lines find a vector, a handler that was
registered for a line is reached by the interrupts on it. -/
theorem registered_handlers_reached {p : IomuData Handler × List (LineHandler Handler)}
    (h : ((iomuSystem sys).recording (registeredOnLines sys)).ReachableUnder
      (fun p action => FindsVector sys p.1 action) p) :
    ∀ line ∈ p.2, p.1.Routed sys line ∧ ∀ claims : Handler → Bool,
      line.handler ∈ interruptOnLine sys p.1 claims line.interruptLine ∨
        ∃ other ∈ interruptOnLine sys p.1 claims line.interruptLine, claims other = true := by
  have hrun : IomuInv p.1 ∧ ∀ line ∈ p.2, p.1.Routed sys line := by
    induction h with
    | init hstart =>
      obtain ⟨⟨table,htable⟩,hrecord⟩ := hstart
      rw [htable,hrecord]
      exact ⟨.start table,by simp⟩
    | step _ hfinds hstep ih =>
      obtain ⟨hs,hrecord⟩ := TransitionSystem.recording_step.mp hstep
      obtain ⟨hinv,hext,hnew⟩ := iomuStep_cases ih.1 hs
      refine ⟨hinv,fun line hline => ?_⟩
      rw [hrecord] at hline
      rcases List.mem_append.mp hline with hold | hline
      · exact (ih.2 line hold).extends hext
      · exact hnew hfinds line hline
  exact fun line hline => ⟨hrun.2 line hline,fun claims => (hrun.2 line hline).reaches claims⟩

theorem exhausted_vector_not_programmed {irq : Nat} {result : Except IoStatus Nat}
    (hirq : interrupt.type.interruptLine = some irq)
    (hfound : routedVector sys s interrupt = some (.ok none))
    (hscan : bitmapScanFromTo s.interruptBitmap (irqlToVector interrupt.irql)
      (irqlToVector interrupt.irql + vectorsPerIrql) = none)
    (hshared : s.registeredInterrupts (irqlToVector interrupt.irql - noOfReservedExceptions) ≠ [])
    (h : iomuRegisterInterrupt sys s env interrupt = some (result,s')) :
    ioApicSystemGetVectorForIrq sys s' irq = ioApicSystemGetVectorForIrq sys s irq := by
  have hempty : (s.registeredInterrupts
      (irqlToVector interrupt.irql - noOfReservedExceptions)).isEmpty = false := by
    rwa [List.isEmpty_eq_false_iff]
  simp only [iomuRegisterInterrupt,hfound,Option.bind_eq_bind,Option.bind_some,chooseVector,
    hscan] at h
  by_cases hexclusive : interrupt.exclusive = true
  · rw [if_pos hexclusive] at h
    cases h
    rfl
  rw [if_neg hexclusive] at h
  obtain ⟨⟨added,s₁⟩,hadd,h⟩ := Option.bind_eq_some_iff.mp h
  have hkept : s₁.interruptsWritten = s.interruptsWritten ∧
      s₁.redirectionTable = s.redirectionTable ∧ ∀ bSetup, added = .ok bSetup → bSetup = false := by
    unfold addHandler at hadd
    obtain ⟨_,_,hadd⟩ := Option.bind_eq_some_iff.mp hadd
    obtain ⟨_,_,hadd⟩ := Option.bind_eq_some_iff.mp hadd
    simp only [hempty,installRoutine,Bool.false_eq_true,if_false,Option.bind_eq_bind,
      Option.bind_some,Bool.false_and] at hadd
    split_ifs at hadd with halloc
    · cases hadd
      exact ⟨rfl,rfl,by simp⟩
    · cases hadd
      exact ⟨rfl,rfl,fun _ heq => (Except.ok.inj heq).symm⟩
  obtain ⟨hwritten,htable,hsetup⟩ := hkept
  have hsame : s' = s₁ := by
    cases added with
    | error status =>
      cases h
      rfl
    | ok bSetup =>
      rw [hsetup bSetup rfl] at h
      unfold programInterrupt at h
      cases htype : interrupt.type with
      | lapic =>
        rw [htype] at hirq
        cases hirq
      | legacy irq' =>
        rw [htype] at h
        cases h
        rfl
      | pci msiCapable irq' =>
        rw [htype] at h hirq
        cases msiCapable with
        | true => cases hirq
        | false =>
          cases h
          rfl
  simp only [hsame,ioApicSystemGetVectorForIrq,hwritten,htable]

end Iomu

instance FindsVector.decidable {Handler : Type} (sys : IoApicSystem) (s : IomuData Handler) :
    ∀ action, Decidable (FindsVector sys s action)
  | .iomuRegisterInterrupt _ interrupt =>
    inferInstanceAs (Decidable (interrupt.type.interruptLine.isSome = true →
      interrupt.exclusive = false → routedVector sys s interrupt = some (.ok none) →
        bitmapScanFromTo s.interruptBitmap (irqlToVector interrupt.irql)
          (irqlToVector interrupt.irql + vectorsPerIrql) ≠ none))
  | .ioApicSystemEnableRegisteredInterrupts => .isTrue trivial

/-- One IOAPIC of 24 entries, with the timer on entry 2. -/
def pcIoApic : IoApicSystem where
  apicList := [⟨0,23⟩]
  interruptOverrides := [⟨0,2,.edge,.activeHigh⟩]

def IomuData.atBoot : IomuData Nat :=
  .start fun _ => ⟨0,.fixed,.activeHigh,.edge,0,true⟩

/-- A call in which nothing fails. -/
def registerInterrupt (type : IoInterruptType) (irql : Fin 16) (handler : Nat) : IomuAction Nat :=
  .iomuRegisterInterrupt ⟨true,true,true⟩ ⟨type,irql,false,false,handler⟩

/-- Two devices share line 11, and the timer has a line of its own. -/
theorem registered_handlers_reached_three : ∃ p : IomuData Nat × List (LineHandler Nat),
    p.2 = [⟨11,1,48⟩,⟨0,2,208⟩,⟨11,3,48⟩] ∧
      interruptOnLine pcIoApic p.1 (fun _ => false) 11 = [1,3] ∧
      ∀ line ∈ p.2, p.1.Routed pcIoApic line := by
  obtain ⟨p,hreach,hp⟩ := TransitionSystem.exists_reachable
    ((iomuSystem pcIoApic).recording (registeredOnLines pcIoApic))
    (fun p action => FindsVector pcIoApic p.1 action) (IomuData.atBoot,[]) ⟨⟨_,rfl⟩,rfl⟩
    [registerInterrupt (.pci false 11) 3 1,registerInterrupt (.legacy 0) 13 2,
      .ioApicSystemEnableRegisteredInterrupts,registerInterrupt (.pci false 11) 3 3,
      registerInterrupt .lapic 14 4]
    (fun p => decide (p.2 = [⟨11,1,48⟩,⟨0,2,208⟩,⟨11,3,48⟩] ∧
      interruptOnLine pcIoApic p.1 (fun _ => false) 11 = [1,3]))
    (by decide +kernel) (by decide +kernel)
  obtain ⟨hrecord,hcalled⟩ := of_decide_eq_true hp
  exact ⟨p,hrecord,hcalled,fun line hline => (registered_handlers_reached hreach line hline).1⟩

/-- Sixteen interrupts take the vectors of a priority; line 4 then shares the first of them, and
is not programmed. -/
theorem registered_handler_not_reached : ∃ p : IomuData Nat × List (LineHandler Nat),
    ((iomuSystem pcIoApic).recording (registeredOnLines pcIoApic)).Reachable p ∧
      ⟨4,16,48⟩ ∈ p.2 ∧ ¬p.1.Routed pcIoApic ⟨4,16,48⟩ ∧
      interruptOnLine pcIoApic p.1 (fun _ => false) 4 = [] := by
  obtain ⟨p,hreach,hp⟩ := TransitionSystem.exists_reachable
    ((iomuSystem pcIoApic).recording (registeredOnLines pcIoApic)) (fun _ _ => True)
    (IomuData.atBoot,[]) ⟨⟨_,rfl⟩,rfl⟩
    ((List.range 16).map (registerInterrupt .lapic 3) ++ [registerInterrupt (.legacy 4) 3 16])
    (fun p => decide (⟨4,16,48⟩ ∈ p.2 ∧ ioApicSystemGetVectorForIrq pcIoApic p.1 4 ≠ .ok 48 ∧
      interruptOnLine pcIoApic p.1 (fun _ => false) 4 = []))
    (TransitionSystem.runSatisfies_of_forall (fun _ _ => trivial) _ _) (by decide +kernel)
  obtain ⟨hrecord,hvector,hcalled⟩ := of_decide_eq_true hp
  exact ⟨p,hreach,hrecord,fun hrouted => hvector hrouted.programmed,hcalled⟩

end Hal9000
