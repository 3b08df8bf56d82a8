import Hal9000.Io.Interrupts

/-!
# Registrations that fail

`IomuRegisterInterrupt` takes a vector, installs a routine and adds a handler one after another,
and gives none of them back when a later step fails.
-/

namespace Hal9000

section Failure

variable {Handler : Type} (sys : IoApicSystem) (s : IomuData Handler) (env : IoEnvironment)
  (interrupt : IoInterrupt Handler)

/-- A call that fails leaves the vectors, the routines, the handlers and the redirection entries
as they were. -/
def FailureUndone : Prop :=
  ∀ status s', iomuRegisterInterrupt sys s env interrupt = some (.error status,s') →
    s'.interruptBitmap = s.interruptBitmap ∧ s'.isrRoutines = s.isrRoutines ∧
    s'.registeredInterrupts = s.registeredInterrupts ∧
    s'.interruptsWritten = s.interruptsWritten ∧ s'.redirectionTable = s.redirectionTable

/-- A vector is free and is taken. -/
def TakesVector (routed : Option Nat) : Prop :=
  routed = none ∧ (bitmapScanFromTo s.interruptBitmap (irqlToVector interrupt.irql)
    (irqlToVector interrupt.irql + vectorsPerIrql)).isSome

/-- The list of the vector is empty. -/
abbrev NoHandler (vector : Nat) : Prop :=
  (s.registeredInterrupts (vector - noOfReservedExceptions)).isEmpty = true

abbrev RoutineInstalled (vector : Nat) : Prop :=
  (s.isrRoutines (vector - noOfReservedExceptions)).isSome = true

/-- The assertions on the vector hold. -/
structure VectorAccepted (vector : Nat) : Prop where
  inRange : vector ≥ noOfReservedExceptions ∧ vector < noOfTotalInterrupts
  shared : NoHandler s vector ∨ interrupt.exclusive = false
  installs : NoHandler s vector → vector > noOfReservedExceptions

/-- No step behind one that takes something fails. -/
structure FailsOnlyBefore (routed : Option Nat) (vector : Nat) : Prop where
  install : NoHandler s vector → RoutineInstalled s vector → ¬ TakesVector s interrupt routed
  allocate : ¬ (NoHandler s vector ∧ RoutineInstalled s vector) → env.allocates = false →
    ¬ TakesVector s interrupt routed ∧ ¬ NoHandler s vector
  program : ¬ (NoHandler s vector ∧ RoutineInstalled s vector) → env.allocates = true →
    ∀ interruptLine, interrupt.type = .pci true interruptLine → env.programsPciInterrupt = true

theorem chooseVector_takes {routed : Option Nat} {vector : Nat} {s₁ : IomuData Handler}
    (h : chooseVector s interrupt routed = .ok (vector,s₁)) :
    s₁.isrRoutines = s.isrRoutines ∧ s₁.registeredInterrupts = s.registeredInterrupts ∧
    s₁.interruptsWritten = s.interruptsWritten ∧ s₁.redirectionTable = s.redirectionTable ∧
    (s₁.interruptBitmap = s.interruptBitmap ↔ ¬ TakesVector s interrupt routed) := by
  cases routed with
  | some routedTo =>
    rw [chooseVector] at h
    split at h
    · cases h
    · cases h
      exact ⟨rfl,rfl,rfl,rfl,iff_of_true rfl (fun htakes => by cases htakes.1)⟩
  | none =>
    rw [chooseVector] at h
    cases hscan : bitmapScanFromTo s.interruptBitmap (irqlToVector interrupt.irql)
      (irqlToVector interrupt.irql + vectorsPerIrql) with
    | some taken =>
      rw [hscan] at h
      cases h
      refine ⟨rfl,rfl,rfl,rfl,iff_of_false (fun hsame => ?_)
        (fun hnot => hnot ⟨rfl,by rw [hscan]; rfl⟩)⟩
      have hfree := List.find?_some hscan
      have hbit := congrFun hsame vector
      dsimp only at hbit
      rw [Function.update_self] at hbit
      rw [← hbit] at hfree
      cases hfree
    | none =>
      rw [hscan] at h
      dsimp only at h
      split at h
      · cases h
      · cases h
        refine ⟨rfl,rfl,rfl,rfl,iff_of_true rfl (fun htakes => ?_)⟩
        have hsome := htakes.2
        rw [hscan] at hsome
        cases hsome

/-- The state with the routine of the vector. -/
def withRoutine (vector : Nat) : IomuData Handler :=
  if (s.registeredInterrupts (vector - noOfReservedExceptions)).isEmpty then { s with
    isrRoutines := Function.update s.isrRoutines (vector - noOfReservedExceptions)
      (some (.iomuGenericInterrupt,vector - noOfReservedExceptions)) }
  else s

/-- The state with the handler on the list of the vector. -/
def withHandler (vector : Nat) : IomuData Handler :=
  { withRoutine s vector with
    registeredInterrupts := Function.update s.registeredInterrupts
      (vector - noOfReservedExceptions)
      (s.registeredInterrupts (vector - noOfReservedExceptions) ++ [interrupt.handler]) }

theorem addHandler_refused {vector : Nat} {routed : Option Nat}
    (h : ¬ VectorAccepted s interrupt vector) :
    addHandler s env interrupt vector routed = none := by
  cases hresult : addHandler s env interrupt vector routed with
  | none => rfl
  | some result =>
    exfalso
    rw [addHandler] at hresult
    obtain ⟨_,hrange,hresult⟩ := Option.bind_eq_some_iff.mp hresult
    obtain ⟨_,hshared,hresult⟩ := Option.bind_eq_some_iff.mp hresult
    obtain ⟨installed,hinstalled,_⟩ := Option.bind_eq_some_iff.mp hresult
    rw [assert_eq_some,decide_eq_true_eq] at hrange
    rw [assert_eq_some,Bool.or_eq_true,Bool.not_eq_true'] at hshared
    refine h ⟨hrange,hshared,fun hempty => ?_⟩
    have hempty' : (s.registeredInterrupts (vector - noOfReservedExceptions)).isEmpty = true := hempty
    rw [installRoutine,if_pos hempty'] at hinstalled
    obtain ⟨_,hvector,_⟩ := Option.bind_eq_some_iff.mp hinstalled
    rwa [assert_eq_some,decide_eq_true_eq] at hvector

theorem addHandler_eq {vector : Nat} {routed : Option Nat} (h : VectorAccepted s interrupt vector) :
    addHandler s env interrupt vector routed = some (
      if (s.registeredInterrupts (vector - noOfReservedExceptions)).isEmpty ∧
          (s.isrRoutines (vector - noOfReservedExceptions)).isSome then
        (.error .alreadyInitialized,s)
      else if !env.allocates then (.error .heapInsufficientResources,withRoutine s vector)
      else (.ok ((s.registeredInterrupts (vector - noOfReservedExceptions)).isEmpty &&
        interrupt.type.interruptLine.isSome && routed.isNone),withHandler s interrupt vector)) := by
  have hshared : ((s.registeredInterrupts (vector - noOfReservedExceptions)).isEmpty ||
      !interrupt.exclusive) = true := by
    rw [Bool.or_eq_true,Bool.not_eq_true']
    exact h.shared
  rw [addHandler,decide_eq_true h.inRange]
  dsimp only
  rw [hshared,installRoutine,withHandler,withRoutine]
  by_cases hempty : (s.registeredInterrupts (vector - noOfReservedExceptions)).isEmpty = true
  · rw [if_pos hempty,if_pos hempty,isrInstallEx,decide_eq_true (h.installs hempty)]
    by_cases hinstalled : (s.isrRoutines (vector - noOfReservedExceptions)).isSome = true
    · simp [hempty,hinstalled]
    · cases env.allocates <;> simp [hempty,hinstalled]
  · rw [if_neg hempty,if_neg hempty]
    cases env.allocates <;> simp [hempty]

theorem routedVector_free {interruptLine : Nat}
    (hline : interrupt.type.interruptLine = some interruptLine)
    (h : routedVector sys s interrupt = some (.ok none)) :
    ∃ slot, sys.ioApicForIrq interruptLine = some slot ∧ s.interruptsWritten slot = false := by
  rw [routedVector,hline] at h
  obtain ⟨_,_,h⟩ := Option.bind_eq_some_iff.mp h
  rw [ioApicSystemGetVectorForIrq] at h
  cases hslot : sys.ioApicForIrq interruptLine with
  | none =>
    rw [hslot] at h
    cases h
  | some slot =>
    refine ⟨slot,rfl,?_⟩
    cases hwritten : s.interruptsWritten slot with
    | false => rfl
    | true =>
      rw [hslot] at h
      simp only [hwritten,if_true] at h
      split at h <;> cases h

theorem setInterrupt_free {irq vector : Nat} {slot : RedirectionSlot}
    {deliveryMode : ApicDeliveryMode} {pinPolarity : ApicPinPolarity}
    {triggerMode : ApicTriggerMode} {status : IoStatus}
    (hslot : sys.ioApicForIrq irq = some slot) (hfree : s.interruptsWritten slot = false) :
    ioApicSystemSetInterrupt sys s env irq vector deliveryMode pinPolarity triggerMode ≠
      some (.error status) := by
  intro h
  rw [ioApicSystemSetInterrupt,hslot] at h
  dsimp only at h
  rw [hfree] at h
  obtain ⟨_,_,h⟩ := Option.bind_eq_some_iff.mp h
  cases h

theorem setInterrupt_programs {irq vector : Nat} {deliveryMode : ApicDeliveryMode}
    {pinPolarity : ApicPinPolarity} {triggerMode : ApicTriggerMode}
    {bSetupIoApicRedirEntry : Bool} {status : IoStatus} {s' : IomuData Handler}
    (hfree : bSetupIoApicRedirEntry = true →
      ∃ slot, sys.ioApicForIrq irq = some slot ∧ s.interruptsWritten slot = false) :
    (if bSetupIoApicRedirEntry then
        (ioApicSystemSetInterrupt sys s env irq vector deliveryMode pinPolarity triggerMode).map
          fun
          | .ok s => ((.ok vector : Except IoStatus Nat),s)
          | .error status => (.error status,s)
      else some (.ok vector,s)) ≠ some (.error status,s') := by
  intro h
  cases hsetup : bSetupIoApicRedirEntry with
  | false =>
    rw [hsetup] at h
    cases h
  | true =>
    rw [if_pos hsetup] at h
    obtain ⟨slot,hslot,hwritten⟩ := hfree hsetup
    obtain ⟨result,hresult,hpair⟩ := Option.map_eq_some_iff.mp h
    cases result with
    | ok => cases hpair
    | error => exact absurd hresult (setInterrupt_free sys s env hslot hwritten)

theorem programInterrupt_error {vector : Nat} {bSetupIoApicRedirEntry : Bool} {status : IoStatus}
    {s' : IomuData Handler}
    (hfree : bSetupIoApicRedirEntry = true → ∀ interruptLine,
      interrupt.type.interruptLine = some interruptLine →
      ∃ slot, sys.ioApicForIrq interruptLine = some slot ∧ s.interruptsWritten slot = false)
    (h : programInterrupt sys s env interrupt vector bSetupIoApicRedirEntry =
      some (.error status,s')) :
    ∃ interruptLine, interrupt.type = .pci true interruptLine ∧
      env.programsPciInterrupt = false := by
  rw [programInterrupt] at h
  cases htype : interrupt.type with
  | lapic =>
    rw [htype] at h
    cases h
  | pci msiCapable interruptLine =>
    rw [htype] at h hfree
    cases msiCapable with
    | true =>
      refine ⟨interruptLine,rfl,?_⟩
      cases hprograms : env.programsPciInterrupt with
      | false => rfl
      | true =>
        rw [hprograms] at h
        cases h
    | false =>
      have hline : bSetupIoApicRedirEntry = true → ∃ slot,
          sys.ioApicForIrq interruptLine = some slot ∧ s.interruptsWritten slot = false :=
        fun hsetup => hfree hsetup interruptLine rfl
      exact absurd h (setInterrupt_programs sys s env hline)
  | legacy irq =>
    rw [htype] at h hfree
    have hline : bSetupIoApicRedirEntry = true → ∃ slot,
        sys.ioApicForIrq irq = some slot ∧ s.interruptsWritten slot = false :=
      fun hsetup => hfree hsetup irq rfl
    exact absurd h (setInterrupt_programs sys s env hline)

variable {routed : Option Nat} {vector : Nat} {s₁ : IomuData Handler}

theorem iomuRegisterInterrupt_chosen (hrouted : routedVector sys s interrupt = some (.ok routed))
    (hchoose : chooseVector s interrupt routed = .ok (vector,s₁))
    (haccepted : VectorAccepted s interrupt vector) :
    iomuRegisterInterrupt sys s env interrupt =
      if (s.registeredInterrupts (vector - noOfReservedExceptions)).isEmpty ∧
          (s.isrRoutines (vector - noOfReservedExceptions)).isSome then
        some (.error .alreadyInitialized,s₁)
      else if !env.allocates then some (.error .heapInsufficientResources,withRoutine s₁ vector)
      else programInterrupt sys (withHandler s₁ interrupt vector) env interrupt vector
        ((s.registeredInterrupts (vector - noOfReservedExceptions)).isEmpty &&
          interrupt.type.interruptLine.isSome && routed.isNone) := by
  obtain ⟨hroutines,hlists,_⟩ := chooseVector_takes s interrupt hchoose
  have haccepted₁ : VectorAccepted s₁ interrupt vector := by
    obtain ⟨hrange,hshared,hinstalls⟩ := haccepted
    constructor
    · exact hrange
    · rwa [NoHandler,hlists]
    · rwa [NoHandler,hlists]
  have hadd := @addHandler_eq Handler s₁ env interrupt vector routed haccepted₁
  rw [hroutines,hlists] at hadd
  simp only [iomuRegisterInterrupt,hrouted,hchoose,hadd,Option.bind_eq_bind,Option.bind_some]
  by_cases hinstall : (s.registeredInterrupts (vector - noOfReservedExceptions)).isEmpty ∧
      (s.isrRoutines (vector - noOfReservedExceptions)).isSome
  · rw [if_pos hinstall,if_pos hinstall]
    rfl
  · rw [if_neg hinstall,if_neg hinstall]
    cases env.allocates <;> rfl

theorem failureUndone_failsOnlyBefore (h : FailureUndone sys s env interrupt)
    (hrouted : routedVector sys s interrupt = some (.ok routed))
    (hchoose : chooseVector s interrupt routed = .ok (vector,s₁))
    (haccepted : VectorAccepted s interrupt vector) :
    FailsOnlyBefore s env interrupt routed vector := by
  obtain ⟨hroutines,hlists,_,_,hbitmap⟩ := chooseVector_takes s interrupt hchoose
  have hcall := iomuRegisterInterrupt_chosen sys s env interrupt hrouted hchoose haccepted
  constructor
  · intro hempty hinstalled
    rw [if_pos ⟨hempty,hinstalled⟩] at hcall
    exact hbitmap.mp (h _ _ hcall).1
  · intro hinstall hallocates
    rw [if_neg hinstall,if_pos (by rw [hallocates]; rfl)] at hcall
    obtain ⟨hsame,hsameRoutines,_⟩ := h _ _ hcall
    have hempty : ¬ NoHandler s vector := by
      intro hempty
      apply hinstall
      refine ⟨hempty,?_⟩
      have hempty₁ : (s₁.registeredInterrupts (vector - noOfReservedExceptions)).isEmpty = true := by
        rw [hlists]
        exact hempty
      rw [withRoutine,if_pos hempty₁] at hsameRoutines
      have hat := congrFun hsameRoutines (vector - noOfReservedExceptions)
      dsimp only at hat
      rw [Function.update_self] at hat
      rw [RoutineInstalled,← hat]
      rfl
    have hempty₁ : ¬ (s₁.registeredInterrupts (vector - noOfReservedExceptions)).isEmpty = true := by
      rw [hlists]
      exact hempty
    rw [withRoutine,if_neg hempty₁] at hsame
    exact ⟨hbitmap.mp hsame,hempty⟩
  · intro hinstall hallocates interruptLine htype
    by_contra hprograms
    rw [if_neg hinstall,if_neg (by rw [hallocates]; decide),programInterrupt,htype] at hcall
    dsimp only at hcall
    rw [if_neg hprograms] at hcall
    have hsame := congrFun (h _ _ hcall).2.2.1 (vector - noOfReservedExceptions)
    dsimp only [withHandler] at hsame
    rw [Function.update_self,hlists] at hsame
    have hlength := congrArg List.length hsame
    rw [List.length_append,List.length_singleton] at hlength
    omega

/-- A call that fails leaves everything as it was exactly when no step fails behind one that took
something: no occupied routine behind a vector that was free, no failed allocation behind a free
vector or an empty list, and no device that cannot be programmed once its handler is added. -/
theorem failureUndone_iff : FailureUndone sys s env interrupt ↔
    ∀ routed vector s₁, routedVector sys s interrupt = some (.ok routed) →
      chooseVector s interrupt routed = .ok (vector,s₁) → VectorAccepted s interrupt vector →
      FailsOnlyBefore s env interrupt routed vector := by
  constructor
  · intro h routed vector s₁ hrouted hchoose haccepted
    exact failureUndone_failsOnlyBefore sys s env interrupt h hrouted hchoose haccepted
  · intro h status s' hcall
    have hcall' := hcall
    rw [iomuRegisterInterrupt] at hcall'
    obtain ⟨routing,hrouting,hcall'⟩ := Option.bind_eq_some_iff.mp hcall'
    cases routing with
    | error =>
      cases hcall'
      exact ⟨rfl,rfl,rfl,rfl,rfl⟩
    | ok routed =>
      cases hchoose : chooseVector s interrupt routed with
      | error =>
        simp only [hchoose] at hcall'
        cases hcall'
        exact ⟨rfl,rfl,rfl,rfl,rfl⟩
      | ok chosen =>
        obtain ⟨vector,s₁⟩ := chosen
        obtain ⟨hroutines,hlists,hwritten,htable,hbitmap⟩ := chooseVector_takes s interrupt hchoose
        by_cases haccepted : VectorAccepted s interrupt vector
        · have hbefore := h routed vector s₁ hrouting hchoose haccepted
          rw [iomuRegisterInterrupt_chosen sys s env interrupt hrouting hchoose haccepted] at hcall
          by_cases hinstall : NoHandler s vector ∧ RoutineInstalled s vector
          · rw [if_pos hinstall] at hcall
            cases hcall
            exact ⟨hbitmap.mpr (hbefore.install hinstall.1 hinstall.2),hroutines,hlists,hwritten,
              htable⟩
          · rw [if_neg hinstall] at hcall
            cases hallocates : env.allocates with
            | false =>
              rw [if_pos (by rw [hallocates]; rfl)] at hcall
              cases hcall
              obtain ⟨htakes,hempty⟩ := hbefore.allocate hinstall hallocates
              have hempty₁ :
                  ¬ (s₁.registeredInterrupts (vector - noOfReservedExceptions)).isEmpty = true := by
                rw [hlists]
                exact hempty
              rw [withRoutine,if_neg hempty₁]
              exact ⟨hbitmap.mpr htakes,hroutines,hlists,hwritten,htable⟩
            | true =>
              rw [if_neg (by rw [hallocates]; decide)] at hcall
              exfalso
              have hfree : ((s.registeredInterrupts (vector - noOfReservedExceptions)).isEmpty &&
                  interrupt.type.interruptLine.isSome && routed.isNone) = true →
                  ∀ interruptLine, interrupt.type.interruptLine = some interruptLine →
                  ∃ slot, sys.ioApicForIrq interruptLine = some slot ∧
                    (withHandler s₁ interrupt vector).interruptsWritten slot = false := by
                intro hsetup interruptLine hline
                rw [Bool.and_eq_true,Option.isNone_iff_eq_none] at hsetup
                rw [hsetup.2] at hrouting
                have hslot := routedVector_free sys s interrupt hline hrouting
                rw [← hwritten] at hslot
                rw [withHandler,withRoutine]
                split <;> exact hslot
              obtain ⟨interruptLine,htype,hprograms⟩ :=
                programInterrupt_error sys (withHandler s₁ interrupt vector) env interrupt hfree hcall
              rw [hbefore.program hinstall hallocates interruptLine htype] at hprograms
              cases hprograms
        · exfalso
          have haccepted₁ : ¬ VectorAccepted s₁ interrupt vector := by
            intro haccepted₁
            obtain ⟨hrange,hshared,hinstalls⟩ := haccepted₁
            rw [NoHandler,hlists] at hshared hinstalls
            exact haccepted ⟨hrange,hshared,hinstalls⟩
          have hadd := @addHandler_refused Handler s₁ env interrupt vector routed haccepted₁
          simp only [hchoose,hadd] at hcall'
          cases hcall'

end Failure

/-- An interrupt for the line 9 of one I/O APIC, registered without memory for its handler, takes
the vector 0x30 and installs the routine of it. -/
theorem failureUndone_fails :
    ¬ FailureUndone ⟨[⟨0,23⟩],[]⟩ (IomuData.start (fun _ => ⟨0,.fixed,.activeHigh,.edge,0,true⟩))
      ⟨false,true,true⟩ (⟨.legacy 9,3,false,false,7⟩ : IoInterrupt Nat) := by
  intro h
  have hcall : (iomuRegisterInterrupt ⟨[⟨0,23⟩],[]⟩
      (IomuData.start (fun _ => ⟨0,.fixed,.activeHigh,.edge,0,true⟩)) ⟨false,true,true⟩
      (⟨.legacy 9,3,false,false,7⟩ : IoInterrupt Nat)).any (fun result =>
        !result.1.isOk && result.2.interruptBitmap 48) = true := by decide +kernel
  rw [Option.any_eq_true] at hcall
  obtain ⟨⟨status,s'⟩,hcall,hresult⟩ := hcall
  cases status with
  | ok => cases hresult
  | error status =>
    have hsame := congrFun (h status s' hcall).1 48
    rw [Bool.and_eq_true] at hresult
    dsimp only at hresult
    rw [hresult.2] at hsame
    revert hsame
    decide

end Hal9000
