import Hal9000.Threads.Preemption

/-!
# The return from an interrupt

One invariant for each CPU says what it has of an interrupt in each phase of the handler. The
scheduler keeps it because it changes where a CPU is in one of four ways.
-/

namespace Hal9000

/-- In no call of the scheduler but `ThreadUnblock`. -/
def SchedPc.inThread {Thread : Type} : SchedPc Thread → Bool
  | .running => true
  | .unblockLock _ caller | .unblockState _ caller | .unblockReadyLock _ caller
  | .unblockInsert _ caller | .unblockReleaseReady _ caller | .unblockRelease _ caller =>
    !caller.isExit
  | _ => false

/-- The time slice of the current thread has begun, and the thread has not called the scheduler
to give up the CPU. -/
def SchedPc.inSlice {Thread : Type} (pc : SchedPc Thread) : Bool :=
  pc.inThread || match pc with
    | .inspectLock | .inspectState | .dereference => true
    | _ => false

/-- After `_ThreadGetReadyThread`, in the time slice of the thread before. -/
def SchedPc.decided {Thread : Type} : SchedPc Thread → Bool
  | .setCurrentThread _ | .threadSwitch _ | .releaseReady => true
  | _ => false

section InterruptReturn

variable {Cpu Thread : Type} [DecidableEq Cpu] [DecidableEq Thread]

/-- What a step of a CPU in the scheduler does to where it is. -/
structure SchedPc.RunsTo (pc pc' : SchedPc Thread) : Prop where
  notRunning : pc ≠ .running
  inThread : pc.inThread = true → pc'.inThread = true
  stays : pc.inSlice = true → pc'.inSlice = true
  inSlice : pc'.inSlice = true → pc.inSlice = true ∨ pc = .releaseReady
  decided : pc'.decided = true → pc.decided = true ∨ pc = .getReadyThread
  undecided : pc.decided = true → pc'.decided = true ∨ pc = .releaseReady

variable {s s' : SchedState Cpu Thread}

theorem SchedRun.runsTo {c : Cpu} (h : SchedRun s c s') :
    SchedPc.RunsTo (s.pc c) (s'.pc c) := by
  cases h with
  | @unblockLock t caller hpc _ | @unblockState t caller hpc _ | @unblockReadyLock t caller hpc _
  | @unblockInsert t caller hpc | @unblockReleaseReady t caller hpc
  | @unblockRelease t caller hpc =>
    constructor <;> cases caller <;>
      simp [hpc,SchedState.setPc,SchedState.setBlockLock,SchedState.setState,SchedPc.inThread,
        SchedPc.inSlice,SchedPc.decided,UnblockCaller.isExit,UnblockCaller.resume]
  | noPrevious hpc _ =>
    rcases hpc with hpc | hpc | hpc <;> constructor <;>
      simp [hpc,SchedState.setPc,SchedPc.inThread,SchedPc.inSlice,SchedPc.decided]
  | _ hpc =>
    constructor <;>
      simp [hpc,SchedState.setPc,SchedState.setBlockLock,SchedState.setState,
        SchedState.setPrevious,SchedState.setStack,SchedState.threadDereference,
        SchedState.setRefCnt,SchedPc.inThread,SchedPc.inSlice,SchedPc.decided]

/-- What a step does to where one CPU is. -/
inductive SchedPc.Step (c : Cpu) (action : SchedAction Cpu Thread) (pc pc' : SchedPc Thread) : Prop
  | same (hsame : pc' = pc)
  | run (haction : action = .run c) (hrun : pc.RunsTo pc')
  | gives (haction : action = .threadYield c ∨ action = .threadTakeBlockLock c ∨
      action = .threadExit c) (hpc : pc = .running)
      (hpc' : pc' = .yieldLock ∨ pc' = .tookBlockLock ∨ pc' = .exitUnlock)
  | unblocks (t : Thread) (caller : UnblockCaller)
      (haction : action = .threadUnblock c t ∨ action = .threadStart c t)
      (hpc : pc = caller.resume) (hpc' : pc' = .unblockLock t caller)

omit [DecidableEq Thread] in
private theorem pcStep_setPc {action : SchedAction Cpu Thread} {c c' : Cpu} {pc : SchedPc Thread}
    (hstep : c' = c → SchedPc.Step c' action (s.pc c') pc) :
    SchedPc.Step c' action (s.pc c') ((s.setPc c pc).pc c') := by
  by_cases hc : c' = c
  · simp only [hc,SchedState.setPc,Function.update_self] at hstep ⊢
    exact hstep trivial
  · exact .same (Function.update_of_ne hc _ _)

theorem schedStep_pc {action : SchedAction Cpu Thread} (h : schedStep s action = some s')
    (c : Cpu) : SchedPc.Step c action (s.pc c) (s'.pc c) := by
  cases action with
  | run c₀ =>
    have hrun := schedRun_cases h
    by_cases hc : c = c₀
    · rw [hc]
      exact .run rfl hrun.runsTo
    · exact .same (hrun.pc_other hc).1
  | threadYield c₀ =>
    simp only [schedStep] at h
    split_ifs at h with hpc hflag <;> obtain rfl := Option.some.inj h
    · apply pcStep_setPc
      rintro rfl
      exact .gives (Or.inl rfl) hpc (Or.inr (Or.inr rfl))
    · apply pcStep_setPc
      rintro rfl
      exact .gives (Or.inl rfl) hpc (Or.inl rfl)
  | threadTakeBlockLock c₀ =>
    simp only [schedStep] at h
    split_ifs at h with hpc
    obtain rfl := Option.some.inj h
    apply pcStep_setPc
    rintro rfl
    exact .gives (Or.inr (Or.inl rfl)) hpc.1 (Or.inr (Or.inl rfl))
  | threadUnblock c₀ t =>
    simp only [schedStep] at h
    split_ifs at h with hstage
    cases hpc : s.pc c₀ <;> rw [hpc] at h <;> simp only [reduceCtorEq] at h
    · obtain rfl := Option.some.inj h
      apply pcStep_setPc
      rintro rfl
      exact .unblocks t .thread (Or.inl rfl) hpc rfl
    · obtain rfl := Option.some.inj h
      apply pcStep_setPc
      rintro rfl
      exact .unblocks t .exit (Or.inl rfl) hpc rfl
  | threadExit c₀ =>
    simp only [schedStep] at h
    split_ifs at h with hpc
    obtain rfl := Option.some.inj h
    apply pcStep_setPc
    rintro rfl
    exact .gives (Or.inr (Or.inr rfl)) hpc.1 (Or.inr (Or.inr rfl))
  | threadInit c₀ t =>
    simp only [schedStep] at h
    split_ifs at h with hpc
    obtain rfl := Option.some.inj h
    exact .same rfl
  | threadSetupInitialState c₀ t =>
    simp only [schedStep] at h
    split_ifs at h with hpc
    obtain rfl := Option.some.inj h
    exact .same rfl
  | threadStart c₀ t =>
    simp only [schedStep] at h
    split_ifs at h with hpc
    cases hidle : s.idleThread c₀ <;> simp only [hidle] at h <;> obtain rfl := Option.some.inj h
    · exact .same rfl
    · by_cases hc : c = c₀
      · subst hc
        exact .unblocks t .thread (Or.inr rfl) hpc.1 (Function.update_self _ _ _)
      · exact .same (Function.update_of_ne hc _ _)
  | threadCloseHandle t =>
    simp only [schedStep] at h
    split_ifs at h with hhandle
    obtain rfl := Option.some.inj h
    exact .same rfl
  | threadTerminate t =>
    simp only [schedStep] at h
    split_ifs at h with hstage
    obtain rfl := Option.some.inj h
    exact .same rfl

/-- What a step of the scheduler does to what each CPU has of the time slice. -/
structure IsrState.Scheduled (s : IsrState Cpu Thread) (action : SchedAction Cpu Thread)
    (s' : IsrState Cpu Thread) : Prop where
  sched : schedStep s.sched action = some s'.sched
  isr : s'.isr = s.isr
  irql : s'.irql = s.irql
  inService : s'.inService = s.inService
  completed : s'.tickCountCompleted = s.tickCountCompleted
  yields : ∀ c, action = .threadYield c → s'.yieldOnInterruptReturn c = false
  flag : ∀ c, action ≠ .threadYield c →
    s'.yieldOnInterruptReturn c = s.yieldOnInterruptReturn c
  begins : ∀ c, action = .run c → s.sched.pc c = .releaseReady → s'.runningThreadTicks c = 0
  ticks : ∀ c, ¬(action = .run c ∧ s.sched.pc c = .releaseReady) →
    s'.runningThreadTicks c = s.runningThreadTicks c

theorem IsrState.schedule_scheduled {s s' : IsrState Cpu Thread} {action : SchedAction Cpu Thread}
    (h : s.schedule action = some s') : s.Scheduled action s' := by
  obtain ⟨sched',hsched,hs'⟩ := Option.map_eq_some_iff.mp h
  cases action with
  | threadYield c₀ =>
    subst hs'
    refine ⟨hsched,rfl,rfl,rfl,rfl,?_,?_,?_,fun c _ => rfl⟩
    · intro c hc
      obtain rfl := SchedAction.threadYield.inj hc
      exact Function.update_self _ _ _
    · intro c hc
      apply Function.update_of_ne
      rintro rfl
      exact hc rfl
    · intro c hc
      cases hc
  | run c₀ =>
    by_cases hpc : s.sched.pc c₀ = .releaseReady
    · simp only [hpc,↓reduceIte] at hs'
      subst hs'
      refine ⟨hsched,rfl,rfl,rfl,rfl,?_,fun c _ => rfl,?_,?_⟩
      · intro c hc
        cases hc
      · intro c hc _
        obtain rfl := SchedAction.run.inj hc
        exact Function.update_self _ _ _
      · intro c hc
        apply Function.update_of_ne
        rintro rfl
        exact hc ⟨rfl,hpc⟩
    · simp only [hpc,↓reduceIte] at hs'
      subst hs'
      refine ⟨hsched,rfl,rfl,rfl,rfl,?_,fun c _ => rfl,?_,fun c _ => rfl⟩
      · intro c hc
        cases hc
      · intro c hc hrelease
        obtain rfl := SchedAction.run.inj hc
        exact absurd hrelease hpc
  | _ =>
    subst hs'
    refine ⟨hsched,rfl,rfl,rfl,rfl,?_,fun c _ => rfl,?_,fun c _ => rfl⟩
    · intro c hc
      cases hc
    · intro c hc
      cases hc

variable {data : IomuData IsrFunction} {irqSpurious : Nat}

/-- The steps of the handler that are no step of the scheduler. -/
inductive IsrStep (data : IomuData IsrFunction) (irqSpurious : Nat) (s : IsrState Cpu Thread) :
    IsrAction Cpu Thread → IsrState Cpu Thread → Prop
  | interrupt {c : Cpu} {vector : Nat} {serviced : Bool}
      (htakes : s.TakesInterrupt c vector serviced) (hraise : s.irql c ≤ vectorToIrql vector) :
      IsrStep data irqSpurious s (.interrupt c vector serviced)
        { s.setIsr c (.functions vector (s.irql c) (isrFunctions data vector)) with
          irql := Function.update s.irql c (vectorToIrql vector)
          inService :=
            if serviced then Function.update s.inService c (vector :: s.inService c)
            else s.inService }
  | noFunction {c : Cpu} {handles : Bool} {vector prevIrql : Nat} (hpc : s.sched.pc c = .running)
      (hisr : s.isr c = .functions vector prevIrql []) :
      IsrStep data irqSpurious s (.isrFunction c handles)
        (s.setIsr c (.called vector prevIrql false))
  | tick {c : Cpu} {handles : Bool} {vector prevIrql : Nat} {rest : List IsrFunction}
      (hpc : s.sched.pc c = .running)
      (hisr : s.isr c = .functions vector prevIrql (.systemTick :: rest)) :
      IsrStep data irqSpurious s (.isrFunction c handles)
        ((s.threadTick c).setIsr c (.called vector prevIrql true))
  | device {c : Cpu} {handles : Bool} {vector prevIrql : Nat} {rest : List IsrFunction}
      (hpc : s.sched.pc c = .running)
      (hisr : s.isr c = .functions vector prevIrql (.device :: rest)) :
      IsrStep data irqSpurious s (.isrFunction c handles)
        (s.setIsr c (if handles then .called vector prevIrql true
          else .functions vector prevIrql rest))
  | acknowledge {c : Cpu} {vector prevIrql : Nat} {interruptHandled : Bool}
      (hisr : s.isr c = .called vector prevIrql interruptHandled)
      (hhandled : interruptHandled = true ∨
        iomuIsInterruptSpurious irqSpurious (s.inService c) vector = true) :
      IsrStep data irqSpurious s (.isrReturn c)
        { s.setIsr c (.acknowledged prevIrql) with
          inService :=
            if (!interruptHandled && iomuIsInterruptSpurious irqSpurious (s.inService c) vector) =
              true then s.inService
            else Function.update s.inService c (s.inService c).tail }
  | lower {c : Cpu} {prevIrql : Nat} (hisr : s.isr c = .acknowledged prevIrql)
      (hlower : prevIrql ≤ s.irql c) :
      IsrStep data irqSpurious s (.isrReturn c)
        { s.setIsr c .lowered with irql := Function.update s.irql c prevIrql }
  | resume {c : Cpu} (hisr : s.isr c = .lowered) (hflag : s.yieldOnInterruptReturn c = false) :
      IsrStep data irqSpurious s (.isrReturn c) (s.setIsr c .thread)

theorem isrStep_cases {s s' : IsrState Cpu Thread} {action : IsrAction Cpu Thread}
    (h : isrStep data irqSpurious s action = some s') :
    (∃ a, action = .sched a ∧ s.allows a = true ∧ s.Scheduled a s') ∨
      (∃ c, action = .isrReturn c ∧ s.isr c = .lowered ∧
        (s.setIsr c .thread).Scheduled (.threadYield c) s') ∨
      IsrStep data irqSpurious s action s' := by
  cases action with
  | sched a =>
    simp only [isrStep] at h
    split_ifs at h with hallows
    exact Or.inl ⟨a,rfl,hallows,IsrState.schedule_scheduled h⟩
  | interrupt c vector serviced =>
    by_cases htakes : s.TakesInterrupt c vector serviced
    · rw [isrStep,if_pos htakes] at h
      obtain ⟨_,hassert,hs'⟩ := Option.bind_eq_some_iff.mp h
      obtain rfl := Option.some.inj hs'
      exact Or.inr (Or.inr (.interrupt htakes (by simpa using hassert)))
    · rw [isrStep,if_neg htakes] at h
      cases h
  | isrFunction c handles =>
    by_cases hpc : s.sched.pc c = .running
    · rw [isrStep,if_pos hpc] at h
      split at h
      · rename_i vector prevIrql hisr
        obtain rfl := Option.some.inj h
        exact Or.inr (Or.inr (.noFunction hpc hisr))
      · rename_i vector prevIrql rest hisr
        obtain rfl := Option.some.inj h
        exact Or.inr (Or.inr (.tick hpc hisr))
      · rename_i vector prevIrql rest hisr
        obtain rfl := Option.some.inj h
        exact Or.inr (Or.inr (.device hpc hisr))
      · cases h
    · rw [isrStep,if_neg hpc] at h
      cases h
  | isrReturn c =>
    simp only [isrStep] at h
    split at h
    · rename_i vector prevIrql interruptHandled hisr
      obtain ⟨_,hassert,hs'⟩ := Option.bind_eq_some_iff.mp h
      obtain rfl := Option.some.inj hs'
      refine Or.inr (Or.inr (.acknowledge hisr ?_))
      rw [assert_eq_some] at hassert
      cases interruptHandled
      · exact Or.inr (by simpa using hassert)
      · exact Or.inl rfl
    · rename_i prevIrql hisr
      obtain ⟨_,hassert,hs'⟩ := Option.bind_eq_some_iff.mp h
      obtain rfl := Option.some.inj hs'
      exact Or.inr (Or.inr (.lower hisr (by simpa using hassert)))
    · rename_i hisr
      split_ifs at h with hflag
      · exact Or.inr (Or.inl ⟨c,rfl,hisr,IsrState.schedule_scheduled h⟩)
      · obtain rfl := Option.some.inj h
        exact Or.inr (Or.inr (.resume hisr (by simpa using hflag)))
    · cases h

def IsrHandlerPc.Holds (pc : SchedPc Thread) (irql : Nat) (inService : List Nat) (flag : Bool) :
    IsrHandlerPc → Prop
  | .thread => irql = 0 ∧ inService = [] ∧ flag = false
  | .functions vector prevIrql _ => prevIrql = 0 ∧ irql = vectorToIrql vector ∧
      (inService = [vector] ∨ inService = []) ∧ flag = false ∧ pc.inThread = true
  | .called vector prevIrql _ => prevIrql = 0 ∧ irql = vectorToIrql vector ∧
      (inService = [vector] ∨ inService = []) ∧ pc = .running
  | .acknowledged prevIrql => prevIrql = 0 ∧ inService = [] ∧ pc = .running
  | .lowered => irql = 0 ∧ inService = [] ∧ pc = .running

structure IsrState.InvAt (s : IsrState Cpu Thread) (c : Cpu) : Prop where
  phase : (s.isr c).Holds (s.sched.pc c) (s.irql c) (s.inService c) (s.yieldOnInterruptReturn c)
  slice : s.runningThreadTicks c ≤ threadTimeSlice
  flag : (s.sched.pc c).inSlice = true →
    (s.yieldOnInterruptReturn c = true ↔ s.runningThreadTicks c = threadTimeSlice)

def IsrState.Inv (s : IsrState Cpu Thread) : Prop := ∀ c, s.InvAt c

variable {s s' : IsrState Cpu Thread} {c c' : Cpu}

omit [DecidableEq Cpu] [DecidableEq Thread] in
theorem IsrState.InvAt.inThread (h : s.InvAt c) (hisr : s.isr c ≠ .thread) :
    (s.sched.pc c).inThread = true := by
  have hphase := h.phase
  cases hcase : s.isr c with
  | thread => exact absurd hcase hisr
  | functions vector prevIrql rest =>
    rw [hcase] at hphase
    exact hphase.2.2.2.2
  | called vector prevIrql interruptHandled =>
    rw [hcase] at hphase
    rw [hphase.2.2.2]
    rfl
  | acknowledged prevIrql =>
    rw [hcase] at hphase
    rw [hphase.2.2]
    rfl
  | lowered =>
    rw [hcase] at hphase
    rw [hphase.2.2]
    rfl

omit [DecidableEq Cpu] [DecidableEq Thread] in
theorem IsrState.InvAt.thread (h : s.InvAt c) (hpc : (s.sched.pc c).inThread = false) :
    s.isr c = .thread := by
  by_contra hisr
  rw [h.inThread hisr] at hpc
  cases hpc

private theorem schedStep_yield {s s' : SchedState Cpu Thread} {c : Cpu}
    (h : schedStep s (.threadYield c) = some s') :
    s.pc c = .running ∧ (s'.pc c).inSlice = false := by
  simp only [schedStep] at h
  split_ifs at h with hpc hflag <;> obtain rfl := Option.some.inj h
  · refine ⟨hpc,?_⟩
    simp [SchedState.setPc,SchedPc.inSlice,SchedPc.inThread]
  · refine ⟨hpc,?_⟩
    simp [SchedState.setPc,SchedPc.inSlice,SchedPc.inThread]

private theorem IsrState.Scheduled.slice {action : SchedAction Cpu Thread}
    (hs : s.Scheduled action s') (h : s.runningThreadTicks c ≤ threadTimeSlice) :
    s'.runningThreadTicks c ≤ threadTimeSlice := by
  by_cases hbegins : action = .run c ∧ s.sched.pc c = .releaseReady
  · rw [hs.begins c hbegins.1 hbegins.2]
    exact Nat.zero_le _
  · rw [hs.ticks c hbegins]
    exact h

private theorem IsrState.Scheduled.phase {action : SchedAction Cpu Thread}
    (hs : s.Scheduled action s') (hallows : s.allows action = true)
    (hyield : action ≠ .threadYield c) (h : s.InvAt c) :
    (s'.isr c).Holds (s'.sched.pc c) (s'.irql c) (s'.inService c)
      (s'.yieldOnInterruptReturn c) := by
  have hphase := h.phase
  rw [hs.isr,hs.irql,hs.inService,hs.flag c hyield]
  have hstep := schedStep_pc hs.sched c
  have hgives : s.isr c ≠ .thread → s'.sched.pc c = s.sched.pc c ∨
      (s.sched.pc c ≠ .running ∧ (s'.sched.pc c).inThread = true) ∨
      (s.isr c).mayUnblock = true ∧ (s'.sched.pc c).inThread = true := by
    intro hisr
    have hinThread := h.inThread hisr
    cases hstep with
    | same hsame => exact Or.inl hsame
    | run haction hrun => exact Or.inr (Or.inl ⟨hrun.notRunning,hrun.inThread hinThread⟩)
    | gives haction hpc hpc' =>
      rcases haction with rfl | rfl | rfl
      · exact absurd rfl hyield
      · exact absurd (by simpa [IsrState.allows] using hallows) hisr
      · exact absurd (by simpa [IsrState.allows] using hallows) hisr
    | unblocks t caller haction hpc hpc' =>
      rcases haction with rfl | rfl
      · refine Or.inr (Or.inr ⟨hallows,?_⟩)
        rw [hpc] at hinThread
        rw [hpc']
        cases caller
        · rfl
        · cases hinThread
      · exact absurd (by simpa [IsrState.allows] using hallows) hisr
  cases hcase : s.isr c with
  | thread =>
    rw [hcase] at hphase
    exact hphase
  | functions vector prevIrql rest =>
    rw [hcase] at hphase
    refine ⟨hphase.1,hphase.2.1,hphase.2.2.1,hphase.2.2.2.1,?_⟩
    rcases hgives (by rw [hcase]; simp) with hsame | ⟨_,hin⟩ | ⟨_,hin⟩
    · rw [hsame]
      exact hphase.2.2.2.2
    · exact hin
    · exact hin
  | called vector prevIrql interruptHandled =>
    rw [hcase] at hphase
    refine ⟨hphase.1,hphase.2.1,hphase.2.2.1,?_⟩
    rcases hgives (by rw [hcase]; simp) with hsame | ⟨hne,_⟩ | ⟨hmay,_⟩
    · rw [hsame,hphase.2.2.2]
    · exact absurd hphase.2.2.2 hne
    · rw [hcase] at hmay
      cases hmay
  | acknowledged prevIrql =>
    rw [hcase] at hphase
    refine ⟨hphase.1,hphase.2.1,?_⟩
    rcases hgives (by rw [hcase]; simp) with hsame | ⟨hne,_⟩ | ⟨hmay,_⟩
    · rw [hsame,hphase.2.2]
    · exact absurd hphase.2.2 hne
    · rw [hcase] at hmay
      cases hmay
  | lowered =>
    rw [hcase] at hphase
    refine ⟨hphase.1,hphase.2.1,?_⟩
    rcases hgives (by rw [hcase]; simp) with hsame | ⟨hne,_⟩ | ⟨hmay,_⟩
    · rw [hsame,hphase.2.2]
    · exact absurd hphase.2.2 hne
    · rw [hcase] at hmay
      cases hmay

private theorem IsrState.Scheduled.flag_iff {action : SchedAction Cpu Thread}
    (hs : s.Scheduled action s') (h : s.InvAt c) (hin : (s'.sched.pc c).inSlice = true) :
    s'.yieldOnInterruptReturn c = true ↔ s'.runningThreadTicks c = threadTimeSlice := by
  by_cases hyield : action = .threadYield c
  · subst hyield
    rw [(schedStep_yield hs.sched).2] at hin
    cases hin
  rw [hs.flag c hyield]
  have hstays : (s.sched.pc c).inSlice = true → (s.yieldOnInterruptReturn c = true ↔
      s'.runningThreadTicks c = threadTimeSlice) := by
    intro hslice
    rw [hs.ticks c]
    · exact h.flag hslice
    · intro hbegins
      rw [hbegins.2] at hslice
      cases hslice
  cases schedStep_pc hs.sched c with
  | same hsame =>
    rw [hsame] at hin
    exact hstays hin
  | run haction hrun =>
    rcases hrun.inSlice hin with hslice | hpc
    · exact hstays hslice
    · -- a time slice begins outside of any interrupt
      have hphase := h.phase
      rw [h.thread (by rw [hpc]; rfl)] at hphase
      rw [hs.begins c haction hpc,hphase.2.2]
      exact iff_of_false (by simp) threadTimeSlice_pos.ne
  | gives haction hpc hpc' =>
    rcases hpc' with hpc' | hpc' | hpc' <;> rw [hpc'] at hin <;> cases hin
  | unblocks t caller haction hpc hpc' =>
    apply hstays
    rw [hpc'] at hin
    rw [hpc]
    cases caller
    · rfl
    · cases hin

private theorem IsrState.Inv.sched {action : SchedAction Cpu Thread} (h : s.Inv)
    (hallows : s.allows action = true) (hs : s.Scheduled action s') : s'.Inv := by
  intro c
  refine ⟨?_,hs.slice (h c).slice,hs.flag_iff (h c)⟩
  by_cases hyield : action = .threadYield c
  · subst hyield
    have hthread : s.isr c = .thread := by simpa [IsrState.allows] using hallows
    have hphase := (h c).phase
    rw [hthread] at hphase
    rw [hs.isr,hs.irql,hs.inService,hs.yields c rfl,hthread]
    exact ⟨hphase.1,hphase.2.1,rfl⟩
  · exact hs.phase hallows hyield (h c)

omit [DecidableEq Cpu] [DecidableEq Thread] in
private theorem IsrState.InvAt.congr (h : s.InvAt c) (hisr : s'.isr c = s.isr c)
    (hsched : s'.sched = s.sched) (hirql : s'.irql c = s.irql c)
    (hservice : s'.inService c = s.inService c)
    (hticks : s'.runningThreadTicks c = s.runningThreadTicks c)
    (hflag : s'.yieldOnInterruptReturn c = s.yieldOnInterruptReturn c) : s'.InvAt c where
  phase := by
    rw [hisr,hsched,hirql,hservice,hflag]
    exact h.phase
  slice := by
    rw [hticks]
    exact h.slice
  flag := by
    rw [hsched,hflag,hticks]
    exact h.flag

omit [DecidableEq Thread] in
private theorem setIsr_other {isr : IsrHandlerPc} (hc : c' ≠ c) :
    (s.setIsr c isr).isr c' = s.isr c' :=
  Function.update_of_ne hc _ _

omit [DecidableEq Thread] in
private theorem setIsr_self {isr : IsrHandlerPc} : (s.setIsr c isr).isr c = isr :=
  Function.update_self _ _ _

private theorem IsrState.Inv.yield (h : s.Inv) (hisr : s.isr c = .lowered)
    (hs : (s.setIsr c .thread).Scheduled (.threadYield c) s') : s'.Inv := by
  intro c'
  by_cases hc : c' = c
  · subst hc
    have hphase := (h c').phase
    rw [hisr] at hphase
    refine ⟨?_,hs.slice (h c').slice,?_⟩
    · rw [hs.isr,hs.irql,hs.inService,hs.yields c' rfl,setIsr_self]
      exact ⟨hphase.1,hphase.2.1,rfl⟩
    · rw [(schedStep_yield hs.sched).2]
      intro hin
      cases hin
  · have hother : (s.setIsr c .thread).InvAt c' :=
      (h c').congr (setIsr_other hc) rfl rfl rfl rfl rfl
    refine ⟨?_,hs.slice hother.slice,hs.flag_iff hother⟩
    apply hs.phase _ _ hother
    · simp [IsrState.allows,setIsr_self]
    · intro heq
      exact hc (SchedAction.threadYield.inj heq).symm

private theorem threadTick_invAt (h : s.InvAt c) {vector prevIrql : Nat} {rest : List IsrFunction}
    (hpc : s.sched.pc c = .running) (hisr : s.isr c = .functions vector prevIrql rest) :
    ((s.threadTick c).setIsr c (.called vector prevIrql true)).InvAt c := by
  have hphase := h.phase
  rw [hisr] at hphase
  have hin : (s.sched.pc c).inSlice = true := by
    rw [hpc]
    rfl
  have hne : s.runningThreadTicks c ≠ threadTimeSlice := by
    intro heq
    have hflag := (h.flag hin).mpr heq
    rw [hphase.2.2.2.1] at hflag
    cases hflag
  have hlt := lt_of_le_of_ne h.slice hne
  have hticks : ((s.threadTick c).setIsr c (.called vector prevIrql true)).runningThreadTicks c =
      s.runningThreadTicks c + 1 := Function.update_self _ _ _
  refine ⟨?_,?_,?_⟩
  · rw [setIsr_self]
    exact ⟨hphase.1,hphase.2.1,hphase.2.2.1,hpc⟩
  · rw [hticks]
    exact hlt
  · intro _
    rw [hticks]
    have hflag : ((s.threadTick c).setIsr c
        (.called vector prevIrql true)).yieldOnInterruptReturn c =
          decide (threadTimeSlice ≤ s.runningThreadTicks c + 1) := by
      by_cases hfull : threadTimeSlice ≤ s.runningThreadTicks c + 1
      · simp [IsrState.setIsr,IsrState.threadTick,hfull]
      · simp [IsrState.setIsr,IsrState.threadTick,hfull,hphase.2.2.2.1]
    rw [hflag,decide_eq_true_eq]
    omega

omit [DecidableEq Cpu] in
private theorem ended {inService : List Nat} {vector : Nat} {spurious : Bool}
    (hspurious : spurious = true → inService.contains vector = false)
    (hservice : inService = [vector] ∨ inService = []) :
    (if spurious = true then inService else inService.tail) = [] := by
  rcases hservice with rfl | rfl
  · cases spurious
    · rfl
    · simp at hspurious
  · cases spurious <;> rfl

private theorem IsrStep.inv {data : IomuData IsrFunction} {irqSpurious : Nat}
    {action : IsrAction Cpu Thread} (h : s.Inv) (hs : IsrStep data irqSpurious s action s') :
    s'.Inv := by
  intro c'
  cases hs with
  | @interrupt c vector serviced htakes hraise =>
    by_cases hc : c' = c
    · subst hc
      have hphase := (h c').phase
      rw [htakes.2.1] at hphase
      refine ⟨?_,(h c').slice,(h c').flag⟩
      simp only [setIsr_self,IsrHandlerPc.Holds,Function.update_self]
      refine ⟨hphase.1,trivial,?_,hphase.2.2,?_⟩
      · cases serviced
        · right
          simpa using hphase.2.1
        · left
          simp [hphase.2.1]
      · rw [show (IsrState.sched { s.setIsr c' _ with .. }).pc c' = .running from htakes.1]
        rfl
    · refine (h c').congr ?_ rfl ?_ ?_ rfl rfl
      · exact Function.update_of_ne hc _ _
      · exact Function.update_of_ne hc _ _
      · cases serviced
        · rfl
        · exact Function.update_of_ne hc _ _
  | @noFunction c handles vector prevIrql hpc hisr =>
    by_cases hc : c' = c
    · subst hc
      have hphase := (h c').phase
      rw [hisr] at hphase
      refine ⟨?_,(h c').slice,(h c').flag⟩
      rw [setIsr_self]
      exact ⟨hphase.1,hphase.2.1,hphase.2.2.1,hpc⟩
    · exact (h c').congr (setIsr_other hc) rfl rfl rfl rfl rfl
  | @tick c handles vector prevIrql rest hpc hisr =>
    by_cases hc : c' = c
    · subst hc
      exact threadTick_invAt (h c') hpc hisr
    · refine (h c').congr ?_ rfl rfl rfl ?_ ?_
      · exact Function.update_of_ne hc _ _
      · exact Function.update_of_ne hc _ _
      · simp only [IsrState.setIsr,IsrState.threadTick]
        split
        · exact Function.update_of_ne hc _ _
        · rfl
  | @device c handles vector prevIrql rest hpc hisr =>
    by_cases hc : c' = c
    · subst hc
      have hphase := (h c').phase
      rw [hisr] at hphase
      refine ⟨?_,(h c').slice,(h c').flag⟩
      rw [setIsr_self]
      cases handles
      · exact hphase
      · exact ⟨hphase.1,hphase.2.1,hphase.2.2.1,hpc⟩
    · exact (h c').congr (setIsr_other hc) rfl rfl rfl rfl rfl
  | @acknowledge c vector prevIrql interruptHandled hisr hhandled =>
    by_cases hc : c' = c
    · subst hc
      have hphase := (h c').phase
      rw [hisr] at hphase
      refine ⟨?_,(h c').slice,(h c').flag⟩
      simp only [setIsr_self,IsrHandlerPc.Holds]
      refine ⟨hphase.1,?_,hphase.2.2.2⟩
      rw [apply_ite (fun inService : Cpu → List Nat => inService c'),Function.update_self]
      apply ended _ hphase.2.2.1
      intro hspurious
      rw [Bool.and_eq_true] at hspurious
      have hservice := (Bool.and_eq_true _ _ ▸ hspurious.2).2
      simpa using hservice
    · refine (h c').congr ?_ rfl rfl ?_ rfl rfl
      · exact Function.update_of_ne hc _ _
      · dsimp only
        rw [apply_ite (fun inService : Cpu → List Nat => inService c'),
          Function.update_of_ne hc,ite_self]
  | @lower c prevIrql hisr hlower =>
    by_cases hc : c' = c
    · subst hc
      have hphase := (h c').phase
      rw [hisr] at hphase
      refine ⟨?_,(h c').slice,(h c').flag⟩
      simp only [setIsr_self,IsrHandlerPc.Holds,Function.update_self]
      exact hphase
    · exact (h c').congr (setIsr_other hc) rfl (Function.update_of_ne hc _ _) rfl rfl rfl
  | @resume c hisr hflag =>
    by_cases hc : c' = c
    · subst hc
      have hphase := (h c').phase
      rw [hisr] at hphase
      refine ⟨?_,(h c').slice,(h c').flag⟩
      rw [setIsr_self]
      exact ⟨hphase.1,hphase.2.1,hflag⟩
    · exact (h c').congr (setIsr_other hc) rfl rfl rfl rfl rfl

theorem IsrState.Inv.step {data : IomuData IsrFunction} {irqSpurious : Nat}
    {action : IsrAction Cpu Thread} (h : s.Inv)
    (hs : isrStep data irqSpurious s action = some s') : s'.Inv := by
  rcases isrStep_cases hs with ⟨a,rfl,hallows,hsched⟩ | ⟨c,rfl,hisr,hyield⟩ | hstep
  · exact h.sched hallows hsched
  · exact h.yield hisr hyield
  · exact IsrStep.inv h hstep

theorem isrInv_of_reachable {data : IomuData IsrFunction} {irqSpurious : Nat}
    (h : (isrSystem data irqSpurious Cpu Thread).Reachable s) : s.Inv := by
  apply TransitionSystem.ReachableUnder.invariant _ _ h
  · intro s hinit c
    refine ⟨?_,?_,?_⟩
    · rw [hinit.isr c]
      exact ⟨hinit.irql c,hinit.inService c,hinit.flag c⟩
    · rw [hinit.ticks c]
      exact Nat.zero_le _
    · intro _
      rw [hinit.ticks c,hinit.flag c]
      exact iff_of_false (by simp) threadTimeSlice_pos.ne
  · intro s action s' _ hinv _ hs
    exact hinv.step hs

omit [DecidableEq Cpu] [DecidableEq Thread] in
private theorem takes_raises (h : s.InvAt c) {vector : Nat} {serviced : Bool}
    (htakes : s.TakesInterrupt c vector serviced) : s.irql c ≤ vectorToIrql vector := by
  have hphase := h.phase
  rw [htakes.2.1] at hphase
  rw [hphase.1]
  exact Nat.zero_le _

/-- A CPU is in no interrupt when it gives up its thread or dispatches another: its priority is
the lowest, nothing is in service and no yield is pending. In an interrupt its priority is that of
the vector, and nothing else is in service. Taking an interrupt and returning from one halt the
machine in one case: no function handled an interrupt that is not spurious. -/
theorem interrupt_return (data : IomuData IsrFunction) (irqSpurious : Nat)
    (h : (isrSystem data irqSpurious Cpu Thread).Reachable s) (c : Cpu) :
    ((s.sched.pc c).inThread = false ∨ s.isr c = .thread →
        s.isr c = .thread ∧ s.irql c = 0 ∧ s.inService c = [] ∧
          s.yieldOnInterruptReturn c = false) ∧
      (∀ vector prevIrql, (∃ rest, s.isr c = .functions vector prevIrql rest) ∨
          (∃ handled, s.isr c = .called vector prevIrql handled) →
        s.irql c = vectorToIrql vector ∧ (s.inService c = [vector] ∨ s.inService c = [])) ∧
      (∀ vector serviced, s.TakesInterrupt c vector serviced →
        (isrStep data irqSpurious s (.interrupt c vector serviced)).isSome) ∧
      (s.isr c ≠ .thread → (∀ vector prevIrql rest, s.isr c ≠ .functions vector prevIrql rest) →
        (isrStep data irqSpurious s (.isrReturn c) = none ↔ ∃ vector prevIrql,
          s.isr c = .called vector prevIrql false ∧
            iomuIsInterruptSpurious irqSpurious (s.inService c) vector = false)) := by
  have hinv := isrInv_of_reachable h c
  have hphase := hinv.phase
  refine ⟨?_,?_,?_,?_⟩
  · intro hthread
    have hisr : s.isr c = .thread := hthread.elim hinv.thread id
    rw [hisr] at hphase
    exact ⟨hisr,hphase⟩
  · intro vector prevIrql hin
    rcases hin with ⟨rest,hisr⟩ | ⟨handled,hisr⟩
    · rw [hisr] at hphase
      exact ⟨hphase.2.1,hphase.2.2.1⟩
    · rw [hisr] at hphase
      exact ⟨hphase.2.1,hphase.2.2.1⟩
  · intro vector serviced htakes
    rw [isrStep,if_pos htakes]
    simp [takes_raises hinv htakes,assert]
  · intro hisr hfunctions
    cases hcase : s.isr c with
    | thread => exact absurd hcase hisr
    | functions vector prevIrql rest => exact absurd hcase (hfunctions vector prevIrql rest)
    | called vector prevIrql handled =>
      simp only [isrStep,hcase]
      cases handled
      · cases hspurious : iomuIsInterruptSpurious irqSpurious (s.inService c) vector
        · simp [assert,hspurious]
        · simp [assert,hspurious]
      · simp [assert]
    | acknowledged prevIrql =>
      rw [hcase] at hphase
      simp [isrStep,hcase,hphase.1,assert]
    | lowered =>
      rw [hcase] at hphase
      simp only [isrStep,hcase]
      cases s.yieldOnInterruptReturn c
      · simp
      · simp [IsrState.schedule,IsrState.setIsr,schedStep,hphase.2.2]

end InterruptReturn

/-- One vector, that of the system tick. -/
def tickData : IomuData IsrFunction where
  interruptBitmap _ := true
  registeredInterrupts _ := [.systemTick]
  isrRoutines interrupt := some (.iomuGenericInterrupt,interrupt)
  interruptsWritten _ := false
  redirectionTable _ := ⟨64,.fixed,.activeHigh,.edge,0,false⟩
  maskInterrupts := false

/-- CPU 0 has its idle thread, and its main thread has created thread 3. -/
def createThread : List (SchedAction (Fin 2) (Fin 4)) :=
  [.threadInit 0 2,.threadSetupInitialState 0 2,.threadStart 0 2,.threadInit 0 3,
    .threadSetupInitialState 0 3,.threadStart 0 3] ++ List.replicate 6 (.run 0)

/-- Both CPUs are interrupted by the system tick: CPU 0 yields to thread 3 when it returns, while
CPU 1 is in its interrupt. -/
theorem interrupt_return_tick : ∃ s : IsrState (Fin 2) (Fin 4),
    (isrSystem tickData 7 (Fin 2) (Fin 4)).Reachable s ∧
      s.sched.pc 0 = .threadSwitch 0 ∧ s.sched.currentThread 0 = 3 ∧ s.inService 1 = [64] ∧
      s.isr 0 = .thread ∧ s.irql 0 = 0 ∧ s.inService 0 = [] ∧
      s.yieldOnInterruptReturn 0 = false := by
  have hinit : (IsrState.start (Fin.castLE (by decide) : Fin 2 → Fin 4)).Initial :=
    IsrState.start_initial (Fin.castLE_injective _)
  obtain ⟨s,hreach,hs⟩ := TransitionSystem.exists_reachable (isrSystem tickData 7 (Fin 2) (Fin 4))
    (fun _ _ => True) (.start (Fin.castLE (by decide))) hinit
    (createThread.map .sched ++ [.interrupt 0 64 true,.isrFunction 0 true,.interrupt 1 64 true,
      .isrReturn 0,.isrReturn 0,.isrReturn 0] ++ List.replicate 5 (.sched (.run 0)))
    (fun s => decide (s.sched.pc 0 = .threadSwitch 0 ∧ s.sched.currentThread 0 = 3 ∧
      s.inService 1 = [64]))
    (TransitionSystem.runSatisfies_of_forall (fun _ _ => trivial) _ _) (by decide +kernel)
  obtain ⟨hpc,hcurrent,hservice⟩ := of_decide_eq_true hs
  have hthread : (s.sched.pc 0).inThread = false := by
    rw [hpc]
    rfl
  exact ⟨s,hreach,hpc,hcurrent,hservice,(interrupt_return tickData 7 hreach 0).1 (Or.inl hthread)⟩

end Hal9000
