import Hal9000.Common.Machine
import Hal9000.Framework.TransitionSystem

/-!
# The paging tables that are loaded

`_ThreadSchedule` loads the tables of the next thread's process when the process changes.
`MmuDestroyAddressSpaceForProcess` loads those of the dying process, and then those of its own. A
thread that is preempted in between leaves the dying process's tables to a thread of its process.
-/

namespace Hal9000

/-- Where `_ThreadSchedule` is. -/
inductive SchedulePc (Thread : Type)
  | none
  | chosen (nextThread : Thread)
  | spaceChanged (nextThread : Thread)
  deriving DecidableEq

/-- A call a thread is in: `MmuDestroyAddressSpaceForProcess`, and whether it runs with interrupts
enabled, or the rest of the `_ThreadSchedule` that switched the thread off. -/
inductive Cr3Call (Process : Type)
  | activate (process : Process) (interruptsEnabled : Bool)
  | restore (process : Process) (interruptsEnabled : Bool)
  | destroyTables (process : Process) (interruptsEnabled : Bool)
  | threadCleanupPostSchedule
  deriving DecidableEq

inductive ThreadLife (Cpu : Type)
  | absent
  /-- On no CPU, and not dying. -/
  | waiting
  | running (cpu : Cpu)
  | exiting (cpu : Cpu)
  | dead
  | removed
  deriving DecidableEq

inductive ProcessLife
  | absent
  | live
  | destroying
  | destroyed
  deriving DecidableEq

structure Cr3State (Cpu Thread Process : Type) where
  /-- The process whose PML4 is loaded. -/
  cr3 : Cpu → Process
  currentThread : Cpu → Thread
  schedule : Cpu → SchedulePc Thread
  thread : Thread → ThreadLife Cpu
  /-- The calls of a thread, innermost first. -/
  calls : Thread → List (Cr3Call Process)
  threadList : Process → List Thread
  life : Process → ProcessLife

inductive Cr3Action (Cpu Thread Process : Type)
  | processCreate (process : Process)
  | threadCreate (t : Thread)
  | threadExit (cpu : Cpu)
  /-- The last reference of a thread that died is dropped. -/
  | threadDestroy (t : Thread)
  /-- A timer tick, or a call of the current thread. -/
  | threadSchedule (cpu : Cpu) (nextThread : Thread)
  | scheduleStep (cpu : Cpu)
  | mmuDestroyAddressSpaceForProcess (cpu : Cpu) (process : Process) (interruptsEnabled : Bool)
  | run (cpu : Cpu)

/-- The process that is being destroyed. -/
def Cr3Call.process? {Process : Type} : Cr3Call Process → Option Process
  | .activate process _ | .restore process _ | .destroyTables process _ => some process
  | .threadCleanupPostSchedule => none

/-- The processes a thread is destroying. -/
def destroys {Process : Type} (calls : List (Cr3Call Process)) : List Process :=
  calls.filterMap Cr3Call.process?

/-- The process whose tables were loaded, between the two calls of `ProcessActivatePagingTables`. -/
def activated {Process : Type} : List (Cr3Call Process) → Option Process
  | .restore process _ :: _ => some process
  | _ => none

/-- `_ThreadSchedule` and `ThreadCleanupPostSchedule` run with interrupts disabled. -/
def interruptsEnabled {Process : Type} : List (Cr3Call Process) → Bool
  | [] => true
  | .threadCleanupPostSchedule :: _ => false
  | .activate _ enabled :: _ | .restore _ enabled :: _ | .destroyTables _ enabled :: _ => enabled

/-- The last reference of a process is dropped by a thread of its own accord, or by the one behind
the switch from a thread that died. -/
def mayDestroy {Process : Type} : List (Cr3Call Process) → Bool
  | [] | .threadCleanupPostSchedule :: _ => true
  | _ => false

def SchedulePc.nextThread {Thread : Type} : SchedulePc Thread → Option Thread
  | .none => .none
  | .chosen nextThread | .spaceChanged nextThread => some nextThread

/-- The thread is in the list of its process. -/
def ThreadLife.isLinked {Cpu : Type} : ThreadLife Cpu → Bool
  | .waiting | .running _ | .exiting _ | .dead => true
  | .absent | .removed => false

/-- What becomes of a thread that is switched off. -/
def ThreadLife.switchedOff {Cpu : Type} : ThreadLife Cpu → ThreadLife Cpu
  | .exiting _ => .dead
  | _ => .waiting

section Cr3

variable {Cpu Thread Process : Type} [DecidableEq Cpu] [DecidableEq Thread] [DecidableEq Process]

namespace Cr3State

variable (s : Cr3State Cpu Thread Process)

def setCr3 (cpu : Cpu) (process : Process) : Cr3State Cpu Thread Process :=
  { s with cr3 := Function.update s.cr3 cpu process }

def setSchedule (cpu : Cpu) (pc : SchedulePc Thread) : Cr3State Cpu Thread Process :=
  { s with schedule := Function.update s.schedule cpu pc }

def setThread (t : Thread) (life : ThreadLife Cpu) : Cr3State Cpu Thread Process :=
  { s with thread := Function.update s.thread t life }

def setThreadList (process : Process) (threads : List Thread) : Cr3State Cpu Thread Process :=
  { s with threadList := Function.update s.threadList process threads }

def setCurrentThread (cpu : Cpu) (t : Thread) : Cr3State Cpu Thread Process :=
  { s with currentThread := Function.update s.currentThread cpu t }

def setCalls (t : Thread) (calls : List (Cr3Call Process)) : Cr3State Cpu Thread Process :=
  { s with calls := Function.update s.calls t calls }

def setLife (process : Process) (life : ProcessLife) : Cr3State Cpu Thread Process :=
  { s with life := Function.update s.life process life }

end Cr3State

variable (owner : Thread → Process) (systemProcess : Process)

/-- The innermost call of the current thread of the CPU. -/
def destroyRun (s : Cr3State Cpu Thread Process) (cpu : Cpu) :
    Option (Cr3State Cpu Thread Process) :=
  let t := s.currentThread cpu
  match s.calls t with
  | .activate process enabled :: calls =>
    some ((s.setCr3 cpu process).setCalls t (.restore process enabled :: calls))
  | .restore process enabled :: calls =>
    some ((s.setCr3 cpu (owner t)).setCalls t (.destroyTables process enabled :: calls))
  | .destroyTables process _ :: calls => some ((s.setCalls t calls).setLife process .destroyed)
  | .threadCleanupPostSchedule :: calls => some (s.setCalls t calls)
  | [] => none

/-- `_ThreadSchedule`, from the choice of the next thread on. -/
def threadScheduleStep (s : Cr3State Cpu Thread Process) (cpu : Cpu) :
    Option (Cr3State Cpu Thread Process) :=
  let pCurrentThread := s.currentThread cpu
  match s.schedule cpu with
  | .chosen pNextThread =>
    let s := s.setSchedule cpu (.spaceChanged pNextThread)
    if owner pCurrentThread ≠ owner pNextThread then some (s.setCr3 cpu (owner pNextThread))
    else some s
  | .spaceChanged pNextThread =>
    some ((((s.setCurrentThread cpu pNextThread).setThread pCurrentThread
      (s.thread pCurrentThread).switchedOff).setCalls pCurrentThread
      (.threadCleanupPostSchedule :: s.calls pCurrentThread)).setSchedule cpu .none)
  | .none => none

/-- A tick preempts a thread whose interrupts are enabled; `ThreadExit` ends in `_ThreadSchedule`. -/
def Cr3State.mayBeSwitched (s : Cr3State Cpu Thread Process) (cpu : Cpu) : Bool :=
  match s.thread (s.currentThread cpu) with
  | .exiting _ => true
  | _ => interruptsEnabled (s.calls (s.currentThread cpu))

def cr3Step (s : Cr3State Cpu Thread Process) :
    Cr3Action Cpu Thread Process → Option (Cr3State Cpu Thread Process)
  | .processCreate process =>
    match s.life process with
    | .absent => some (s.setLife process .live)
    | _ => none
  | .threadCreate t =>
    match s.thread t,s.life (owner t) with
    | .absent,.live =>
      some ((s.setThreadList (owner t) (t :: s.threadList (owner t))).setThread t .waiting)
    | _,_ => none
  | .threadExit cpu =>
    -- a tick may force the exit of a thread inside its calls
    match s.schedule cpu,interruptsEnabled (s.calls (s.currentThread cpu)) with
    | .none,true => some (s.setThread (s.currentThread cpu) (.exiting cpu))
    | _,_ => none
  | .threadDestroy t =>
    match s.thread t with
    | .dead =>
      some ((s.setThreadList (owner t) ((s.threadList (owner t)).erase t)).setThread t .removed)
    | _ => none
  | .threadSchedule cpu pNextThread =>
    match s.schedule cpu,s.mayBeSwitched cpu,s.thread pNextThread with
    | .none,true,.waiting =>
      some ((s.setThread pNextThread (.running cpu)).setSchedule cpu (.chosen pNextThread))
    | _,_,_ => none
  | .scheduleStep cpu => threadScheduleStep owner s cpu
  | .mmuDestroyAddressSpaceForProcess cpu process enabled =>
    match s.schedule cpu,s.thread (s.currentThread cpu),mayDestroy (s.calls (s.currentThread cpu)),
      s.life process with
    | .none,.running _,true,.live => do
      assert (decide (process ≠ systemProcess))
      assert (s.threadList process).isEmpty
      return (s.setCalls (s.currentThread cpu)
        (.activate process enabled :: s.calls (s.currentThread cpu))).setLife process .destroying
    | _,_,_,_ => none
  | .run cpu =>
    match s.schedule cpu,s.thread (s.currentThread cpu) with
    | .none,.running _ => destroyRun owner s cpu
    | _,_ => none

/-- Every CPU runs a thread, on the tables of its process. -/
structure Cr3State.Initial (s : Cr3State Cpu Thread Process) : Prop where
  cr3 : ∀ cpu, s.cr3 cpu = owner (s.currentThread cpu)
  running : ∀ cpu, s.thread (s.currentThread cpu) = .running cpu
  schedule : ∀ cpu, s.schedule cpu = .none
  calls : ∀ t, s.calls t = [] ∨ s.calls t = [.threadCleanupPostSchedule]
  listed : ∀ t, (s.thread t).isLinked = true → t ∈ s.threadList (owner t)

def cr3System : TransitionSystem (Cr3State Cpu Thread Process) (Cr3Action Cpu Thread Process) where
  init := Cr3State.Initial owner
  step := cr3Step owner systemProcess

/-- A thread whose CPU has a dying process's tables loaded is not preempted by another thread of
its own process. -/
def RestoresTables (s : Cr3State Cpu Thread Process) : Cr3Action Cpu Thread Process → Prop
  | .threadSchedule cpu pNextThread => owner pNextThread = owner (s.currentThread cpu) →
    activated (s.calls (s.currentThread cpu)) ≠ some (s.cr3 cpu)
  | _ => True

instance (s : Cr3State Cpu Thread Process) : ∀ action, Decidable (RestoresTables owner s action)
  | .threadSchedule cpu pNextThread =>
    inferInstanceAs (Decidable (owner pNextThread = owner (s.currentThread cpu) →
      activated (s.calls (s.currentThread cpu)) ≠ some (s.cr3 cpu)))
  | .processCreate _ | .threadCreate _ | .threadExit _ | .threadDestroy _ | .scheduleStep _ |
    .mmuDestroyAddressSpaceForProcess _ _ _ | .run _ => .isTrue trivial

/-- The tables a CPU has loaded: those of its thread's process, or of one that the thread is
destroying, up to the next switch. -/
def TablesOk (current : Thread) (activated : Option Process) (loaded : Process) :
    SchedulePc Thread → Prop
  | .none => loaded = owner current ∨ activated = some loaded
  | .chosen nextThread => (loaded = owner current ∨ activated = some loaded) ∧
    (owner nextThread = owner current → loaded = owner current)
  | .spaceChanged nextThread => loaded = owner nextThread

structure Cr3Inv (s : Cr3State Cpu Thread Process) : Prop where
  listed : ∀ t, (s.thread t).isLinked = true → t ∈ s.threadList (owner t)
  current : ∀ cpu, s.thread (s.currentThread cpu) = .running cpu ∨
    s.thread (s.currentThread cpu) = .exiting cpu
  next : ∀ cpu t, (s.schedule cpu).nextThread = some t →
    s.thread t = .running cpu ∧ t ≠ s.currentThread cpu
  dying : ∀ t process, process ∈ destroys (s.calls t) →
    s.life process = .destroying ∧ s.threadList process = []
  single : ∀ t t' process, process ∈ destroys (s.calls t) → process ∈ destroys (s.calls t') → t = t'
  nodup : ∀ t, (destroys (s.calls t)).Nodup
  loaded : ∀ cpu, TablesOk owner (s.currentThread cpu) (activated (s.calls (s.currentThread cpu)))
    (s.cr3 cpu) (s.schedule cpu)

variable {owner systemProcess} {s s' : Cr3State Cpu Thread Process} {cpu : Cpu}

omit [DecidableEq Cpu] [DecidableEq Thread] [DecidableEq Process] in
theorem Cr3Inv.distinct (h : Cr3Inv owner s) {other : Cpu}
    (heq : s.currentThread other = s.currentThread cpu) : other = cpu := by
  have hother := h.current other
  rw [heq] at hother
  rcases h.current cpu with hcpu | hcpu <;> rw [hcpu] at hother <;> simpa [eq_comm] using hother

omit [DecidableEq Cpu] [DecidableEq Thread] [DecidableEq Process] in
theorem Cr3Inv.current_ne (h : Cr3Inv owner s) {t : Thread} (hrunning : ∀ c, s.thread t ≠ .running c)
    (hexiting : ∀ c, s.thread t ≠ .exiting c) (c : Cpu) : s.currentThread c ≠ t := by
  rintro rfl
  rcases h.current c with hc | hc
  · exact hrunning c hc
  · exact hexiting c hc

omit [DecidableEq Cpu] [DecidableEq Thread] [DecidableEq Process] in
theorem Cr3Inv.next_ne (h : Cr3Inv owner s) {other : Cpu} {t : Thread}
    (ht : (s.schedule other).nextThread = some t) : t ≠ s.currentThread cpu := by
  rintro rfl
  obtain ⟨hrunning,hne⟩ := h.next other _ ht
  rcases h.current cpu with hcpu | hcpu
  · rw [hcpu] at hrunning
    cases hrunning
    exact hne rfl
  · rw [hcpu] at hrunning
    cases hrunning

omit [DecidableEq Cpu] [DecidableEq Thread] in
theorem Cr3Inv.setLife (h : Cr3Inv owner s) {process : Process} {life : ProcessLife}
    (hnone : ∀ t, process ∉ destroys (s.calls t)) : Cr3Inv owner (s.setLife process life) := by
  refine ⟨h.listed,h.current,h.next,fun t p hp => ?_,h.single,h.nodup,h.loaded⟩
  obtain ⟨hlife,hlist⟩ := h.dying t p hp
  refine ⟨?_,hlist⟩
  have hne : p ≠ process := by
    rintro rfl
    exact hnone t hp
  simpa only [Cr3State.setLife,Function.update_of_ne hne] using hlife

omit [DecidableEq Cpu] in
theorem Cr3Inv.setThread (h : Cr3Inv owner s) {t : Thread} {life : ThreadLife Cpu}
    {threads : List Thread} (hrunning : ∀ c, s.thread t ≠ .running c)
    (hexiting : ∀ c, s.thread t ≠ .exiting c)
    (hkept : ∀ t' ∈ s.threadList (owner t), t' ≠ t → t' ∈ threads)
    (hself : life.isLinked = true → t ∈ threads)
    (hdying : s.life (owner t) = .destroying → s.threadList (owner t) = [] → threads = []) :
    Cr3Inv owner ((s.setThreadList (owner t) threads).setThread t life) := by
  refine ⟨fun t' hlinked => ?_,fun cpu => ?_,fun cpu t' hnext => ?_,fun t' p hp => ?_,h.single,
    h.nodup,h.loaded⟩
  · by_cases ht : t' = t
    · subst t'
      simp only [Cr3State.setThread,Function.update_self] at hlinked
      simpa only [Cr3State.setThread,Cr3State.setThreadList,Function.update_self] using
        hself hlinked
    · simp only [Cr3State.setThread,Cr3State.setThreadList,Function.update_of_ne ht] at hlinked ⊢
      have hold := h.listed t' hlinked
      by_cases howner : owner t' = owner t
      · rw [howner,Function.update_self]
        exact hkept t' (howner ▸ hold) ht
      · rwa [Function.update_of_ne howner]
  · simpa only [Cr3State.setThread,Cr3State.setThreadList,
      Function.update_of_ne (h.current_ne hrunning hexiting cpu)] using h.current cpu
  · obtain ⟨hrun,hne⟩ := h.next cpu t' hnext
    have ht : t' ≠ t := by
      rintro rfl
      exact hrunning cpu hrun
    refine ⟨?_,hne⟩
    simpa only [Cr3State.setThread,Cr3State.setThreadList,Function.update_of_ne ht] using hrun
  · obtain ⟨hlife,hempty⟩ := h.dying t' p hp
    refine ⟨hlife,?_⟩
    by_cases howner : p = owner t
    · subst p
      simpa only [Cr3State.setThread,Cr3State.setThreadList,Function.update_self] using
        hdying hlife hempty
    · simpa only [Cr3State.setThread,Cr3State.setThreadList,Function.update_of_ne howner] using
        hempty

omit [DecidableEq Process] in
theorem Cr3Inv.setCalls (h : Cr3Inv owner s) {calls : List (Cr3Call Process)}
    {loaded : Process} (hschedule : s.schedule cpu = .none)
    (hcalls : (destroys calls).Sublist (destroys (s.calls (s.currentThread cpu))))
    (hloaded : loaded = owner (s.currentThread cpu) ∨ activated calls = some loaded) :
    Cr3Inv owner ((s.setCr3 cpu loaded).setCalls (s.currentThread cpu) calls) := by
  have hsub : ∀ t, (destroys (Function.update s.calls (s.currentThread cpu) calls t)).Sublist
      (destroys (s.calls t)) := by
    intro t
    by_cases ht : t = s.currentThread cpu
    · subst t
      rw [Function.update_self]
      exact hcalls
    · rw [Function.update_of_ne ht]
  refine ⟨h.listed,h.current,h.next,fun t p hp => h.dying t p ((hsub t).subset hp),
    fun t t' p hp hp' => h.single t t' p ((hsub t).subset hp) ((hsub t').subset hp'),
    fun t => (h.nodup t).sublist (hsub t),fun other => ?_⟩
  simp only [Cr3State.setCalls,Cr3State.setCr3]
  by_cases hother : other = cpu
  · subst other
    rw [Function.update_self,Function.update_self,hschedule]
    exact hloaded
  · have hne : s.currentThread other ≠ s.currentThread cpu := fun heq => hother (h.distinct heq)
    rw [Function.update_of_ne hother,Function.update_of_ne hne]
    exact h.loaded other

omit [DecidableEq Process] in
theorem Cr3Inv.popCall (h : Cr3Inv owner s) {calls : List (Cr3Call Process)}
    (hschedule : s.schedule cpu = .none)
    (hcalls : (destroys calls).Sublist (destroys (s.calls (s.currentThread cpu))))
    (hactivated : activated (s.calls (s.currentThread cpu)) = none) :
    Cr3Inv owner (s.setCalls (s.currentThread cpu) calls) := by
  have hloaded : s.cr3 cpu = owner (s.currentThread cpu) := by
    have hok := h.loaded cpu
    rw [hactivated,hschedule] at hok
    rcases hok with hok | hok
    · exact hok
    · cases hok
  have hpop := h.setCalls hschedule hcalls (Or.inl hloaded)
  rwa [show s.setCr3 cpu (s.cr3 cpu) = s by
    simp only [Cr3State.setCr3,Function.update_eq_self]] at hpop

theorem Cr3Inv.destroyRun (h : Cr3Inv owner s) (hschedule : s.schedule cpu = .none)
    (hrun : Hal9000.destroyRun owner s cpu = some s') : Cr3Inv owner s' := by
  simp only [Hal9000.destroyRun] at hrun
  split at hrun
  · rename_i process enabled calls hcalls
    cases hrun
    apply h.setCalls hschedule
    · rw [hcalls]
      exact List.Sublist.refl _
    · exact Or.inr rfl
  · rename_i process enabled calls hcalls
    cases hrun
    apply h.setCalls hschedule
    · rw [hcalls]
      exact List.Sublist.refl _
    · exact Or.inl rfl
  · rename_i process enabled calls hcalls
    cases hrun
    have hfresh : process ∉ destroys calls := by
      have hnodup := h.nodup (s.currentThread cpu)
      rw [hcalls] at hnodup
      exact (List.nodup_cons.mp hnodup).1
    have hpop : Cr3Inv owner (s.setCalls (s.currentThread cpu) calls) := by
      apply h.popCall hschedule
      · rw [hcalls]
        exact List.sublist_cons_self process (destroys calls)
      · rw [hcalls]
        rfl
    refine hpop.setLife fun t hp => ?_
    by_cases ht : t = s.currentThread cpu
    · subst t
      simp only [Cr3State.setCalls,Function.update_self] at hp
      exact hfresh hp
    · simp only [Cr3State.setCalls,Function.update_of_ne ht] at hp
      refine ht (h.single _ _ process hp ?_)
      rw [hcalls]
      exact List.mem_cons_self
  · rename_i calls hcalls
    cases hrun
    apply h.popCall hschedule
    · rw [hcalls]
      exact List.Sublist.refl _
    · rw [hcalls]
      rfl
  · cases hrun

theorem Cr3Inv.threadScheduleStep (h : Cr3Inv owner s)
    (hstep : Hal9000.threadScheduleStep owner s cpu = some s') : Cr3Inv owner s' := by
  simp only [Hal9000.threadScheduleStep] at hstep
  cases hpc : s.schedule cpu with
  | none =>
    rw [hpc] at hstep
    cases hstep
  | chosen nextThread =>
    rw [hpc] at hstep
    have hnext : ∀ other t,
        (Function.update s.schedule cpu (.spaceChanged nextThread) other).nextThread = some t →
          (s.schedule other).nextThread = some t := by
      intro other t ht
      by_cases hother : other = cpu
      · subst other
        rw [Function.update_self] at ht
        rw [hpc]
        exact ht
      · rwa [Function.update_of_ne hother] at ht
    have hok := h.loaded cpu
    rw [hpc] at hok
    have hloaded : s' = (s.setSchedule cpu (.spaceChanged nextThread)).setCr3 cpu
        (owner nextThread) := by
      simp only at hstep
      split_ifs at hstep with howner
      · cases hstep
        rfl
      · cases hstep
        rw [not_not] at howner
        rw [← howner,← hok.2 howner.symm]
        simp only [Cr3State.setCr3,Cr3State.setSchedule,Function.update_eq_self]
    rw [hloaded]
    refine ⟨h.listed,h.current,fun other t ht => h.next other t (hnext other t ht),h.dying,h.single,
      h.nodup,fun other => ?_⟩
    simp only [Cr3State.setCr3,Cr3State.setSchedule]
    by_cases hother : other = cpu
    · subst other
      rw [Function.update_self,Function.update_self]
      rfl
    · rw [Function.update_of_ne hother,Function.update_of_ne hother]
      exact h.loaded other
  | spaceChanged nextThread =>
    rw [hpc] at hstep
    cases hstep
    obtain ⟨hrunning,hne⟩ := h.next cpu nextThread (by rw [hpc]; rfl)
    have hok := h.loaded cpu
    rw [hpc] at hok
    have hdestroys : ∀ t, destroys (Function.update s.calls (s.currentThread cpu)
        (.threadCleanupPostSchedule :: s.calls (s.currentThread cpu)) t) = destroys (s.calls t) := by
      intro t
      by_cases ht : t = s.currentThread cpu
      · subst t
        rw [Function.update_self]
        rfl
      · rw [Function.update_of_ne ht]
    refine ⟨fun t hlinked => h.listed t ?_,fun other => ?_,fun other t ht => ?_,
      fun t p hp => h.dying t p (hdestroys t ▸ hp),
      fun t t' p hp hp' => h.single t t' p (hdestroys t ▸ hp) (hdestroys t' ▸ hp'),
      fun t => (hdestroys t).symm ▸ h.nodup t,fun other => ?_⟩
    · by_cases ht : t = s.currentThread cpu
      · subst t
        rcases h.current cpu with hcpu | hcpu <;> rw [hcpu] <;> rfl
      · simpa only [Cr3State.setSchedule,Cr3State.setCalls,Cr3State.setThread,
          Cr3State.setCurrentThread,Function.update_of_ne ht] using hlinked
    · simp only [Cr3State.setSchedule,Cr3State.setCalls,Cr3State.setThread,Cr3State.setCurrentThread]
      by_cases hother : other = cpu
      · subst other
        rw [Function.update_self,Function.update_of_ne hne]
        exact Or.inl hrunning
      · have hcurrent : s.currentThread other ≠ s.currentThread cpu :=
          fun heq => hother (h.distinct heq)
        rw [Function.update_of_ne hother,Function.update_of_ne hcurrent]
        exact h.current other
    · simp only [Cr3State.setSchedule,Cr3State.setCalls,Cr3State.setThread,
        Cr3State.setCurrentThread] at ht ⊢
      by_cases hother : other = cpu
      · subst other
        rw [Function.update_self] at ht
        cases ht
      · rw [Function.update_of_ne hother] at ht
        rw [Function.update_of_ne hother,Function.update_of_ne (h.next_ne ht)]
        exact h.next other t ht
    · simp only [Cr3State.setSchedule,Cr3State.setCalls,Cr3State.setThread,Cr3State.setCurrentThread]
      by_cases hother : other = cpu
      · subst other
        rw [Function.update_self,Function.update_self]
        exact Or.inl hok
      · have hcurrent : s.currentThread other ≠ s.currentThread cpu :=
          fun heq => hother (h.distinct heq)
        rw [Function.update_of_ne hother,Function.update_of_ne hother,
          Function.update_of_ne hcurrent]
        exact h.loaded other

omit [DecidableEq Process] in
theorem Cr3Inv.threadSchedule (h : Cr3Inv owner s) {nextThread : Thread}
    (hschedule : s.schedule cpu = .none) (hwaiting : s.thread nextThread = .waiting)
    (hguard : RestoresTables owner s (.threadSchedule cpu nextThread)) :
    Cr3Inv owner ((s.setThread nextThread (.running cpu)).setSchedule cpu (.chosen nextThread)) := by
  have hcurrent : ∀ other, s.currentThread other ≠ nextThread := fun other =>
    h.current_ne (fun c hc => by rw [hwaiting] at hc; cases hc)
      (fun c hc => by rw [hwaiting] at hc; cases hc) other
  have hok := h.loaded cpu
  rw [hschedule] at hok
  refine ⟨fun t hlinked => h.listed t ?_,fun other => ?_,fun other t ht => ?_,h.dying,h.single,
    h.nodup,fun other => ?_⟩
  · by_cases ht : t = nextThread
    · rw [ht,hwaiting]
      rfl
    · simpa only [Cr3State.setSchedule,Cr3State.setThread,Function.update_of_ne ht] using hlinked
  · simpa only [Cr3State.setSchedule,Cr3State.setThread,
      Function.update_of_ne (hcurrent other)] using h.current other
  · simp only [Cr3State.setSchedule,Cr3State.setThread] at ht ⊢
    by_cases hother : other = cpu
    · subst other
      rw [Function.update_self] at ht
      cases ht
      rw [Function.update_self]
      exact ⟨rfl,(hcurrent _).symm⟩
    · rw [Function.update_of_ne hother] at ht
      obtain ⟨hrunning,hne⟩ := h.next other t ht
      have htne : t ≠ nextThread := by
        rintro rfl
        rw [hwaiting] at hrunning
        cases hrunning
      rw [Function.update_of_ne htne]
      exact ⟨hrunning,hne⟩
  · simp only [Cr3State.setSchedule,Cr3State.setThread]
    by_cases hother : other = cpu
    · subst other
      rw [Function.update_self]
      refine ⟨hok,fun howner => ?_⟩
      rcases hok with hok | hok
      · exact hok
      · exact absurd hok (hguard howner)
    · rw [Function.update_of_ne hother]
      exact h.loaded other

omit [DecidableEq Cpu] in
theorem Cr3Inv.mmuDestroyAddressSpaceForProcess (h : Cr3Inv owner s) {process : Process}
    {enabled : Bool} (hmay : mayDestroy (s.calls (s.currentThread cpu)) = true)
    (hlife : s.life process = .live) (hempty : s.threadList process = []) :
    Cr3Inv owner ((s.setCalls (s.currentThread cpu)
      (.activate process enabled :: s.calls (s.currentThread cpu))).setLife process
      .destroying) := by
  have hother : ∀ t, process ∉ destroys (s.calls t) := by
    intro t hp
    rw [(h.dying t process hp).1] at hlife
    cases hlife
  have hprocess : ∀ t p, p ∈ destroys (Function.update s.calls (s.currentThread cpu)
      (.activate process enabled :: s.calls (s.currentThread cpu)) t) →
        t = s.currentThread cpu ∧ p = process ∨ p ≠ process ∧ p ∈ destroys (s.calls t) := by
    intro t p hp
    have hold : p ∈ destroys (s.calls t) → p ≠ process ∧ p ∈ destroys (s.calls t) := by
      intro hold
      refine ⟨?_,hold⟩
      rintro rfl
      exact hother t hold
    by_cases ht : t = s.currentThread cpu
    · subst t
      rw [Function.update_self] at hp
      rcases List.mem_cons.mp hp with rfl | hp
      · exact Or.inl ⟨rfl,rfl⟩
      · exact Or.inr (hold hp)
    · rw [Function.update_of_ne ht] at hp
      exact Or.inr (hold hp)
  refine ⟨h.listed,h.current,h.next,fun t p hp => ?_,fun t t' p hp hp' => ?_,fun t => ?_,
    fun c => ?_⟩
  · simp only [Cr3State.setLife]
    rcases hprocess t p hp with ⟨_,rfl⟩ | ⟨hne,hold⟩
    · rw [Function.update_self]
      exact ⟨rfl,hempty⟩
    · rw [Function.update_of_ne hne]
      exact h.dying t p hold
  · rcases hprocess t p hp with ⟨rfl,rfl⟩ | ⟨hne,hold⟩
    · rcases hprocess t' p hp' with ⟨rfl,_⟩ | ⟨hne,_⟩
      · rfl
      · exact absurd rfl hne
    · rcases hprocess t' p hp' with ⟨_,rfl⟩ | ⟨_,hold'⟩
      · exact absurd rfl hne
      · exact h.single t t' p hold hold'
  · simp only [Cr3State.setLife,Cr3State.setCalls]
    by_cases ht : t = s.currentThread cpu
    · subst t
      rw [Function.update_self]
      exact List.nodup_cons.mpr ⟨hother _,h.nodup _⟩
    · rw [Function.update_of_ne ht]
      exact h.nodup t
  · have hactivated : activated (Function.update s.calls (s.currentThread cpu)
        (.activate process enabled :: s.calls (s.currentThread cpu)) (s.currentThread c)) =
        activated (s.calls (s.currentThread c)) := by
      by_cases hc : s.currentThread c = s.currentThread cpu
      · rw [hc,Function.update_self]
        revert hmay
        generalize s.calls (s.currentThread cpu) = calls
        cases calls with
        | nil => exact fun _ => rfl
        | cons pc calls => cases pc <;> simp [mayDestroy,activated]
      · rw [Function.update_of_ne hc]
    simp only [Cr3State.setLife,Cr3State.setCalls,hactivated]
    exact h.loaded c

theorem Cr3Inv.step (h : Cr3Inv owner s) {action : Cr3Action Cpu Thread Process}
    (hguard : RestoresTables owner s action)
    (hstep : cr3Step owner systemProcess s action = some s') : Cr3Inv owner s' := by
  cases action with
  | processCreate process =>
    simp only [cr3Step] at hstep
    split at hstep
    · rename_i hlife
      cases hstep
      refine h.setLife fun t hp => ?_
      rw [(h.dying t process hp).1] at hlife
      cases hlife
    · cases hstep
  | threadCreate t =>
    simp only [cr3Step] at hstep
    split at hstep
    · rename_i hthread hlife
      cases hstep
      refine h.setThread (fun c hc => ?_) (fun c hc => ?_)
        (fun t' ht' _ => List.mem_cons_of_mem t ht') (fun _ => List.mem_cons_self) (fun hdying _ => ?_)
      · rw [hthread] at hc
        cases hc
      · rw [hthread] at hc
        cases hc
      · rw [hlife] at hdying
        cases hdying
    · cases hstep
  | threadExit cpu =>
    simp only [cr3Step] at hstep
    split at hstep
    · rename_i hschedule _
      cases hstep
      have hlinked : (s.thread (s.currentThread cpu)).isLinked = true := by
        rcases h.current cpu with hcpu | hcpu <;> rw [hcpu] <;> rfl
      refine ⟨fun t ht => h.listed t ?_,fun other => ?_,fun other t ht => ?_,h.dying,h.single,
        h.nodup,h.loaded⟩
      · by_cases hcurrent : t = s.currentThread cpu
        · rwa [hcurrent]
        · simpa only [Cr3State.setThread,Function.update_of_ne hcurrent] using ht
      · simp only [Cr3State.setThread]
        by_cases hother : other = cpu
        · subst other
          rw [Function.update_self]
          exact Or.inr rfl
        · have hne : s.currentThread other ≠ s.currentThread cpu :=
            fun heq => hother (h.distinct heq)
          rw [Function.update_of_ne hne]
          exact h.current other
      · simp only [Cr3State.setThread] at ht ⊢
        rw [Function.update_of_ne (h.next_ne ht)]
        exact h.next other t ht
    · cases hstep
  | threadDestroy t =>
    simp only [cr3Step] at hstep
    split at hstep
    · rename_i hthread
      cases hstep
      refine h.setThread (fun c hc => ?_) (fun c hc => ?_)
        (fun t' ht' hne => (List.mem_erase_of_ne hne).mpr ht') nofun (fun _ hempty => ?_)
      · rw [hthread] at hc
        cases hc
      · rw [hthread] at hc
        cases hc
      · rw [hempty]
        rfl
    · cases hstep
  | threadSchedule cpu nextThread =>
    simp only [cr3Step] at hstep
    split at hstep
    · rename_i hschedule _ hwaiting
      cases hstep
      exact h.threadSchedule hschedule hwaiting hguard
    · cases hstep
  | scheduleStep cpu => exact h.threadScheduleStep hstep
  | mmuDestroyAddressSpaceForProcess cpu process enabled =>
    simp only [cr3Step] at hstep
    split at hstep
    · rename_i _ _ hmay hlife
      obtain ⟨_,_,hstep⟩ := Option.bind_eq_some_iff.mp hstep
      obtain ⟨_,hempty,hstep⟩ := Option.bind_eq_some_iff.mp hstep
      cases hstep
      exact h.mmuDestroyAddressSpaceForProcess hmay hlife
        (List.isEmpty_iff.mp (assert_eq_some.mp hempty))
    · cases hstep
  | run cpu =>
    simp only [cr3Step] at hstep
    split at hstep
    · rename_i hschedule _
      exact h.destroyRun hschedule hstep
    · cases hstep

omit [DecidableEq Cpu] [DecidableEq Thread] [DecidableEq Process] in
theorem Cr3Inv.init (h : Cr3State.Initial owner s) : Cr3Inv owner s := by
  have hnone : ∀ t, destroys (s.calls t) = [] := by
    intro t
    rcases h.calls t with ht | ht <;> rw [ht] <;> rfl
  refine ⟨h.listed,fun cpu => Or.inl (h.running cpu),fun cpu t ht => ?_,fun t p hp => ?_,
    fun t t' p hp => ?_,fun t => ?_,fun cpu => ?_⟩
  · rw [h.schedule cpu] at ht
    cases ht
  · rw [hnone t] at hp
    cases hp
  · rw [hnone t] at hp
    cases hp
  · rw [hnone t]
    exact List.nodup_nil
  · rw [h.schedule cpu]
    exact Or.inl (h.cr3 cpu)

theorem Cr3Inv.of_reachable
    (h : (cr3System owner systemProcess).ReachableUnder (RestoresTables owner) s) :
    Cr3Inv owner s :=
  h.invariant (fun _ hinit => .init hinit) fun _ _ _ _ hinv hguard hstep => hinv.step hguard hstep

private theorem exists_of_activated {Process : Type} {process : Process}
    {calls : List (Cr3Call Process)} (h : activated calls = some process) :
    ∃ enabled later, calls = .restore process enabled :: later := by
  unfold activated at h
  split at h
  · cases h
    exact ⟨_,_,rfl⟩
  · cases h

omit [DecidableEq Cpu] [DecidableEq Thread] [DecidableEq Process] in
/-- No CPU has the tables loaded that are being destroyed: none of the process's threads is left,
and only the destroying thread loads them. -/
theorem Cr3Inv.destroyed_not_loaded (h : Cr3Inv owner s) {t : Thread} {process : Process}
    {enabled : Bool} (hpc : .destroyTables process enabled ∈ s.calls t) (cpu : Cpu) :
    s.cr3 cpu ≠ process := by
  intro hloaded
  have hprocess : process ∈ destroys (s.calls t) := List.mem_filterMap.mpr ⟨_,hpc,rfl⟩
  have hempty := (h.dying t process hprocess).2
  have hunowned : ∀ t', (s.thread t').isLinked = true → owner t' ≠ process := by
    intro t' hlinked howner
    have hmem := h.listed t' hlinked
    rw [howner,hempty] at hmem
    cases hmem
  have hcurrent : owner (s.currentThread cpu) ≠ process :=
    hunowned _ (by rcases h.current cpu with hcpu | hcpu <;> rw [hcpu] <;> rfl)
  have hactivated : activated (s.calls (s.currentThread cpu)) ≠ some process := by
    intro hactivated
    obtain ⟨enabled',calls,hcalls⟩ := exists_of_activated hactivated
    have hsame : s.currentThread cpu = t := by
      refine h.single _ t process ?_ hprocess
      rw [hcalls]
      exact List.mem_cons_self
    rw [hsame] at hcalls
    have hnodup := h.nodup t
    rw [hcalls] at hnodup hpc
    rcases List.mem_cons.mp hpc with heq | hlater
    · cases heq
    · exact (List.nodup_cons.mp hnodup).1 (List.mem_filterMap.mpr ⟨_,hlater,rfl⟩)
  have hok := h.loaded cpu
  rw [hloaded] at hok
  cases hschedule : s.schedule cpu with
  | none =>
    rw [hschedule] at hok
    rcases hok with howner | hok
    · exact hcurrent howner.symm
    · exact hactivated hok
  | chosen nextThread =>
    rw [hschedule] at hok
    rcases hok.1 with howner | hok
    · exact hcurrent howner.symm
    · exact hactivated hok
  | spaceChanged nextThread =>
    rw [hschedule] at hok
    refine hunowned nextThread ?_ hok.symm
    rw [(h.next cpu nextThread (by rw [hschedule]; rfl)).1]
    rfl

/-- In every run in which no thread is preempted by one of its process while its CPU has dying
tables loaded, tables are destroyed when no CPU has them loaded, and threads run on the tables of
their process. -/
theorem own_tables_loaded
    (h : (cr3System owner systemProcess).ReachableUnder (RestoresTables owner) s) :
    (∀ t process enabled, .destroyTables process enabled ∈ s.calls t →
      ∀ cpu, s.cr3 cpu ≠ process) ∧
    ∀ cpu, s.schedule cpu = .none → activated (s.calls (s.currentThread cpu)) = none →
      s.cr3 cpu = owner (s.currentThread cpu) := by
  have hinv := Cr3Inv.of_reachable h
  refine ⟨fun t process enabled hpc => hinv.destroyed_not_loaded hpc,fun cpu hschedule hpc => ?_⟩
  have hok := hinv.loaded cpu
  rw [hschedule,hpc] at hok
  rcases hok with hok | hok
  · exact hok
  · cases hok

theorem preempted_on_dying_tables
    (h : (cr3System owner systemProcess).ReachableUnder (RestoresTables owner) s)
    {process : Process} {nextThread : Thread} {calls : List (Cr3Call Process)}
    (hschedule : s.schedule cpu = .none)
    (hpc : s.calls (s.currentThread cpu) = .restore process true :: calls) (hloaded : s.cr3 cpu = process)
    (hwaiting : s.thread nextThread = .waiting)
    (howner : owner nextThread = owner (s.currentThread cpu)) :
    ∃ s', (cr3System owner systemProcess).run s
        [.threadSchedule cpu nextThread,.scheduleStep cpu,.scheduleStep cpu] = some s' ∧
      s'.schedule cpu = .none ∧ s'.currentThread cpu = nextThread ∧
      s'.cr3 cpu = process ∧ process ≠ owner nextThread := by
  have hinv := Cr3Inv.of_reachable h
  have hunowned : process ≠ owner nextThread := by
    intro heq
    have hmem := hinv.listed nextThread (by rw [hwaiting]; rfl)
    rw [← heq,(hinv.dying _ process (by rw [hpc]; exact List.mem_cons_self)).2] at hmem
    cases hmem
  let s₁ := (s.setThread nextThread (.running cpu)).setSchedule cpu (.chosen nextThread)
  let s₂ := s₁.setSchedule cpu (.spaceChanged nextThread)
  let s₃ := (((s₂.setCurrentThread cpu nextThread).setThread (s.currentThread cpu)
    (s₂.thread (s.currentThread cpu)).switchedOff).setCalls (s.currentThread cpu)
    (.threadCleanupPostSchedule :: s.calls (s.currentThread cpu))).setSchedule cpu .none
  have hchoose : cr3Step owner systemProcess s (.threadSchedule cpu nextThread) = some s₁ := by
    have hmay : s.mayBeSwitched cpu = true := by
      unfold Cr3State.mayBeSwitched
      split
      · rfl
      · rw [hpc]
        rfl
    simp only [cr3Step,hschedule,hmay,hwaiting,s₁]
  have hkeep : cr3Step owner systemProcess s₁ (.scheduleStep cpu) = some s₂ := by
    have hchosen : s₁.schedule cpu = .chosen nextThread := Function.update_self _ _ _
    simp only [cr3Step,threadScheduleStep,hchosen]
    exact if_neg (not_not.mpr howner.symm)
  have hswitch : cr3Step owner systemProcess s₂ (.scheduleStep cpu) = some s₃ := by
    have hchanged : s₂.schedule cpu = .spaceChanged nextThread := Function.update_self _ _ _
    simp only [cr3Step,threadScheduleStep,hchanged]
    rfl
  refine ⟨s₃,?_,Function.update_self _ _ _,Function.update_self _ _ _,hloaded,hunowned⟩
  simp only [TransitionSystem.run,cr3System,hchoose,hkeep,hswitch,Option.bind_some]

end Cr3

/-- Thread 3 is in process 1, the others in the system process; processes 2 and 3 have no threads. -/
def fourThreads : Fin 4 → Fin 4
  | 3 => 1
  | _ => 0

/-- CPUs 0 and 1 run threads 0 and 1. -/
def twoCpuTables : Cr3State (Fin 2) (Fin 4) (Fin 4) where
  cr3 _ := 0
  currentThread := fun | 0 => 0 | 1 => 1
  schedule _ := .none
  thread := fun | 0 => .running 0 | 1 => .running 1 | _ => .waiting
  calls _ := []
  threadList := fun | 0 => [0,1,2] | 1 => [3] | _ => []
  life _ := .live

theorem twoCpuTables_initial : Cr3State.Initial fourThreads twoCpuTables := by
  refine ⟨?_,?_,fun _ => rfl,fun _ => Or.inl rfl,?_⟩ <;> decide

/-- Thread 0 is preempted by a thread of another process and goes on on the other CPU, where it
destroys process 3 behind the switch and then the tables of process 2. -/
theorem own_tables_loaded_two : ∃ s : Cr3State (Fin 2) (Fin 4) (Fin 4),
    (cr3System fourThreads 0).ReachableUnder (RestoresTables fourThreads) s ∧
    .destroyTables 2 true ∈ s.calls 0 ∧ s.life 3 = .destroyed ∧ s.currentThread 1 = 0 ∧
      ∀ cpu, s.cr3 cpu ≠ 2 := by
  obtain ⟨s,hreach,hs⟩ := TransitionSystem.exists_reachable (cr3System fourThreads 0)
    (RestoresTables fourThreads) twoCpuTables twoCpuTables_initial
    [.mmuDestroyAddressSpaceForProcess 0 2 true,.run 0,.threadSchedule 0 3,.scheduleStep 0,
      .scheduleStep 0,.threadSchedule 1 0,.scheduleStep 1,.scheduleStep 1,
      .mmuDestroyAddressSpaceForProcess 1 3 false,.run 1,.run 1,.run 1,.run 1,.run 1]
    (fun s => decide (.destroyTables 2 true ∈ s.calls 0 ∧ s.life 3 = .destroyed ∧
      s.currentThread 1 = 0)) (by decide +kernel) (by decide +kernel)
  obtain ⟨hpc,hlife,hcurrent⟩ := of_decide_eq_true hs
  exact ⟨s,hreach,hpc,hlife,hcurrent,(own_tables_loaded hreach).1 0 2 true hpc⟩

/-- Thread 0 is preempted by thread 2 of its process, which runs on the tables of process 2; thread
0 goes on on CPU 1 and releases them. -/
theorem dying_tables_left_loaded : ∃ s : Cr3State (Fin 2) (Fin 4) (Fin 4),
    (cr3System fourThreads 0).Reachable s ∧ .destroyTables 2 true ∈ s.calls 0 ∧ s.cr3 0 = 2 ∧
      s.schedule 0 = .none ∧ s.calls (s.currentThread 0) = [] ∧
      s.cr3 0 ≠ fourThreads (s.currentThread 0) := by
  obtain ⟨s,hreach,hs⟩ := TransitionSystem.exists_reachable (cr3System fourThreads 0)
    (fun _ _ => True) twoCpuTables twoCpuTables_initial
    [.mmuDestroyAddressSpaceForProcess 0 2 true,.run 0,.threadSchedule 0 2,.scheduleStep 0,
      .scheduleStep 0,.threadSchedule 1 0,.scheduleStep 1,.scheduleStep 1,.run 1,.run 1]
    (fun s => decide (.destroyTables 2 true ∈ s.calls 0 ∧ s.cr3 0 = 2 ∧ s.schedule 0 = .none ∧
      s.calls (s.currentThread 0) = [] ∧ s.cr3 0 ≠ fourThreads (s.currentThread 0)))
    (TransitionSystem.runSatisfies_of_forall (fun _ _ => trivial) _ _) (by decide +kernel)
  exact ⟨s,hreach,of_decide_eq_true hs⟩

end Hal9000
