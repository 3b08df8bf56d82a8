import Hal9000.Framework.Counting
import Hal9000.Process.Destruction

/-!
# The termination of a process

`ThreadExit` counts the thread out, and whoever counts out the last thread keeps its exit status for
the process and signals the termination event. Between these steps any other thread may run, and so
may those that wait for the process.
-/

namespace Hal9000

/-- `ProcessNotifyThreadTermination`. -/
inductive NotifyPc
  | unnotified
  | setTerminationStatus
  | signalTerminationEvt
  | notified
  deriving DecidableEq

/-- `ProcessWaitForTermination`. -/
inductive WaiterPc
  | waitForSignal
  | readTerminationStatus
  | returned (terminationStatus : Nat)
  deriving DecidableEq

structure TerminationState (Thread Waiter : Type) where
  lifetime : LifetimeState Thread
  exitStatus : Thread → Nat
  notify : Thread → NotifyPc
  terminationStatus : Nat
  terminationEvt : Bool
  waiter : Waiter → WaiterPc

inductive TerminationAction (Thread Waiter : Type)
  | lifetime (action : LifetimeAction Thread)
  | threadExit (t : Thread) (exitStatus : Nat)
  | runNotify (t : Thread)
  | runWaiter (w : Waiter)

section Termination

variable {Thread Waiter : Type} [DecidableEq Thread] [DecidableEq Waiter]

/-- A thread is cleaned up only behind `ThreadExit`, whose steps are the ones below. -/
def TerminationState.mayRun (s : TerminationState Thread Waiter) : LifetimeAction Thread → Bool
  | .exit _ => false
  | .cleanup t => decide (s.notify t = .notified)
  | _ => true

def terminationStep (s : TerminationState Thread Waiter) :
    TerminationAction Thread Waiter → Option (TerminationState Thread Waiter)
  | .lifetime action =>
    if s.mayRun action then
      (lifetimeStep s.lifetime action).map fun lifetime => { s with lifetime }
    else none
  | .threadExit t exitStatus =>
    (lifetimeStep s.lifetime (.exit t)).map fun lifetime => { s with
      lifetime
      exitStatus := Function.update s.exitStatus t exitStatus
      notify := Function.update s.notify t
        (if lifetime.activeThreads = 0 then .setTerminationStatus else .notified) }
  | .runNotify t =>
    match s.notify t with
    | .setTerminationStatus => some { s with
        terminationStatus := s.exitStatus t
        notify := Function.update s.notify t .signalTerminationEvt }
    | .signalTerminationEvt => some { s with
        terminationEvt := true
        notify := Function.update s.notify t .notified }
    | .unnotified | .notified => none
  | .runWaiter w =>
    match s.waiter w with
    | .waitForSignal =>
      -- nobody clears the event
      if s.terminationEvt then
        some { s with waiter := Function.update s.waiter w .readTerminationStatus }
      else none
    | .readTerminationStatus =>
      some { s with waiter := Function.update s.waiter w (.returned s.terminationStatus) }
    | .returned _ => none

variable (Thread Waiter) in
def terminationSystem : TransitionSystem (TerminationState Thread Waiter)
    (TerminationAction Thread Waiter) where
  init s := s = ⟨newProcess,fun _ => 0,fun _ => .unnotified,0,false,fun _ => .waitForSignal⟩
  step := terminationStep

/-- The threads that have counted themselves out, with their exit statuses. -/
def threadExits (_ : TerminationState Thread Waiter) :
    TerminationAction Thread Waiter → List (Thread × Nat)
  | .threadExit t exitStatus => [(t,exitStatus)]
  | _ => []

/-- The process object lives until `ProcessCreate` has taken its reference. -/
def KeepsProcess (s : TerminationState Thread Waiter) : TerminationAction Thread Waiter → Prop
  | .lifetime action => KeepsUntilReferenced s.lifetime action
  | .threadExit t _ => KeepsUntilReferenced s.lifetime (.exit t)
  | .runNotify _ | .runWaiter _ => True

inductive ThreadPhase
  | absent
  | active
  | exited
  deriving DecidableEq

def ThreadPc.phase : ThreadPc Thread → ThreadPhase
  | .unused => .absent
  | .inserting | .suspended | .live | .creating _ => .active
  | .exited | .released | .remove | .removeDereference _ | .removeLast _ | .removed _ => .exited

def LifetimeState.phase (s : LifetimeState Thread) (t : Thread) : ThreadPhase := (s.pc t).phase

/-- What a step does to the threads that are counted. -/
inductive ActiveEffect (s : LifetimeState Thread) (action : LifetimeAction Thread)
    (s' : LifetimeState Thread) : Prop
  | same (hcount : s'.activeThreads = s.activeThreads) (hphase : s'.phase = s.phase)
  | start (t : Thread) (ht : s.phase t = .absent)
      (hcaller : (∀ u, s.phase u = .absent) ∨ ∃ c, s.phase c = .active)
      (hcount : s'.activeThreads = s.activeThreads + 1)
      (hphase : s'.phase = Function.update s.phase t .active)
  | exit (t : Thread) (haction : action = .exit t) (ht : s.phase t = .active)
      (hcount : s'.activeThreads = s.activeThreads - 1)
      (hphase : s'.phase = Function.update s.phase t .exited)

variable {s s' : LifetimeState Thread} {t : Thread}

theorem phase_setPc (pc : ThreadPc Thread) :
    (s.setPc t pc).phase = Function.update s.phase t pc.phase := by
  funext u
  by_cases hu : u = t
  · simp [LifetimeState.phase,LifetimeState.setPc,hu]
  · simp [LifetimeState.phase,LifetimeState.setPc,hu]

theorem phase_setPc_same {pc : ThreadPc Thread} (h : pc.phase = s.phase t) :
    (s.setPc t pc).phase = s.phase := by
  rw [phase_setPc,h,Function.update_eq_self]

theorem ActiveEffect.setPc {action : LifetimeAction Thread} (s₁ : LifetimeState Thread)
    (pc : ThreadPc Thread) (hcount : s₁.activeThreads = s.activeThreads) (hpcs : s₁.pc = s.pc)
    (hpc : pc.phase = s.phase t) : ActiveEffect s action (s₁.setPc t pc) := by
  have hphase : s₁.phase = s.phase := by
    funext u
    rw [LifetimeState.phase,LifetimeState.phase,hpcs]
  refine .same hcount ?_
  rw [phase_setPc_same (by rw [hphase,hpc]),hphase]

theorem phase_threadDereference (pc : ThreadPc Thread) (hpc : pc.phase = s.phase t)
    (hlast : s.threadRefCnt t = 1 → s.phase t = .exited) :
    (threadDereference s t pc).phase = s.phase := by
  apply (phase_setPc (s := { s with
    threadRefCnt := Function.update s.threadRefCnt t (s.threadRefCnt t - 1) }) _).trans
  change Function.update s.phase t _ = s.phase
  by_cases hone : s.threadRefCnt t = 1
  · rw [if_pos hone]
    change Function.update s.phase t .exited = s.phase
    rw [← hlast hone,Function.update_eq_self]
  · rw [if_neg hone,hpc,Function.update_eq_self]

theorem LifetimeInv.exited_of_last (h : LifetimeInv s) (hhandles : 0 < s.handles t)
    (hone : s.threadRefCnt t = 1) : s.phase t = .exited := by
  have hmay := h.threads.handles t hhandles
  have hrefs := h.threads.references t
  rw [hone] at hrefs
  cases hpc : s.pc t <;> rw [hpc] at hrefs hmay <;>
    simp only [ThreadPc.references,ThreadPc.mayBeOpen,reduceCtorEq] at hrefs hmay <;>
    first | omega | simp [LifetimeState.phase,hpc,ThreadPc.phase]

omit [DecidableEq Thread] in
theorem phase_of_pc {pc : ThreadPc Thread} {phase : ThreadPhase} (hpc : s.pc t = pc)
    (hphase : phase = pc.phase) : phase = s.phase t := by
  rw [LifetimeState.phase,hpc,hphase]

theorem active_of_mayExit (h : s.mayExit t = true) : s.phase t = .active := by
  rw [LifetimeState.mayExit] at h
  cases hpc : s.pc t <;> simp_all [LifetimeState.phase,ThreadPc.phase]

theorem lifetimeStep_exit (hstep : lifetimeStep s (.exit t) = some s') :
    s.phase t = .active ∧ s'.activeThreads = s.activeThreads - 1 ∧
      s'.phase = Function.update s.phase t .exited := by
  simp only [lifetimeStep] at hstep
  split_ifs at hstep with ht
  obtain rfl := Option.some.inj hstep
  exact ⟨active_of_mayExit ht,rfl,phase_setPc _⟩

private theorem LifetimeInv.insertThread_effect (h : LifetimeInv s) {caller : Caller Thread}
    (hstep : lifetimeStep s (.insertThread caller t) = some s') :
    ActiveEffect s (.insertThread caller t) s' := by
  simp only [lifetimeStep] at hstep
  rw [ite_eq_iff] at hstep
  obtain ⟨_,hstep⟩ | ⟨hblocked,hstep⟩ := hstep
  · cases hstep
  have ht : s.pc t = .unused := by simpa using (not_or.mp hblocked).2
  have habsent : ThreadPhase.absent = s.phase t := phase_of_pc ht rfl
  cases caller with
  | umApplicationRun =>
    change (if s.creator = .createThread then _ else none) = some s' at hstep
    split_ifs at hstep with hc
    have hunused := h.threads.creator
    rw [hc] at hunused
    obtain ⟨_,_,hstep⟩ := Option.bind_eq_some_iff.mp hstep
    obtain ⟨_,_,hstep⟩ := Option.bind_eq_some_iff.mp hstep
    obtain rfl := Option.some.inj hstep
    apply ActiveEffect.start t habsent.symm
    · exact Or.inl fun u => (phase_of_pc (hunused u) rfl).symm
    · rfl
    · exact phase_setPc _
  | thread c =>
    change (if s.pc c = .live then _ else none) = some s' at hstep
    split_ifs at hstep with hc
    have hactive : ThreadPhase.active = s.phase c := phase_of_pc hc rfl
    obtain ⟨_,_,hstep⟩ := Option.bind_eq_some_iff.mp hstep
    obtain ⟨_,_,hstep⟩ := Option.bind_eq_some_iff.mp hstep
    obtain rfl := Option.some.inj hstep
    apply ActiveEffect.start t habsent.symm (Or.inr ⟨c,hactive.symm⟩)
    · rfl
    · apply (phase_setPc _).trans
      congr 1
      exact phase_setPc_same hactive

private theorem finishCreate_effect {caller : Caller Thread} {isEntryPoint succeeded : Bool}
    (hstep : lifetimeStep s (.finishCreate caller isEntryPoint succeeded) = some s') :
    ActiveEffect s (.finishCreate caller isEntryPoint succeeded) s' := by
  cases caller with
  | umApplicationRun =>
    cases hc : s.creator <;> simp only [lifetimeStep,hc,reduceCtorEq] at hstep
    obtain ⟨_,hassert,hstep⟩ := Option.bind_eq_some_iff.mp hstep
    obtain ⟨_,_,hs⟩ := Option.bind_eq_some_iff.mp hstep
    simp only [assert_eq_some,Bool.and_eq_true,decide_eq_true_eq] at hassert
    cases succeeded with
    | false =>
      obtain rfl := Option.some.inj hs
      exact .same rfl rfl
    | true =>
      obtain rfl := Option.some.inj hs
      rw [if_pos rfl]
      exact ActiveEffect.setPc _ _ rfl rfl (phase_of_pc hassert.2 rfl)
  | thread c =>
    cases hc : s.pc c <;> simp only [lifetimeStep,hc,reduceCtorEq] at hstep
    rename_i t
    obtain ⟨_,hassert,hstep⟩ := Option.bind_eq_some_iff.mp hstep
    obtain ⟨_,_,hs⟩ := Option.bind_eq_some_iff.mp hstep
    simp only [assert_eq_some,decide_eq_true_eq] at hassert
    have hcreating : ThreadPhase.active = s.phase c := phase_of_pc hc rfl
    cases succeeded with
    | false =>
      obtain rfl := Option.some.inj hs
      exact .setPc s .live rfl rfl hcreating
    | true =>
      obtain rfl := Option.some.inj hs
      rw [if_pos rfl]
      apply ActiveEffect.same
      · rfl
      · rw [phase_setPc,phase_setPc]
        change Function.update (Function.update s.phase t .active) c .active = s.phase
        have hsuspended : ThreadPhase.active = s.phase t := phase_of_pc hassert rfl
        rw [hsuspended,Function.update_eq_self,← hsuspended,hcreating,Function.update_eq_self]

theorem LifetimeInv.phase_effect (h : LifetimeInv s) {action : LifetimeAction Thread}
    (hstep : lifetimeStep s action = some s') : ActiveEffect s action s' := by
  cases action with
  | prepare succeeded =>
    obtain ⟨next,hnext,hs⟩ := Option.bind_eq_some_iff.mp hstep
    obtain rfl := Option.some.inj hs
    exact .same rfl rfl
  | insertThread caller t => exact h.insertThread_effect hstep
  | insertReference t =>
    simp only [lifetimeStep] at hstep
    split_ifs at hstep with ht
    obtain rfl := Option.some.inj hstep
    exact ActiveEffect.setPc _ _ rfl rfl (phase_of_pc ht rfl)
  | finishCreate caller isEntryPoint succeeded => exact finishCreate_effect hstep
  | exit t =>
    obtain ⟨ht,hcount,hphase⟩ := lifetimeStep_exit hstep
    exact .exit t rfl ht hcount hphase
  | cleanup t =>
    simp only [lifetimeStep] at hstep
    split_ifs at hstep with ht
    obtain rfl := Option.some.inj hstep
    have hexited : ThreadPhase.exited = s.phase t := phase_of_pc ht rfl
    exact .same rfl (phase_threadDereference _ hexited fun _ => hexited.symm)
  | threadCloseHandle t =>
    simp only [lifetimeStep] at hstep
    split_ifs at hstep with hopen
    obtain rfl := Option.some.inj hstep
    apply ActiveEffect.same
    · rfl
    apply phase_threadDereference (s := { s with
      handleOpen := Function.update s.handleOpen t false })
    · rfl
    · exact h.exited_of_last (by simp [LifetimeState.handles,hopen])
  | removeCount t =>
    simp only [lifetimeStep] at hstep
    split_ifs at hstep with hcond
    obtain rfl := Option.some.inj hstep
    exact ActiveEffect.setPc _ _ rfl rfl (phase_of_pc hcond.1 rfl)
  | removeDereference t =>
    cases hpc : s.pc t <;> simp only [lifetimeStep,hpc,reduceCtorEq] at hstep
    obtain rfl := Option.some.inj hstep
    exact ActiveEffect.setPc _ _ rfl rfl (phase_of_pc hpc rfl)
  | removeLast t =>
    cases hpc : s.pc t <;> simp only [lifetimeStep,hpc,reduceCtorEq] at hstep
    rename_i remaining
    obtain rfl := Option.some.inj hstep
    have hexited : (ThreadPc.removed remaining : ThreadPc Thread).phase = s.phase t :=
      phase_of_pc hpc rfl
    split
    · exact .setPc (processDereference s) _ rfl rfl hexited
    · exact .setPc s _ rfl rfl hexited
  | closeThread =>
    cases hc : s.creator <;> simp only [lifetimeStep,hc,reduceCtorEq] at hstep
    rename_i t
    obtain rfl := Option.some.inj hstep
    apply ActiveEffect.same
    · rfl
    apply phase_threadDereference (s := { s with
      creator := if s.threadRefCnt t = 1 then .destroyThread t else .referenceProcess })
    · rfl
    · exact h.exited_of_last (by simp [LifetimeState.handles,hc,CreatorPc.handles])
  | threadDestroyed =>
    cases hc : s.creator <;> simp only [lifetimeStep,hc,reduceCtorEq] at hstep
    split at hstep
    · obtain rfl := Option.some.inj hstep
      exact .same rfl rfl
    · cases hstep
  | referenceProcess | dereferenceProcess | processCloseHandle =>
    simp only [lifetimeStep] at hstep
    split_ifs at hstep with hc
    obtain rfl := Option.some.inj hstep
    exact .same rfl rfl

/-- What the last thread has got to. -/
inductive LastStage (s : TerminationState Thread Waiter) (t : Thread) (exitStatus : Nat) : Prop
  | counted (hnotify : s.notify t = .setTerminationStatus) (hclear : s.terminationEvt = false)
  | statusSet (hnotify : s.notify t = .signalTerminationEvt) (hclear : s.terminationEvt = false)
      (hstatus : s.terminationStatus = exitStatus)
  | signaled (hnotify : s.notify t = .notified) (hevt : s.terminationEvt = true)
      (hstatus : s.terminationStatus = exitStatus)

def NotifyPc.isPending : NotifyPc → Bool
  | .setTerminationStatus | .signalTerminationEvt => true
  | .unnotified | .notified => false

structure TerminationInv (s : TerminationState Thread Waiter) (exits : List (Thread × Nat)) :
    Prop where
  lifetime : LifetimeInv s.lifetime
  active : Counts s.lifetime.activeThreads fun t => s.lifetime.phase t = .active
  exited : ∀ t, t ∈ exits.map Prod.fst ↔ s.lifetime.phase t = .exited
  nodup : (exits.map Prod.fst).Nodup
  status : ∀ t exitStatus, (t,exitStatus) ∈ exits → s.exitStatus t = exitStatus
  last : ∀ t exitStatus, s.lifetime.activeThreads = 0 → exits.getLast? = some (t,exitStatus) →
    LastStage s t exitStatus
  pending : ∀ t, (s.notify t).isPending = true →
    s.lifetime.activeThreads = 0 ∧ exits.getLast? = some (t,s.exitStatus t)
  early : s.lifetime.activeThreads ≠ 0 ∨ exits = [] → s.terminationEvt = false
  waiter : ∀ w, s.waiter w = .waitForSignal ∨ s.terminationEvt = true ∧
    (s.waiter w = .readTerminationStatus ∨ s.waiter w = .returned s.terminationStatus)

omit [DecidableEq Thread] [DecidableEq Waiter] in
theorem LastStage.stage_eq {s s' : TerminationState Thread Waiter} {exitStatus : Nat}
    (h : LastStage s t exitStatus) (hnotify : s'.notify = s.notify)
    (hevt : s'.terminationEvt = s.terminationEvt)
    (hstatus : s'.terminationStatus = s.terminationStatus) : LastStage s' t exitStatus := by
  cases h with
  | counted hstage hclear => exact .counted (hnotify ▸ hstage) (hevt ▸ hclear)
  | statusSet hstage hclear heq =>
    exact .statusSet (hnotify ▸ hstage) (hevt ▸ hclear) (hstatus ▸ heq)
  | signaled hstage hset heq => exact .signaled (hnotify ▸ hstage) (hevt ▸ hset) (hstatus ▸ heq)

section Steps

variable {s : TerminationState Thread Waiter} {exits : List (Thread × Nat)}

omit [DecidableEq Waiter] in
theorem TerminationInv.quiet (h : TerminationInv s exits) (hactive : s.lifetime.phase t = .active) :
    s.lifetime.activeThreads ≠ 0 ∧ s.terminationEvt = false ∧
      ∀ u, (s.notify u).isPending = false := by
  have hpos := h.active.pos hactive
  refine ⟨by omega,h.early (Or.inl (by omega)),?_⟩
  intro u
  rw [Bool.eq_false_iff]
  intro hpending
  have hzero := (h.pending u hpending).1
  omega

omit [DecidableEq Waiter] in
theorem TerminationInv.start (h : TerminationInv s exits) {lifetime : LifetimeState Thread}
    (hinv : LifetimeInv lifetime) (ht : s.lifetime.phase t = .absent)
    (hcaller : (∀ u, s.lifetime.phase u = .absent) ∨ ∃ c, s.lifetime.phase c = .active)
    (hcount : lifetime.activeThreads = s.lifetime.activeThreads + 1)
    (hphase : lifetime.phase = Function.update s.lifetime.phase t .active) :
    TerminationInv { s with lifetime } exits := by
  have hclear : s.terminationEvt = false ∧ ∀ u, (s.notify u).isPending = false := by
    rcases hcaller with habsent | ⟨c,hc⟩
    · have hnil : exits = [] := by
        apply List.eq_nil_iff_forall_not_mem.mpr
        intro e he
        have hexited := (h.exited e.1).mp (List.mem_map_of_mem he)
        rw [habsent] at hexited
        cases hexited
      refine ⟨h.early (Or.inr hnil),?_⟩
      intro u
      rw [Bool.eq_false_iff]
      intro hpending
      have hlast := (h.pending u hpending).2
      simp [hnil] at hlast
    · exact (h.quiet hc).2
  refine ⟨hinv,?_,?_,h.nodup,h.status,?_,?_,fun _ => hclear.1,h.waiter⟩
  · change Counts lifetime.activeThreads fun t => lifetime.phase t = .active
    rw [hcount,hphase]
    apply h.active.add (m := t)
    · simp [ht]
    · simp
    · intro u hu
      simp [Function.update_of_ne hu]
  · intro u
    change _ ↔ lifetime.phase u = .exited
    rw [h.exited,hphase]
    by_cases hu : u = t
    · simp [hu,ht]
    · rw [Function.update_of_ne hu]
  · intro u exitStatus hzero
    change lifetime.activeThreads = 0 at hzero
    omega
  · intro u hpending
    have hnot := hclear.2 u
    rw [hpending] at hnot
    cases hnot

omit [DecidableEq Waiter] in
theorem TerminationInv.exit (h : TerminationInv s exits) {lifetime : LifetimeState Thread}
    (exitStatus : Nat) (hinv : LifetimeInv lifetime) (ht : s.lifetime.phase t = .active)
    (hcount : lifetime.activeThreads = s.lifetime.activeThreads - 1)
    (hphase : lifetime.phase = Function.update s.lifetime.phase t .exited) :
    TerminationInv { s with
      lifetime
      exitStatus := Function.update s.exitStatus t exitStatus
      notify := Function.update s.notify t
        (if lifetime.activeThreads = 0 then .setTerminationStatus else .notified) }
      (exits ++ [(t,exitStatus)]) := by
  obtain ⟨_,hclear,hquiet⟩ := h.quiet ht
  have hnew : t ∉ exits.map Prod.fst := by
    rw [h.exited,ht]
    simp
  refine ⟨hinv,?_,?_,?_,?_,?_,?_,fun _ => hclear,h.waiter⟩
  · change Counts lifetime.activeThreads fun t => lifetime.phase t = .active
    rw [hcount,hphase]
    apply h.active.remove ht
    · simp
    · intro u hu
      simp [Function.update_of_ne hu]
  · intro u
    change _ ↔ lifetime.phase u = .exited
    rw [List.map_append,List.mem_append,h.exited,hphase]
    by_cases hu : u = t
    · simp [hu]
    · simp [hu]
  · rw [List.map_append,List.map_cons,List.map_nil,List.nodup_append]
    refine ⟨h.nodup,List.nodup_singleton t,?_⟩
    intro u hu v hv heq
    obtain rfl := heq.trans (List.mem_singleton.mp hv)
    exact hnew hu
  · intro u status hmem
    rcases List.mem_append.mp hmem with hold | hlast
    · have hne : u ≠ t := by
        rintro rfl
        exact hnew (List.mem_map_of_mem hold)
      change Function.update s.exitStatus t exitStatus u = status
      rw [Function.update_of_ne hne]
      exact h.status u status hold
    · obtain ⟨rfl,rfl⟩ := Prod.mk.inj (List.mem_singleton.mp hlast)
      exact Function.update_self ..
  · intro u status hzero hlast
    change lifetime.activeThreads = 0 at hzero
    rw [List.getLast?_concat] at hlast
    obtain ⟨rfl,rfl⟩ := Prod.mk.inj (Option.some.inj hlast)
    apply LastStage.counted
    · simp [hzero]
    · exact hclear
  · intro u hpending
    change (Function.update s.notify t _ u).isPending = true at hpending
    by_cases hu : u = t
    · rw [hu,Function.update_self] at hpending
      split at hpending
      · rename_i hzero
        refine ⟨hzero,?_⟩
        rw [List.getLast?_concat,hu]
        simp
      · cases hpending
    · rw [Function.update_of_ne hu,hquiet u] at hpending
      cases hpending

omit [DecidableEq Waiter] in
theorem TerminationInv.setStatus (h : TerminationInv s exits)
    (hnotify : s.notify t = .setTerminationStatus) :
    TerminationInv { s with
      terminationStatus := s.exitStatus t
      notify := Function.update s.notify t .signalTerminationEvt } exits := by
  obtain ⟨hzero,hlast⟩ := h.pending t (by rw [hnotify]; rfl)
  have hclear : s.terminationEvt = false := by
    cases h.last t _ hzero hlast with
    | counted _ hclear => exact hclear
    | statusSet _ hclear _ => exact hclear
    | signaled hstage _ _ =>
      rw [hnotify] at hstage
      cases hstage
  refine ⟨h.lifetime,h.active,h.exited,h.nodup,h.status,?_,?_,fun _ => hclear,?_⟩
  · intro u exitStatus _ hlast'
    obtain ⟨rfl,rfl⟩ := Prod.mk.inj (Option.some.inj (hlast.symm.trans hlast'))
    apply LastStage.statusSet
    · simp
    · exact hclear
    · rfl
  · intro u hpending
    by_cases hu : u = t
    · rw [hu]
      exact ⟨hzero,hlast⟩
    · change (Function.update s.notify t _ u).isPending = true at hpending
      rw [Function.update_of_ne hu] at hpending
      exact h.pending u hpending
  · intro w
    rcases h.waiter w with hwait | ⟨hevt,_⟩
    · exact Or.inl hwait
    · rw [hclear] at hevt
      cases hevt

omit [DecidableEq Waiter] in
theorem TerminationInv.signal (h : TerminationInv s exits)
    (hnotify : s.notify t = .signalTerminationEvt) :
    TerminationInv { s with
      terminationEvt := true
      notify := Function.update s.notify t .notified } exits := by
  obtain ⟨hzero,hlast⟩ := h.pending t (by rw [hnotify]; rfl)
  have hstage : s.terminationEvt = false ∧ s.terminationStatus = s.exitStatus t := by
    cases h.last t _ hzero hlast with
    | counted hstage _ =>
      rw [hnotify] at hstage
      cases hstage
    | statusSet _ hclear hstatus => exact ⟨hclear,hstatus⟩
    | signaled hstage _ _ =>
      rw [hnotify] at hstage
      cases hstage
  refine ⟨h.lifetime,h.active,h.exited,h.nodup,h.status,?_,?_,?_,?_⟩
  · intro u exitStatus _ hlast'
    obtain ⟨rfl,rfl⟩ := Prod.mk.inj (Option.some.inj (hlast.symm.trans hlast'))
    apply LastStage.signaled
    · simp
    · rfl
    · exact hstage.2
  · intro u hpending
    change (Function.update s.notify t _ u).isPending = true at hpending
    by_cases hu : u = t
    · rw [hu,Function.update_self] at hpending
      cases hpending
    · rw [Function.update_of_ne hu] at hpending
      exact h.pending u hpending
  · intro hnot
    rcases hnot with hactive | hnil
    · exact absurd hzero hactive
    · rw [hnil] at hlast
      cases hlast
  · intro w
    rcases h.waiter w with hwait | ⟨hevt,_⟩
    · exact Or.inl hwait
    · rw [hstage.1] at hevt
      cases hevt

theorem TerminationInv.moveWaiter (h : TerminationInv s exits) (w : Waiter) {pc : WaiterPc}
    (hevt : s.terminationEvt = true)
    (hpc : pc = .readTerminationStatus ∨ pc = .returned s.terminationStatus) :
    TerminationInv { s with waiter := Function.update s.waiter w pc } exits := by
  refine ⟨h.lifetime,h.active,h.exited,h.nodup,h.status,?_,h.pending,h.early,?_⟩
  · exact fun u exitStatus hzero hlast => (h.last u exitStatus hzero hlast).stage_eq rfl rfl rfl
  · intro w'
    by_cases hw : w' = w
    · right
      refine ⟨hevt,?_⟩
      change Function.update s.waiter w pc w' = _ ∨ Function.update s.waiter w pc w' = _
      rw [hw,Function.update_self]
      exact hpc
    · change Function.update s.waiter w pc w' = _ ∨ _ ∧ (Function.update s.waiter w pc w' = _ ∨
        Function.update s.waiter w pc w' = _)
      rw [Function.update_of_ne hw]
      exact h.waiter w'

theorem TerminationInv.step (h : TerminationInv s exits)
    {action : TerminationAction Thread Waiter} (hguard : KeepsProcess s action)
    {s' : TerminationState Thread Waiter} (hstep : terminationStep s action = some s') :
    TerminationInv s' (exits ++ threadExits s action) := by
  cases action with
  | lifetime action =>
    rw [terminationStep] at hstep
    split at hstep
    · rename_i hmay
      obtain ⟨lifetime,hlife,rfl⟩ := Option.map_eq_some_iff.mp hstep
      have hinv := h.lifetime.step hguard hlife
      rw [threadExits,List.append_nil]
      · cases h.lifetime.phase_effect hlife with
        | same hcount hphase =>
          refine ⟨hinv,?_,?_,h.nodup,h.status,?_,?_,?_,h.waiter⟩
          · change Counts lifetime.activeThreads fun t => lifetime.phase t = .active
            rw [hcount,hphase]
            exact h.active
          · change ∀ t, _ ↔ lifetime.phase t = .exited
            rw [hphase]
            exact h.exited
          · intro u exitStatus hzero hlast
            change lifetime.activeThreads = 0 at hzero
            rw [hcount] at hzero
            exact (h.last u exitStatus hzero hlast).stage_eq rfl rfl rfl
          · change ∀ t, _ → lifetime.activeThreads = 0 ∧ _
            rw [hcount]
            exact h.pending
          · change lifetime.activeThreads ≠ 0 ∨ _ → _
            rw [hcount]
            exact h.early
        | start t ht hcaller hcount hphase => exact h.start hinv ht hcaller hcount hphase
        | exit t haction =>
          rw [haction] at hmay
          cases hmay
      · exact fun _ _ hexit => by cases hexit
    · cases hstep
  | threadExit t exitStatus =>
    obtain ⟨lifetime,hlife,rfl⟩ := Option.map_eq_some_iff.mp hstep
    have hexit : KeepsUntilReferenced s.lifetime (.exit t) := hguard
    have hinv := h.lifetime.step hexit hlife
    obtain ⟨ht,hcount,hphase⟩ := lifetimeStep_exit hlife
    exact h.exit exitStatus hinv ht hcount hphase
  | runNotify t =>
    rw [terminationStep] at hstep
    rw [threadExits,List.append_nil]
    · split at hstep
      · rename_i hnotify
        obtain rfl := Option.some.inj hstep
        exact h.setStatus hnotify
      · rename_i hnotify
        obtain rfl := Option.some.inj hstep
        exact h.signal hnotify
      · cases hstep
      · cases hstep
    · exact fun _ _ hexit => by cases hexit
  | runWaiter w =>
    rw [terminationStep] at hstep
    rw [threadExits,List.append_nil]
    · split at hstep
      · split at hstep
        · rename_i hevt
          obtain rfl := Option.some.inj hstep
          exact h.moveWaiter w hevt (Or.inl rfl)
        · cases hstep
      · rename_i hread
        obtain rfl := Option.some.inj hstep
        rcases h.waiter w with hwait | ⟨hevt,_⟩
        · rw [hread] at hwait
          cases hwait
        · exact h.moveWaiter w hevt (Or.inr rfl)
      · cases hstep
    · exact fun _ _ hexit => by cases hexit

omit [DecidableEq Waiter] in
theorem TerminationInv.last_signaled (h : TerminationInv s exits) (hevt : s.terminationEvt = true) :
    ∃ t, s.lifetime.activeThreads = 0 ∧ exits.getLast? = some (t,s.terminationStatus) ∧
      s.notify t = .notified := by
  have hnot : ¬(s.lifetime.activeThreads ≠ 0 ∨ exits = []) := by
    intro hearly
    rw [h.early hearly] at hevt
    cases hevt
  obtain ⟨hcount,hne⟩ := not_or.mp hnot
  have hactive : s.lifetime.activeThreads = 0 := by simpa using hcount
  have hlast := List.getLast?_eq_some_getLast hne
  cases h.last _ _ hactive hlast with
  | counted _ hclear | statusSet _ hclear _ =>
    rw [hevt] at hclear
    cases hclear
  | signaled hnotify _ hstatus =>
    rw [hstatus]
    exact ⟨_,hactive,hlast,hnotify⟩

omit [DecidableEq Waiter] in
theorem TerminationInv.signaled_iff (h : TerminationInv s exits) : s.terminationEvt = true ↔
    exits ≠ [] ∧ (∀ t, s.lifetime.phase t ≠ .active) ∧ ∀ t, (s.notify t).isPending = false := by
  constructor
  · intro hevt
    obtain ⟨t,hactive,hlast,hnotify⟩ := h.last_signaled hevt
    refine ⟨?_,h.active.eq_zero_iff.mp hactive,?_⟩
    · intro hnil
      rw [hnil] at hlast
      cases hlast
    · intro u
      rw [Bool.eq_false_iff]
      intro hpending
      have hu := (h.pending u hpending).2
      obtain ⟨rfl,_⟩ := Prod.mk.inj (Option.some.inj (hlast.symm.trans hu))
      rw [hnotify] at hpending
      cases hpending
  · intro hquiet
    obtain ⟨hne,hnone,hnotify⟩ := hquiet
    have hactive := h.active.eq_zero_iff.mpr hnone
    cases h.last _ _ hactive (List.getLast?_eq_some_getLast hne) with
    | counted hstage _ | statusSet hstage _ _ =>
      have hpending := hnotify (exits.getLast hne).1
      rw [hstage] at hpending
      cases hpending
    | signaled _ hevt _ => exact hevt

omit [DecidableEq Waiter] in
theorem TerminationInv.returned (h : TerminationInv s exits) {w : Waiter} {status : Nat}
    (hreturned : s.waiter w = .returned status) :
    s.terminationEvt = true ∧ s.terminationStatus = status := by
  rcases h.waiter w with hwait | ⟨hevt,hread | hstatus⟩
  · rw [hreturned] at hwait
    cases hwait
  · rw [hreturned] at hread
    cases hread
  · rw [hreturned] at hstatus
    exact ⟨hevt,(WaiterPc.returned.inj hstatus).symm⟩

omit [DecidableEq Waiter] in
theorem TerminationInv.active_le (h : TerminationInv s exits) :
    s.lifetime.activeThreads ≤ s.lifetime.numberOfThreads := by
  rw [h.lifetime.process.count]
  apply h.active.le_length
  intro t ht
  apply (h.lifetime.process.listed t).mpr
  rw [LifetimeState.phase] at ht
  cases hpc : s.lifetime.pc t <;> rw [hpc] at ht <;> cases ht <;>
    simp [LifetimeState.place,hpc,ThreadPc.place,Place.isListed]

theorem TerminationInv.ended (h : TerminationInv s exits) (hne : exits ≠ [])
    (hnone : ∀ t, s.lifetime.phase t ≠ .active) (hquiet : ∀ t, (s.notify t).isPending = false)
    {action : TerminationAction Thread Waiter} {s' : TerminationState Thread Waiter}
    (hstep : terminationStep s action = some s') :
    threadExits s action = [] ∧ s'.lifetime.phase = s.lifetime.phase ∧
      s'.terminationStatus = s.terminationStatus := by
  cases action with
  | lifetime action =>
    rw [terminationStep] at hstep
    split at hstep
    · rename_i hmay
      obtain ⟨lifetime,hlife,rfl⟩ := Option.map_eq_some_iff.mp hstep
      refine ⟨rfl,?_,rfl⟩
      cases h.lifetime.phase_effect hlife with
      | same _ hphase => exact hphase
      | start t _ hcaller =>
        rcases hcaller with habsent | ⟨c,hc⟩
        · obtain ⟨e,he⟩ := List.exists_mem_of_ne_nil exits hne
          have hexited := (h.exited e.1).mp (List.mem_map_of_mem he)
          rw [habsent] at hexited
          cases hexited
        · exact absurd hc (hnone c)
      | exit t haction =>
        rw [haction] at hmay
        cases hmay
    · cases hstep
  | threadExit t exitStatus =>
    obtain ⟨lifetime,hlife,rfl⟩ := Option.map_eq_some_iff.mp hstep
    exact absurd (lifetimeStep_exit hlife).1 (hnone t)
  | runNotify t =>
    rw [terminationStep] at hstep
    have hnot := hquiet t
    split at hstep <;> rename_i hnotify
    · rw [hnotify] at hnot
      cases hnot
    · rw [hnotify] at hnot
      cases hnot
    · cases hstep
    · cases hstep
  | runWaiter w =>
    rw [terminationStep] at hstep
    split at hstep
    · split at hstep
      · obtain rfl := Option.some.inj hstep
        exact ⟨rfl,rfl,rfl⟩
      · cases hstep
    · obtain rfl := Option.some.inj hstep
      exact ⟨rfl,rfl,rfl⟩
    · cases hstep

end Steps

theorem terminationInv_of_reachable {p : TerminationState Thread Waiter × List (Thread × Nat)}
    (h : ((terminationSystem Thread Waiter).recording threadExits).ReachableUnder
      (fun p action => KeepsProcess p.1 action) p) : TerminationInv p.1 p.2 := by
  apply h.invariant
  · intro p hinit
    have hstart : p.1 = _ := hinit.1
    rw [hinit.2,hstart]
    have habsent : ∀ t : Thread, newProcess.phase t = .absent := fun _ => rfl
    refine ⟨lifetimeInv_of_reachable (.init rfl),?_,?_,List.nodup_nil,?_,?_,?_,fun _ => rfl,
      fun _ => Or.inl rfl⟩
    · apply Counts.none
      simp [habsent]
    · simp [habsent]
    · intro t exitStatus hmem
      cases hmem
    · intro t exitStatus _ hlast
      cases hlast
    · intro t hpending
      cases hpending
  · intro p action p' _ hinv hguard hstep
    obtain ⟨hstep,hrecord⟩ := TransitionSystem.recording_step.mp hstep
    rw [hrecord]
    exact hinv.step hguard hstep

/-- Whatever the threads of a process do: the termination event is signaled exactly when there was a
thread, none is left and the last one has done its part. From then on no thread starts or exits, and
whoever waits for the process gets the exit status of the thread that was counted out last. -/
theorem process_termination {p : TerminationState Thread Waiter × List (Thread × Nat)}
    (h : ((terminationSystem Thread Waiter).recording threadExits).ReachableUnder
      (fun p action => KeepsProcess p.1 action) p) :
    (p.1.terminationEvt = true ↔ p.2 ≠ [] ∧ (∀ t, p.1.lifetime.phase t ≠ .active) ∧
      ∀ t, (p.1.notify t).isPending = false) ∧
    (p.1.terminationEvt = true → ∀ action p',
      ((terminationSystem Thread Waiter).recording threadExits).step p action = some p' →
      p'.2 = p.2 ∧ p'.1.lifetime.phase = p.1.lifetime.phase ∧
        p'.1.terminationStatus = p.1.terminationStatus) ∧
    (∀ w status, p.1.waiter w = .returned status →
      p.1.terminationEvt = true ∧ p.2.getLast?.map Prod.snd = some status) ∧
    p.1.lifetime.activeThreads ≤ p.1.lifetime.numberOfThreads := by
  have hinv := terminationInv_of_reachable h
  refine ⟨hinv.signaled_iff,?_,?_,hinv.active_le⟩
  · intro hevt action p' hstep
    obtain ⟨hne,hnone,hquiet⟩ := hinv.signaled_iff.mp hevt
    obtain ⟨hstep,hrecord⟩ := TransitionSystem.recording_step.mp hstep
    obtain ⟨hexits,hphase,hstatus⟩ := hinv.ended hne hnone hquiet hstep
    rw [hexits,List.append_nil] at hrecord
    exact ⟨hrecord,hphase,hstatus⟩
  · intro w status hreturned
    obtain ⟨hevt,rfl⟩ := hinv.returned hreturned
    obtain ⟨t,_,hlast,_⟩ := hinv.last_signaled hevt
    exact ⟨hevt,by rw [hlast]; rfl⟩

end Termination

instance {Thread Waiter : Type} [DecidableEq Thread] (s : TerminationState Thread Waiter) :
    ∀ action, Decidable (KeepsProcess s action)
  | .lifetime action => inferInstanceAs (Decidable (KeepsUntilReferenced s.lifetime action))
  | .threadExit _ _ | .runNotify _ | .runWaiter _ => .isTrue trivial

/-- The second thread is counted out while the first has not returned from `ThreadExit`. -/
theorem process_termination_two :
    ∃ p : TerminationState (Fin 2) (Fin 1) × List (Fin 2 × Nat),
      ((terminationSystem (Fin 2) (Fin 1)).recording threadExits).ReachableUnder
        (fun p action => KeepsProcess p.1 action) p ∧
      p.1.waiter 0 = .returned 7 ∧ p.1.terminationEvt = true ∧
        p.2.getLast?.map Prod.snd = some 7 ∧ ∀ t, p.1.lifetime.phase t ≠ .active := by
  obtain ⟨p,hreach,hp⟩ := TransitionSystem.exists_reachable
    ((terminationSystem (Fin 2) (Fin 1)).recording threadExits)
    (fun p action => KeepsProcess p.1 action)
    (⟨newProcess,fun _ => 0,fun _ => .unnotified,0,false,fun _ => .waitForSignal⟩,[]) ⟨rfl,rfl⟩
    (createFirstThread.map .lifetime ++ [.lifetime (.insertThread (.thread 0) 1),
      .lifetime (.insertReference 1),.lifetime (.finishCreate (.thread 0) false true),
      .threadExit 0 5,.lifetime (.cleanup 0),.threadExit 1 7,.runNotify 1,.runNotify 1,
      .runWaiter 0,.runWaiter 0])
    (fun p => decide (p.1.waiter 0 = .returned 7)) (by decide +kernel) (by decide +kernel)
  have hreturned := of_decide_eq_true hp
  obtain ⟨hsignaled,_,hwaiter,_⟩ := process_termination hreach
  obtain ⟨hevt,hstatus⟩ := hwaiter 0 7 hreturned
  exact ⟨p,hreach,hreturned,hevt,hstatus,(hsignaled.mp hevt).2.1⟩

end Hal9000
