import Hal9000.Process.Destruction
import Hal9000.Process.Identifiers

/-!
# The processes of the system

Every process has the `ProcessCreate` that makes it, its threads and its reference count, and
`_ProcessDestroy` runs whenever the count of references reaches zero. As long as no process loses
its last thread before its `ProcessCreate` has taken its reference, the count reaches zero once, so
that no identifier is given back twice.
-/

namespace Hal9000

open TransitionSystem

structure Processes (Process Thread : Type) where
  system : ProcessSystem Process
  lifetime : Process → LifetimeState Thread

inductive ProcessesAction (Process Thread : Type)
  | processInit (p : Process) (request : ProcessRequest)
  /-- A step of `_ProcessInit`, `MmuCreateAddressSpaceForProcess` or `_ProcessDestroy`. -/
  | run (p : Process) (succeeds : Bool)
  | initSystemProcess (p : Process)
  /-- A step of the threads of the process, or of its `ProcessCreate` behind the address space. -/
  | lifetime (p : Process) (action : LifetimeAction Thread)

/-- What `ProcessCreate` has done when the stage is reached: its call has returned, or has failed
and the initial reference is dropped. -/
def ProcessStage.calls {Thread : Type} : ProcessStage → List (LifetimeAction Thread)
  | .initialized | .createPagingTables | .live => [.prepare true]
  | .removeFromList => [.prepare false,.dereferenceProcess]
  | _ => []

/-- `ProcessCreate` is in one of the calls whose steps are those of the stages. -/
def CreatorPc.inStages {Thread : Type} : CreatorPc Thread → Bool
  | .processInit | .retrieveHeader | .createAddressSpace => true
  | _ => false

section Processes

variable {Process Thread : Type} [DecidableEq Process] [DecidableEq Thread]

variable (strcelem : List Char → Char → Nat)

def processesStep (s : Processes Process Thread) :
    ProcessesAction Process Thread → Option (Processes Process Thread)
  | .processInit p request => (processInit s.system p request).map fun system => { s with system }
  | .run p succeeds => do
    let system ← processRun strcelem s.system p succeeds
    let lifetime ← (lifetimeSystem Thread).run (s.lifetime p) (system.stage p).calls
    return ⟨system,Function.update s.lifetime p lifetime⟩
  | .initSystemProcess p => (initSystemProcess s.system p).map fun system => { s with system }
  | .lifetime p action =>
    if (s.lifetime p).creator.inStages = true then none
    else (lifetimeStep (s.lifetime p) action).map fun lifetime =>
      ⟨if (s.lifetime p).destroyed < lifetime.destroyed then s.system.processDestroy p
        else s.system,Function.update s.lifetime p lifetime⟩

variable (Process Thread) in
def processesSystem : TransitionSystem (Processes Process Thread)
    (ProcessesAction Process Thread) where
  init s := ∃ pidBitmapBuffer, s = ⟨processSystemPreinit pidBitmapBuffer,fun _ => newProcess⟩
  step := processesStep strcelem

/-- No process drops the reference of its last thread before `ProcessCreate` has taken its own. -/
def KeepsProcesses (s : Processes Process Thread) : ProcessesAction Process Thread → Prop
  | .lifetime p action => KeepsUntilReferenced (s.lifetime p) action
  | .processInit _ _ | .run _ _ | .initSystemProcess _ => True

instance (s : Processes Process Thread) : ∀ action, Decidable (KeepsProcesses s action)
  | .lifetime p action => inferInstanceAs (Decidable (KeepsUntilReferenced (s.lifetime p) action))
  | .processInit _ _ | .run _ _ | .initSystemProcess _ => .isTrue trivial

/-- How the lifetime of a process stands to its stage: the first threads come behind the address
space, and whoever is being destroyed has been destroyed once. -/
def ProcessStage.Follows (stage : ProcessStage) (lifetime : LifetimeState Thread) : Prop :=
  match stage with
  | .unused | .allocHeaderInfo _ | .allocName _ | .parseCommandLine _ | .retrievePid
  | .insertInList => lifetime = newProcess
  | .initialized => lifetime = { newProcess with creator := .retrieveHeader }
  | .createPagingTables | .createVaSpace =>
    lifetime = { newProcess with creator := .createAddressSpace }
  | .live => lifetime.destroyed = 0
  | .removeFromList | .freeCommandLine | .freeName | .freeHeaderInfo | .destroyAddressSpace
  | .freePid | .freeProcess | .destroyed => lifetime.destroyed = 1

structure ProcessesInv (s : Processes Process Thread) : Prop where
  identifiers : IdentifierInv strcelem s.system
  lifetime : ∀ p, (lifetimeSystem Thread).ReachableUnder KeepsUntilReferenced (s.lifetime p)
  follows : ∀ p, (s.system.stage p).Follows (s.lifetime p)

variable {strcelem} {s s' : Processes Process Thread} {p : Process}

/-- The calls of `ProcessCreate` that may fail before there are threads. -/
def ProcessStage.mayFail : ProcessStage → Bool
  | .allocHeaderInfo _ | .allocName _ | .parseCommandLine _ | .initialized | .createPagingTables
  | .createVaSpace => true
  | _ => false

/-- Where a step of a process leads. -/
inductive ProcessStage.Next : ProcessStage → ProcessStage → Prop
  | allocHeaderInfo (request : ProcessRequest) : Next (.allocHeaderInfo request) (.allocName request)
  | allocName (request : ProcessRequest) : Next (.allocName request) (.parseCommandLine request)
  | parseCommandLine (request : ProcessRequest) : Next (.parseCommandLine request) .retrievePid
  | retrievePid : Next .retrievePid .insertInList
  | insertInList : Next .insertInList .initialized
  | initialized : Next .initialized .createPagingTables
  | createPagingTables : Next .createPagingTables .createVaSpace
  | createVaSpace : Next .createVaSpace .live
  | fail {stage : ProcessStage} (h : stage.mayFail = true) : Next stage .removeFromList
  | removeFromList : Next .removeFromList .freeCommandLine
  | freeCommandLine : Next .freeCommandLine .freeName
  | freeName : Next .freeName .freeHeaderInfo
  | freeHeaderInfo : Next .freeHeaderInfo .destroyAddressSpace
  | destroyAddressSpace : Next .destroyAddressSpace .freePid
  | freePid : Next .freePid .freeProcess
  | freeProcess : Next .freeProcess .destroyed

theorem processRun_stage {system system' : ProcessSystem Process} {succeeds : Bool}
    (hrun : processRun strcelem system p succeeds = some system') :
    ∃ stage, (system.stage p).Next stage ∧
      system'.stage = Function.update system.stage p stage := by
  cases hstage : system.stage p with
  | unused | live | destroyed => simp [processRun,hstage] at hrun
  | allocHeaderInfo request =>
    rw [processRun,hstage] at hrun
    cases succeeds with
    | false =>
      obtain rfl := Option.some.inj hrun
      exact ⟨_,.fail rfl,rfl⟩
    | true =>
      obtain rfl := Option.some.inj hrun
      exact ⟨_,.allocHeaderInfo request,rfl⟩
  | allocName request =>
    rw [processRun,hstage] at hrun
    cases succeeds with
    | false =>
      obtain rfl := Option.some.inj hrun
      exact ⟨_,.fail rfl,rfl⟩
    | true =>
      obtain rfl := Option.some.inj hrun
      exact ⟨_,.allocName request,rfl⟩
  | parseCommandLine request =>
    rw [processRun,hstage] at hrun
    cases hparse : processParseCommandLine strcelem (system.process p) request.name
        request.arguments succeeds with
    | none =>
      simp only [hparse] at hrun
      obtain rfl := Option.some.inj hrun
      exact ⟨_,.fail rfl,rfl⟩
    | some data =>
      simp only [hparse] at hrun
      obtain rfl := Option.some.inj hrun
      exact ⟨_,.parseCommandLine request,rfl⟩
  | retrievePid =>
    rw [processRun,hstage] at hrun
    obtain ⟨_,_,hrun⟩ := Option.bind_eq_some_iff.mp hrun
    obtain rfl := Option.some.inj hrun
    exact ⟨_,.retrievePid,rfl⟩
  | insertInList =>
    rw [processRun,hstage] at hrun
    obtain rfl := Option.some.inj hrun
    exact ⟨_,.insertInList,rfl⟩
  | initialized =>
    rw [processRun,hstage] at hrun
    obtain rfl := Option.some.inj hrun
    cases succeeds with
    | false => exact ⟨_,.fail rfl,rfl⟩
    | true => exact ⟨_,.initialized,rfl⟩
  | createPagingTables =>
    rw [processRun,hstage] at hrun
    obtain ⟨_,_,hrun⟩ := Option.bind_eq_some_iff.mp hrun
    obtain rfl := Option.some.inj hrun
    cases succeeds with
    | false => exact ⟨_,.fail rfl,rfl⟩
    | true => exact ⟨_,.createPagingTables,rfl⟩
  | createVaSpace =>
    rw [processRun,hstage] at hrun
    cases succeeds with
    | false =>
      obtain ⟨_,_,hrun⟩ := Option.bind_eq_some_iff.mp hrun
      obtain ⟨_,_,hrun⟩ := Option.bind_eq_some_iff.mp hrun
      obtain rfl := Option.some.inj hrun
      exact ⟨_,.fail rfl,rfl⟩
    | true =>
      obtain rfl := Option.some.inj hrun
      exact ⟨_,.createVaSpace,rfl⟩
  | removeFromList =>
    rw [processRun,hstage] at hrun
    obtain ⟨_,_,hrun⟩ := Option.bind_eq_some_iff.mp hrun
    obtain rfl := Option.some.inj hrun
    exact ⟨_,.removeFromList,rfl⟩
  | freeCommandLine =>
    rw [processRun,hstage] at hrun
    obtain rfl := Option.some.inj hrun
    exact ⟨_,.freeCommandLine,rfl⟩
  | freeName =>
    rw [processRun,hstage] at hrun
    obtain rfl := Option.some.inj hrun
    exact ⟨_,.freeName,rfl⟩
  | freeHeaderInfo =>
    rw [processRun,hstage] at hrun
    obtain rfl := Option.some.inj hrun
    exact ⟨_,.freeHeaderInfo,rfl⟩
  | destroyAddressSpace =>
    rw [processRun,hstage] at hrun
    obtain ⟨_,_,hrun⟩ := Option.bind_eq_some_iff.mp hrun
    obtain ⟨_,_,hrun⟩ := Option.bind_eq_some_iff.mp hrun
    obtain rfl := Option.some.inj hrun
    exact ⟨_,.destroyAddressSpace,rfl⟩
  | freePid =>
    rw [processRun,hstage] at hrun
    dsimp only at hrun
    split_ifs at hrun
    · obtain rfl := Option.some.inj hrun
      exact ⟨_,.freePid,rfl⟩
    · obtain ⟨_,_,hrun⟩ := Option.map_eq_some_iff.mp hrun
      rw [← hrun]
      exact ⟨_,.freePid,rfl⟩
  | freeProcess =>
    rw [processRun,hstage] at hrun
    obtain rfl := Option.some.inj hrun
    exact ⟨_,.freeProcess,rfl⟩

theorem ProcessStage.Next.follows {stage stage' : ProcessStage} (h : stage.Next stage')
    {lifetime : LifetimeState Thread}
    (hreach : (lifetimeSystem Thread).ReachableUnder KeepsUntilReferenced lifetime)
    (hfollows : stage.Follows lifetime) : ∃ lifetime',
      (lifetimeSystem Thread).run lifetime stage'.calls = some lifetime' ∧
      (lifetimeSystem Thread).ReachableUnder KeepsUntilReferenced lifetime' ∧
      stage'.Follows lifetime' := by
  have hcalls : ∃ lifetime', (lifetimeSystem Thread).run lifetime stage'.calls = some lifetime' ∧
      stage'.Follows lifetime' := by
    cases h with
    | insertInList | initialized =>
      obtain rfl := hfollows
      exact ⟨_,rfl,rfl⟩
    | createVaSpace =>
      obtain rfl := hfollows
      exact ⟨_,rfl,rfl⟩
    | fail hmay =>
      cases stage with
      | allocHeaderInfo _ | allocName _ | parseCommandLine _ | initialized | createPagingTables
      | createVaSpace =>
        obtain rfl := hfollows
        exact ⟨_,rfl,rfl⟩
      | _ => cases hmay
    | _ => exact ⟨lifetime,rfl,hfollows⟩
  obtain ⟨lifetime',hrun,hfollows'⟩ := hcalls
  refine ⟨lifetime',hrun,hreach.run ?_ hrun,hfollows'⟩
  cases stage' <;> simp [ProcessStage.calls,RunSatisfies,KeepsUntilReferenced]

omit [DecidableEq Thread] in
theorem processDereference_destroyed (lifetime : LifetimeState Thread) :
    lifetime.destroyed ≤ (processDereference lifetime).destroyed := by
  simp only [processDereference]
  split <;> omega

theorem lifetimeStep_destroyed {lifetime lifetime' : LifetimeState Thread}
    {action : LifetimeAction Thread} (hstep : lifetimeStep lifetime action = some lifetime') :
    lifetime.destroyed ≤ lifetime'.destroyed := by
  cases action with
  | prepare succeeded =>
    obtain ⟨_,_,hs⟩ := Option.bind_eq_some_iff.mp hstep
    obtain rfl := Option.some.inj hs
    exact le_rfl
  | insertThread caller t =>
    simp only [lifetimeStep] at hstep
    rw [ite_eq_iff] at hstep
    obtain ⟨_,hstep⟩ | ⟨_,hstep⟩ := hstep
    · cases hstep
    cases caller with
    | umApplicationRun =>
      change (if lifetime.creator = .createThread then _ else none) = some lifetime' at hstep
      split_ifs at hstep
      obtain ⟨_,_,hstep⟩ := Option.bind_eq_some_iff.mp hstep
      obtain ⟨_,_,hstep⟩ := Option.bind_eq_some_iff.mp hstep
      obtain rfl := Option.some.inj hstep
      exact le_rfl
    | thread c =>
      change (if lifetime.pc c = .live then _ else none) = some lifetime' at hstep
      split_ifs at hstep
      obtain ⟨_,_,hstep⟩ := Option.bind_eq_some_iff.mp hstep
      obtain ⟨_,_,hstep⟩ := Option.bind_eq_some_iff.mp hstep
      obtain rfl := Option.some.inj hstep
      exact le_rfl
  | finishCreate caller isEntryPoint succeeded =>
    cases caller with
    | umApplicationRun =>
      cases hc : lifetime.creator <;> simp only [lifetimeStep,hc,reduceCtorEq] at hstep
      obtain ⟨_,_,hstep⟩ := Option.bind_eq_some_iff.mp hstep
      obtain ⟨_,_,hs⟩ := Option.bind_eq_some_iff.mp hstep
      obtain rfl := Option.some.inj hs
      cases succeeded <;> exact le_rfl
    | thread c =>
      cases hc : lifetime.pc c <;> simp only [lifetimeStep,hc,reduceCtorEq] at hstep
      obtain ⟨_,_,hstep⟩ := Option.bind_eq_some_iff.mp hstep
      obtain ⟨_,_,hs⟩ := Option.bind_eq_some_iff.mp hstep
      obtain rfl := Option.some.inj hs
      cases succeeded <;> exact le_rfl
  | insertReference t | exit t | cleanup t | threadCloseHandle t | removeCount t | referenceProcess =>
    simp only [lifetimeStep] at hstep
    split_ifs at hstep
    obtain rfl := Option.some.inj hstep
    exact le_rfl
  | dereferenceProcess | processCloseHandle =>
    simp only [lifetimeStep] at hstep
    split_ifs at hstep
    obtain rfl := Option.some.inj hstep
    exact processDereference_destroyed lifetime
  | removeDereference t =>
    cases hpc : lifetime.pc t <;> simp only [lifetimeStep,hpc,reduceCtorEq] at hstep
    obtain rfl := Option.some.inj hstep
    exact processDereference_destroyed lifetime
  | removeLast t =>
    cases hpc : lifetime.pc t <;> simp only [lifetimeStep,hpc,reduceCtorEq] at hstep
    obtain rfl := Option.some.inj hstep
    split
    · exact processDereference_destroyed lifetime
    · exact le_rfl
  | closeThread =>
    cases hc : lifetime.creator <;> simp only [lifetimeStep,hc,reduceCtorEq] at hstep
    obtain rfl := Option.some.inj hstep
    exact le_rfl
  | threadDestroyed =>
    cases hc : lifetime.creator <;> simp only [lifetimeStep,hc,reduceCtorEq] at hstep
    rename_i t
    cases hpc : lifetime.pc t <;> simp only [hpc,reduceCtorEq] at hstep
    obtain rfl := Option.some.inj hstep
    exact le_rfl

theorem ProcessesInv.lifetime_update (h : ProcessesInv strcelem s) {lifetime : LifetimeState Thread}
    (hreach : (lifetimeSystem Thread).ReachableUnder KeepsUntilReferenced lifetime) (q : Process) :
    (lifetimeSystem Thread).ReachableUnder KeepsUntilReferenced
      (Function.update s.lifetime p lifetime q) := by
  by_cases hq : q = p
  · rw [hq,Function.update_self]
    exact hreach
  · rw [Function.update_of_ne hq]
    exact h.lifetime q

theorem ProcessesInv.run (h : ProcessesInv strcelem s) {succeeds : Bool}
    (hstep : processesStep strcelem s (.run p succeeds) = some s') : ProcessesInv strcelem s' := by
  obtain ⟨system,hrun,hstep⟩ := Option.bind_eq_some_iff.mp hstep
  obtain ⟨lifetime,hcalls,hstep⟩ := Option.bind_eq_some_iff.mp hstep
  obtain rfl := Option.some.inj hstep
  obtain ⟨stage,hnext,hstages⟩ := processRun_stage hrun
  rw [hstages,Function.update_self] at hcalls
  obtain ⟨_,hcalls',hreach,hfollows⟩ := hnext.follows (h.lifetime p) (h.follows p)
  obtain rfl := Option.some.inj (hcalls.symm.trans hcalls')
  refine ⟨h.identifiers.run hrun,h.lifetime_update hreach,?_⟩
  intro q
  dsimp only
  by_cases hq : q = p
  · rw [hq,hstages,Function.update_self,Function.update_self]
    exact hfollows
  · rw [hstages,Function.update_of_ne hq,Function.update_of_ne hq]
    exact h.follows q

omit [DecidableEq Thread] in
theorem ProcessStage.Follows.live {stage : ProcessStage} {lifetime : LifetimeState Thread}
    (h : stage.Follows lifetime) (hcreator : lifetime.creator.inStages = false)
    (hdestroyed : lifetime.destroyed = 0) : stage = .live := by
  cases stage with
  | live => rfl
  | unused | allocHeaderInfo _ | allocName _ | parseCommandLine _ | retrievePid | insertInList
  | initialized | createPagingTables | createVaSpace =>
    obtain rfl := h
    cases hcreator
  | _ =>
    have hone : lifetime.destroyed = 1 := h
    omega

omit [DecidableEq Thread] in
theorem ProcessStage.Follows.mono {stage : ProcessStage} {lifetime lifetime' : LifetimeState Thread}
    (h : stage.Follows lifetime) (hcreator : lifetime.creator.inStages = false)
    (hdestroyed : lifetime'.destroyed = lifetime.destroyed) : stage.Follows lifetime' := by
  cases stage with
  | unused | allocHeaderInfo _ | allocName _ | parseCommandLine _ | retrievePid | insertInList
  | initialized | createPagingTables | createVaSpace =>
    obtain rfl := h
    cases hcreator
  | _ => exact hdestroyed.trans h

theorem ProcessesInv.lifetimeStep (h : ProcessesInv strcelem s) {action : LifetimeAction Thread}
    (hkeeps : KeepsUntilReferenced (s.lifetime p) action)
    (hstep : processesStep strcelem s (.lifetime p action) = some s') :
    ProcessesInv strcelem s' := by
  simp only [processesStep] at hstep
  split_ifs at hstep with hcreator
  rw [Bool.not_eq_true] at hcreator
  obtain ⟨lifetime,haction,hstep⟩ := Option.map_eq_some_iff.mp hstep
  rw [← hstep]
  have hreach := (h.lifetime p).step hkeeps haction
  have honce := (process_destroyed_once hreach).1
  have hmono := lifetimeStep_destroyed haction
  by_cases hlast : (s.lifetime p).destroyed < lifetime.destroyed
  · have hlive := (h.follows p).live hcreator (by omega)
    rw [if_pos hlast]
    refine ⟨h.identifiers.processDestroy hlive,h.lifetime_update hreach,?_⟩
    intro q
    by_cases hq : q = p
    · have hone : lifetime.destroyed = 1 := by omega
      simpa [hq,ProcessSystem.processDestroy,ProcessSystem.setStage,ProcessStage.Follows] using hone
    · simpa [hq,ProcessSystem.processDestroy,ProcessSystem.setStage] using h.follows q
  · rw [if_neg hlast]
    refine ⟨h.identifiers,h.lifetime_update hreach,?_⟩
    intro q
    dsimp only
    by_cases hq : q = p
    · rw [hq,Function.update_self]
      exact (h.follows p).mono hcreator (by omega)
    · rw [Function.update_of_ne hq]
      exact h.follows q

theorem ProcessesInv.step (h : ProcessesInv strcelem s) {action : ProcessesAction Process Thread}
    (hkeeps : KeepsProcesses s action) (hstep : processesStep strcelem s action = some s') :
    ProcessesInv strcelem s' := by
  cases action with
  | run p succeeds => exact h.run hstep
  | lifetime p action => exact h.lifetimeStep hkeeps hstep
  | processInit p request =>
    obtain ⟨system,hinit,hstep⟩ := Option.map_eq_some_iff.mp hstep
    rw [← hstep]
    refine ⟨h.identifiers.processInit hinit,h.lifetime,?_⟩
    rw [processInit] at hinit
    split_ifs at hinit with hstage
    obtain rfl := Option.some.inj hinit
    intro q
    have hfollows := h.follows q
    by_cases hq : q = p
    · rw [hq,hstage] at hfollows
      simpa [hq,ProcessSystem.setStage,ProcessStage.Follows] using hfollows
    · simpa [hq,ProcessSystem.setStage,ProcessSystem.setProcess] using hfollows
  | initSystemProcess p =>
    obtain ⟨system,hinit,hstep⟩ := Option.map_eq_some_iff.mp hstep
    rw [← hstep]
    rw [initSystemProcess] at hinit
    split_ifs at hinit with hstage
    obtain rfl := Option.some.inj hinit
    refine ⟨h.identifiers.systemProcess hstage.1,h.lifetime,?_⟩
    intro q
    have hfollows := h.follows q
    by_cases hq : q = p
    · rw [hq,hstage.1] at hfollows
      have hnew : (s.lifetime p).destroyed = 0 := by rw [hfollows]; rfl
      simpa [hq,ProcessSystem.setStage,ProcessStage.Follows] using hnew
    · simpa [hq,ProcessSystem.setStage,ProcessSystem.setProcess] using hfollows

theorem processesInv_of_reachable
    (h : (processesSystem Process Thread strcelem).ReachableUnder KeepsProcesses s) :
    ProcessesInv strcelem s := by
  apply h.invariant
  · intro s hinit
    obtain ⟨pidBitmapBuffer,rfl⟩ := hinit
    exact ⟨.init pidBitmapBuffer,fun _ => .init rfl,fun _ => rfl⟩
  · exact fun _ _ _ _ hinv hkeeps hstep => hinv.step hkeeps hstep

/-- Whatever the threads that create and destroy processes do, as long as no process loses its last
thread before its `ProcessCreate` has taken its reference: the identifiers set in the bitmap are the
invalid one and those that one process each has; a process on the list or with paging tables has
its own; a process is listed once while it is live and has all that was requested, and leaves
nothing when it is destroyed; and no process is destroyed twice. -/
theorem process_identifiers
    (h : (processesSystem Process Thread strcelem).ReachableUnder KeepsProcesses s) :
    (∀ n, s.system.pidBitmap.bits n = true ↔ n = 0 ∨ ∃ p, s.system.identifier p = some n) ∧
    (∀ p n, s.system.identifier p = some n → pcidIsValid n = true ∧
      ∀ q, s.system.identifier q = some n → q = p) ∧
    (∀ p, p ∈ s.system.processList ∨ (s.system.process p).pagingData = true →
      s.system.identifier p = some (s.system.process p).id) ∧
    s.system.processList.Nodup ∧
    (∀ p, s.system.stage p = .live → p ∈ s.system.processList ∧
      (s.system.process p).pagingData = true ∧ (s.system.process p).vaSpace = true ∧
      ∃ request, (s.system.process p).Describes strcelem request) ∧
    (∀ p, s.system.stage p = .destroyed → p ∉ s.system.processList ∧
      s.system.identifier p = none ∧ (s.system.process p).NoAddressSpace ∧
      (s.system.process p).NoStrings ∧ (s.system.process p).headerInfo = false) ∧
    ∀ p, (s.lifetime p).destroyed ≤ 1 := by
  have hprocesses := processesInv_of_reachable h
  have hinv := hprocesses.identifiers
  refine ⟨hinv.held.taken_iff,?_,?_,hinv.nodup,?_,?_,?_⟩
  · exact fun p n hp => ⟨hinv.valid p n hp,fun q hq => hinv.held.unique q p n hq hp⟩
  · intro p hp
    rcases hp with hp | hp
    · exact hinv.listed_identifier hp
    · exact hinv.pagingData hp
  · intro p hstage
    have hfits := hinv.fits p
    rw [hstage] at hfits
    exact ⟨(hinv.listed p).mpr (by simp [hstage,ProcessStage.isListed]),hfits.2⟩
  · intro p hstage
    have hfits := hinv.fits p
    have hlisted := hinv.listed p
    rw [hstage] at hfits hlisted
    refine ⟨by simp [hlisted,ProcessStage.isListed],?_,hfits⟩
    simp [ProcessSystem.identifier,hstage,ProcessStage.hasFreedPid]
  · exact fun p => (process_destroyed_once (hprocesses.lifetime p)).1

/-- Behind a system process and under the same condition, none of the assertions on the way of
another process fails, but the one that there is an identifier left: `_ProcessInit` halts when every
valid one is some process's. -/
theorem process_halts_iff
    (h : (processesSystem Process Thread strcelem).ReachableUnder KeepsProcesses s)
    {system : Process} (hsystem : s.system.systemProcess = some system) (hne : system ≠ p)
    (hrunning : s.system.stage p ≠ .unused ∧ s.system.stage p ≠ .live ∧
      s.system.stage p ≠ .destroyed)
    (succeeds : Bool) : processesStep strcelem s (.run p succeeds) = none ↔
      s.system.stage p = .retrievePid ∧
        ∀ n, pcidIsValid n = true → ∃ q, s.system.identifier q = some n := by
  have hinv := processesInv_of_reachable h
  rw [← hinv.identifiers.processRun_eq_none hsystem hne hrunning succeeds]
  constructor
  · intro hstep
    by_contra hrun
    obtain ⟨system',hrun⟩ := Option.ne_none_iff_exists'.mp hrun
    obtain ⟨stage,hnext,hstages⟩ := processRun_stage hrun
    obtain ⟨lifetime',hcalls,_⟩ := hnext.follows (hinv.lifetime p) (hinv.follows p)
    have hstage : system'.stage p = stage := by rw [hstages,Function.update_self]
    simp [processesStep,hrun,hstage,hcalls] at hstep
  · intro hrun
    simp [processesStep,hrun]

end Processes

def countElements (text : List Char) (separator : Char) : Nat := (text.splitOn separator).length

def createSystemAndChild : List (ProcessesAction (Fin 3) (Fin 1)) :=
  .processInit 0 ⟨['S'],none⟩ :: List.replicate 5 (.run 0 true) ++ .initSystemProcess 0 ::
    .processInit 1 ⟨['s','h'],some ['a',' ','b']⟩ :: List.replicate 8 (.run 1 true)

/-- The command line is `sh a b` while the process is live, and its identifier is not held by the
system process. -/
theorem process_identifiers_child : ∃ s : Processes (Fin 3) (Fin 1),
    (processesSystem (Fin 3) (Fin 1) countElements).ReachableUnder KeepsProcesses s ∧
      s.system.identifier 1 = some 2 ∧ 1 ∈ s.system.processList ∧
      s.system.identifier 0 ≠ some 2 ∧
        ∃ request, (s.system.process 1).Describes countElements request := by
  obtain ⟨s,hreach,hs⟩ := TransitionSystem.exists_reachable
    (processesSystem (Fin 3) (Fin 1) countElements) KeepsProcesses
    ⟨processSystemPreinit 0,fun _ => newProcess⟩ ⟨0,rfl⟩ createSystemAndChild
    (fun s => decide (s.system.stage 1 = .live) && decide (s.system.identifier 1 = some 2))
    (by simp [createSystemAndChild,TransitionSystem.RunSatisfies,KeepsProcesses,List.replicate])
    (by decide +kernel)
  simp only [Bool.and_eq_true,decide_eq_true_eq] at hs
  obtain ⟨_,hunique,_,_,hlive,_⟩ := process_identifiers hreach
  obtain ⟨hlisted,_,_,hrequest⟩ := hlive 1 hs.1
  refine ⟨s,hreach,hs.2,hlisted,?_,hrequest⟩
  intro hzero
  have heq := (hunique 1 2 hs.2).2 0 hzero
  simp at heq

/-- The child runs its only thread, which exits behind `ProcessCreate`; the handle is the last
reference. -/
def runAndCloseChild : List (LifetimeAction (Fin 1)) :=
  [.prepare true,.insertThread .umApplicationRun 0,.insertReference 0,
    .finishCreate .umApplicationRun true true,.closeThread,.referenceProcess,.exit 0,.cleanup 0,
    .removeCount 0,.removeDereference 0,.removeLast 0,.processCloseHandle]

/-- A second process takes its identifier while the first is destroyed. -/
theorem process_halts_iff_second : ∃ s : Processes (Fin 3) (Fin 1),
    (processesSystem (Fin 3) (Fin 1) countElements).ReachableUnder KeepsProcesses s ∧
      s.system.stage 2 = .retrievePid ∧ s.system.stage 1 = .freePid ∧
      processesStep countElements s (.run 2 true) ≠ none ∧
      processesStep countElements s (.run 1 true) ≠ none := by
  obtain ⟨s,hreach,hs⟩ := TransitionSystem.exists_reachable
    (processesSystem (Fin 3) (Fin 1) countElements) KeepsProcesses
    ⟨processSystemPreinit 0,fun _ => newProcess⟩ ⟨0,rfl⟩
    (createSystemAndChild ++ runAndCloseChild.map (.lifetime 1) ++
      .processInit 2 ⟨['x'],none⟩ :: List.replicate 5 (.run 1 true) ++
      List.replicate 3 (.run 2 true))
    (fun s => decide (s.system.systemProcess = some 0) &&
      decide (s.system.stage 2 = .retrievePid) && decide (s.system.stage 1 = .freePid) &&
      decide (s.system.identifier 0 = some 1) && decide (s.system.identifier 1 = some 2) &&
      decide (s.system.identifier 2 = none))
    (by decide +kernel) (by decide +kernel)
  simp only [Bool.and_eq_true,decide_eq_true_eq] at hs
  obtain ⟨⟨⟨⟨⟨hsystem,hsecond⟩,hfirst⟩,hzero⟩,hone⟩,htwo⟩ := hs
  refine ⟨s,hreach,hsecond,hfirst,?_,?_⟩
  · intro hnone
    obtain ⟨_,hall⟩ := (process_halts_iff hreach hsystem (p := 2) (by decide)
      (by simp [hsecond]) true).mp hnone
    obtain ⟨q,hq⟩ := hall 3 (by decide)
    fin_cases q <;> simp [hzero,hone,htwo] at hq
  · intro hnone
    have hstage := ((process_halts_iff hreach hsystem (p := 1) (by decide)
      (by simp [hfirst]) true).mp hnone).1
    rw [hfirst] at hstage
    cases hstage

end Hal9000
