import Hal9000.Threads.ReadyList

/-!
# The state field of a thread

`THREAD_STATE` documents where a thread is. Nothing sets the field of a thread that is taken off
the ready list, so that the field tells the place of every thread only as long as none is.
-/

namespace Hal9000

variable {Cpu Thread : Type}

/-- The thread that is made dying at a step. -/
def dyingThreads (s : SchedState Cpu Thread) : SchedAction Cpu Thread → List Thread
  | .run c =>
    match s.pc c with
    | .exitDying => [s.currentThread c]
    | _ => []
  | _ => []

def SchedState.NoLocks (s : SchedState Cpu Thread) : Prop :=
  s.readyThreadsLock = none ∧ ∀ t, s.blockLock t = none

/-- What `THREAD_STATE` says of a thread. -/
structure SchedState.StateTells (s : SchedState Cpu Thread) (exited : List Thread) (t : Thread) :
    Prop where
  dying : s.state t = .dying ↔ t ∈ exited
  running : t ∉ exited → (s.state t = .running ↔ ∃ c, s.currentThread c = t)
  ready : s.state t = .ready ↔ t ∈ s.readyThreadsList
  /-- Neither on a CPU nor on the list: the state that `ThreadUnblock` asserts. -/
  blocked : t ∉ exited → (s.state t = .blocked ↔
    (∀ c, s.currentThread c ≠ t) ∧ t ∉ s.readyThreadsList)

/-- `_ThreadGetReadyThread` takes no thread off the ready list. -/
def SchedState.KeepsReadyList (s : SchedState Cpu Thread) : SchedAction Cpu Thread → Prop
  | .run c => s.pc c = .getReadyThread → s.readyThreadsList = []
  | _ => True

instance [DecidableEq Thread] (s : SchedState Cpu Thread) :
    ∀ action, Decidable (s.KeepsReadyList action)
  | .run c => inferInstanceAs (Decidable (s.pc c = .getReadyThread → s.readyThreadsList = []))
  | .threadYield _ | .threadTakeBlockLock _ | .threadUnblock _ _ | .threadExit _ | .threadInit _ _
  | .threadSetupInitialState _ _ | .threadStart _ _ | .threadCloseHandle _ | .threadTerminate _ =>
    .isTrue trivial

variable [DecidableEq Cpu] [DecidableEq Thread] {s s' : SchedState Cpu Thread} {c : Cpu}
  {exited : List Thread}

private theorem SchedRun.not_running (hrun : SchedRun s c s') {t : Thread}
    (ht : s.state t ≠ .running) : s'.state t ≠ .running := by
  rcases hrun.state_cases t with hsame | ⟨_,⟨_,hstate⟩ | ⟨_,hstate,_⟩ | ⟨_,hstate,_⟩⟩ | ⟨_,_,hstate⟩
  · rwa [hsame]
  all_goals
    rw [hstate]
    simp

private theorem SchedCall.state_cases (hcall : SchedCall s s') (t : Thread) :
    s'.state t = s.state t ∨ s.stage t = .absent ∧ s'.state t = .blocked ∨
      s'.stage t = .idle ∧ s'.state t = .ready ∧ s.stage t = .setUp := by
  rcases hcall.stage_cases t with ⟨_,hsame,_⟩ | ⟨habsent,_,hblocked,_⟩ | ⟨_,_,hsame,_⟩ |
    ⟨hsetUp,_,⟨hidle,hready⟩ | ⟨_,hsame⟩⟩
  · exact Or.inl hsame
  · exact Or.inr (Or.inl ⟨habsent,hblocked⟩)
  · exact Or.inl hsame
  · exact Or.inr (Or.inr ⟨hidle,hready,hsetUp⟩)
  · exact Or.inl hsame

/-- The thread on the CPU is about to leave it, or dies. -/
def SchedPc.isLeaving (pc : SchedPc Thread) : Bool := pc.isBlocking || pc.isExiting

private theorem SchedRun.leaving_cases (hrun : SchedRun s c s')
    (hleaving : (s'.pc c).isLeaving = true) : (s.pc c).isLeaving = true ∨
      s.running c = s.currentThread c ∧ s'.state (s.currentThread c) ≠ .running := by
  cases hrun with
  | yieldIdle hpc | yieldInsert hpc | blockState hpc | exitDying hpc =>
    right
    simp [SchedState.running,SchedState.setState,SchedPc.executed,hpc]
  | @unblockRelease t caller hpc =>
    cases caller with
    | thread => simp [SchedState.setPc,SchedState.setBlockLock,UnblockCaller.resume,
        SchedPc.isLeaving,SchedPc.isBlocking,SchedPc.isExiting] at hleaving
    | exit => simp [hpc,SchedPc.isLeaving,SchedPc.isExiting,UnblockCaller.isExit]
  | unblockLock hpc | unblockState hpc | unblockReadyLock hpc | unblockInsert hpc
  | unblockReleaseReady hpc =>
    left
    simpa [SchedState.setPc,SchedState.setState,SchedState.setBlockLock,SchedPc.isLeaving,
      SchedPc.isBlocking,SchedPc.isExiting,hpc] using hleaving
  | blockLock hpc | exitNotify hpc | schedule hpc | pickIdle hpc | pick hpc | setCurrentThread hpc =>
    left
    rw [hpc]
    rfl
  | _ =>
    simp [SchedState.setPc,SchedState.setBlockLock,SchedState.setStack,SchedState.setPrevious,
      SchedState.threadDereference,SchedState.setRefCnt,SchedPc.isLeaving,SchedPc.isBlocking,
      SchedPc.isExiting] at hleaving

private theorem SchedRun.leaving (hrun : SchedRun s c s')
    (h : ∀ c, (s.pc c).isLeaving = true → s.state (s.running c) ≠ .running) (c' : Cpu)
    (hleaving : (s'.pc c').isLeaving = true) : s'.state (s'.running c') ≠ .running := by
  by_cases hc : c' = c
  · subst hc
    rcases hrun.running_cases c' with hsame | ⟨_,_,hpc⟩
    · rw [hsame]
      rcases hrun.leaving_cases hleaving with hold | ⟨hrunning,hstate⟩
      · exact hrun.not_running (h c' hold)
      · rwa [hrunning]
    · rw [hpc] at hleaving
      cases hleaving
  · rw [(hrun.pc_other hc).1] at hleaving
    rw [(hrun.running_other hc).1]
    exact hrun.not_running (h c' hleaving)

private theorem SchedCall.leaving (hinv : SchedInv s) (hcall : SchedCall s s')
    (h : ∀ c, (s.pc c).isLeaving = true → s.state (s.running c) ≠ .running) (c : Cpu)
    (hleaving : (s'.pc c).isLeaving = true) : s'.state (s'.running c) ≠ .running := by
  have hold : (s.pc c).isLeaving = true := by
    rcases hcall.pc_cases hinv c with hsame | ⟨_,hnext | ⟨hnext,_⟩ | ⟨hnext,_⟩⟩ |
      ⟨t,caller,hpc,hnext,_⟩
    · rwa [hsame] at hleaving
    · rw [hnext] at hleaving
      cases hleaving
    · rw [hnext] at hleaving
      cases hleaving
    · rw [hnext] at hleaving
      cases hleaving
    · rw [hnext] at hleaving
      rw [hpc]
      cases caller with
      | thread => cases hleaving
      | exit => rfl
  rw [(hcall.running hinv).1,(hcall.live (hinv.runs c)).2]
  exact h c hold

private theorem SchedRun.current_running (hrun : SchedRun s c s')
    (h : ∀ c, (s.pc c).isLeaving = true → s.state (s.running c) ≠ .running) {c' : Cpu}
    (hstate : s.state (s.currentThread c') = .running) :
    s'.currentThread c' = s.currentThread c' := by
  by_cases hc : c' = c
  · subst hc
    cases hrun with
    | setCurrentThread hpc =>
      have hrunning : s.running c' = s.currentThread c' := by
        simp only [SchedState.running,hpc]
        rfl
      have hleft := h c' (by rw [hpc]; rfl)
      rw [hrunning] at hleft
      exact absurd hstate hleft
    | _ => rfl
  · exact (hrun.pc_other hc).2

/-- The states of the threads in a run that takes no thread off the ready list. -/
private structure StateInv (p : SchedState Cpu Thread × List Thread) : Prop where
  leaving : ∀ c, (p.1.pc c).isLeaving = true → p.1.state (p.1.running c) ≠ .running
  running : ∀ t, p.1.state t = .running → ∃ c, p.1.currentThread c = t
  ready : ∀ t, p.1.state t = .ready → p.1.stage t = .idle ∨ t ∈ p.1.readyThreadsList
  dying : ∀ t, p.1.state t = .dying ↔ t ∈ p.2

private theorem SchedRun.ready_cases (hinv : SchedInv s) (hrun : SchedRun s c s') {t : Thread}
    (hready : s'.state t = .ready) :
    s.state t = .ready ∨ s.stage t = .idle ∨ t ∈ s'.readyThreadsList := by
  rcases hrun.state_cases t with hsame | ⟨ht,⟨hpc,_⟩ | ⟨_,hstate,_⟩ | ⟨_,hstate,_⟩⟩ | ⟨caller,hpc,_⟩
  · left
    rwa [hsame] at hready
  · right
    cases hrun with
    | yieldIdle _ hidle =>
      left
      rw [ht]
      exact (hinv.idle _).mpr ⟨c,hidle⟩
    | yieldInsert =>
      right
      rw [ht]
      exact List.mem_append_right _ (List.mem_singleton.mpr rfl)
    | _ => simp_all
  · rw [hstate] at hready
    cases hready
  · rw [hstate] at hready
    cases hready
  · right
    right
    cases hrun with
    | @unblockInsert t' caller' hpc' =>
      rw [hpc] at hpc'
      obtain ⟨rfl,_⟩ := SchedPc.unblockInsert.inj hpc'
      exact List.mem_append_right _ (List.mem_singleton.mpr rfl)
    | _ => simp_all

omit [DecidableEq Cpu] [DecidableEq Thread] in
private theorem SchedInv.current_live (hinv : SchedInv s) (hpc : (s.pc c).isExiting = false) :
    s.state (s.currentThread c) ≠ .dying := by
  have hrunning : s.running c = s.currentThread c := by
    unfold SchedState.running
    cases hcase : s.pc c with
    | threadSwitch old =>
      rw [hcase] at hpc
      cases hpc
    | _ => rfl
  intro hdying
  rw [← hrunning] at hdying
  have hexiting := hinv.exiting c hdying
  rw [hpc] at hexiting
  cases hexiting

private theorem SchedRun.dying_iff (hinv : SchedInv s) (hrun : SchedRun s c s') (t : Thread) :
    s'.state t = .dying ↔ s.state t = .dying ∨ t ∈ dyingThreads s (.run c) := by
  rcases hrun.state_cases t with hsame | ⟨ht,⟨hpc,hstate⟩ | ⟨hpc,hstate,_⟩ | ⟨hpc,hstate,_⟩⟩ |
    ⟨caller,hpc,hstate⟩
  · rw [hsame]
    constructor
    · exact Or.inl
    · rintro (hdying | hmem)
      · exact hdying
      · cases hrun with
        | exitDying hpc =>
          rw [← hsame]
          simp only [dyingThreads,hpc,List.mem_singleton] at hmem
          simp [SchedState.setState,hmem]
        | noPrevious hpc =>
          rcases hpc with hpc | hpc | hpc <;> simp [dyingThreads,hpc] at hmem
        | _ => simp_all [dyingThreads]
  · have hlive := hinv.current_live (c := c) (by rw [hpc]; rfl)
    rw [← ht] at hlive
    simp [hstate,hlive,dyingThreads,hpc]
  · have hlive := hinv.current_live (c := c) (by rw [hpc]; rfl)
    rw [← ht] at hlive
    simp [hstate,hlive,dyingThreads,hpc]
  · simp [hstate,dyingThreads,hpc,← ht]
  · have hblocked := hinv.wakes c t (by rw [hpc]; rfl)
    simp [hstate,hblocked,dyingThreads,hpc]

private theorem StateInv.run (hinv : SchedInv s) (h : StateInv (s,exited))
    (hguard : s.KeepsReadyList (.run c)) (hrun : SchedRun s c s') :
    StateInv (s',exited ++ dyingThreads s (.run c)) := by
  have hlist : ∀ t, t ∈ s.readyThreadsList → t ∈ s'.readyThreadsList := by
    intro t ht
    cases hrun with
    | yieldInsert | unblockInsert => exact List.mem_append_left _ ht
    | keep hpc hlist | pick hpc hlist =>
      rw [hguard hpc] at hlist
      cases hlist
    | _ => exact ht
  refine ⟨hrun.leaving h.leaving,?_,?_,?_⟩
  · intro t ht
    have hold : s.state t = .running := by
      by_contra hne
      exact hrun.not_running hne ht
    obtain ⟨c',rfl⟩ := h.running t hold
    exact ⟨c',hrun.current_running h.leaving hold⟩
  · intro t ht
    show s'.stage t = .idle ∨ _
    rw [hrun.stage.1]
    rcases hrun.ready_cases hinv ht with hready | hidle | hmem
    · exact (h.ready t hready).imp id (hlist t)
    · exact Or.inl hidle
    · exact Or.inr hmem
  · intro t
    rw [List.mem_append,← h.dying t]
    exact hrun.dying_iff hinv t

private theorem StateInv.call (hinv : SchedInv s) (h : StateInv (s,exited))
    (hcall : SchedCall s s') : StateInv (s',exited) := by
  refine ⟨hcall.leaving hinv h.leaving,?_,?_,?_⟩
  · intro t ht
    show ∃ c, s'.currentThread c = t
    rw [hcall.current.1]
    rcases hcall.state_cases t with hsame | ⟨_,hblocked⟩ | ⟨_,hready,_⟩
    · rw [hsame] at ht
      exact h.running t ht
    · rw [hblocked] at ht
      cases ht
    · rw [hready] at ht
      cases ht
  · intro t ht
    show s'.stage t = .idle ∨ t ∈ s'.readyThreadsList
    rw [hcall.current.2.1]
    rcases hcall.state_cases t with hsame | ⟨_,hblocked⟩ | ⟨hidle,_⟩
    · rw [hsame] at ht
      rcases h.ready t ht with hidle | hmem
      · left
        rw [(hcall.live (Or.inl hidle)).1]
        exact hidle
      · exact Or.inr hmem
    · rw [hblocked] at ht
      cases ht
    · exact Or.inl hidle
  · intro t
    show s'.state t = .dying ↔ t ∈ exited
    rw [← show s.state t = .dying ↔ t ∈ exited from h.dying t]
    rcases hcall.state_cases t with hsame | ⟨habsent,hblocked⟩ | ⟨_,hready,hsetUp⟩
    · rw [hsame]
    · have hlive : s.state t ≠ .dying := by
        intro hdying
        rw [hinv.dying t hdying] at habsent
        cases habsent
      simp [hblocked,hlive]
    · have hlive : s.state t ≠ .dying := by
        intro hdying
        rw [hinv.dying t hdying] at hsetUp
        cases hsetUp
      simp [hready,hlive]

private theorem stateInv_of_reachable {p : SchedState Cpu Thread × List Thread}
    (h : ((schedSystem Cpu Thread).recording dyingThreads).ReachableUnder
      (fun p action => p.1.KeepsReadyList action) p) : StateInv p := by
  apply h.invariant
  · intro p hp
    obtain ⟨hinit,hrecord⟩ := hp
    have hstate : ∀ t, p.1.state t = .running ∧ (∃ c, p.1.currentThread c = t) ∨
        p.1.state t = .blocked := by
      intro t
      by_cases ht : ∃ c, p.1.currentThread c = t
      · obtain ⟨c,rfl⟩ := ht
        exact Or.inl ⟨(hinit.main c).2.1,c,rfl⟩
      · exact Or.inr (hinit.others t fun c hc => ht ⟨c,hc⟩).2.1
    refine ⟨?_,?_,?_,?_⟩
    · intro c hleaving
      rw [hinit.pc c] at hleaving
      cases hleaving
    · intro t ht
      rcases hstate t with ⟨_,hcurrent⟩ | hblocked
      · exact hcurrent
      · rw [hblocked] at ht
        cases ht
    · intro t ht
      rcases hstate t with ⟨hrunning,_⟩ | hblocked
      · rw [hrunning] at ht
        cases ht
      · rw [hblocked] at ht
        cases ht
    · intro t
      rcases hstate t with ⟨hrunning,_⟩ | hblocked
      · simp [hrunning,hrecord]
      · simp [hblocked,hrecord]
  · intro p action p' hreach hinv hguard hstep
    obtain ⟨hstep,hrecord⟩ := TransitionSystem.recording_step.mp hstep
    have hsched : SchedInv p.1 := schedInv_of_reachable
      ((hreach.of_recording).mono fun _ _ _ => trivial)
    rcases schedStep_cases hstep with ⟨c,rfl,hrun⟩ | ⟨hother,hcall⟩
    · have hrun' := hinv.run hsched hguard hrun
      rwa [← hrecord] at hrun'
    · have hnone : dyingThreads p.1 action = [] := by
        cases action with
        | run c => exact absurd rfl (hother c)
        | _ => rfl
      have hcall' := hinv.call hsched hcall
      rw [hnone,List.append_nil] at hrecord
      rwa [← hrecord] at hcall'

omit [DecidableEq Cpu] [DecidableEq Thread] in
private theorem SchedInv.running_eq (h : SchedInv s) (hlock : s.readyThreadsLock = none) (c : Cpu) :
    s.running c = s.currentThread c := by
  rcases s.current_cases c with hsame | hchosen
  · exact hsame
  · have hown := h.places.lock c (h.places.dispatching c _ hchosen)
    change s.readyThreadsLock = some c at hown
    rw [hlock] at hown
    cases hown

/-- As long as no thread is taken off the ready list, the state field tells where a thread is
whenever no lock of the scheduler is held. -/
theorem state_tells (h : ((schedSystem Cpu Thread).recording dyingThreads).ReachableUnder
    (fun p action => p.1.KeepsReadyList action) (s,exited)) (hlocks : s.NoLocks) (t : Thread)
    (hidle : s.stage t ≠ .idle) : s.StateTells exited t := by
  obtain ⟨_,hrunning,hready,hdying⟩ := stateInv_of_reachable h
  have hreach : (schedSystem Cpu Thread).Reachable s := h.of_recording.mono fun _ _ _ => trivial
  have hinv := schedInv_of_reachable hreach
  have hcurrent : ∀ c, s.currentThread c = t → s.state t ≠ .ready ∧ s.state t ≠ .blocked := by
    intro c ht
    constructor
    · intro hstate
      have hmem := (hready t hstate).resolve_left hidle
      rw [← ht] at hmem
      have hown := (ready_list_wellPlaced hreach).listed c hmem
      rw [hlocks.1] at hown
      cases hown
    · intro hstate
      have hsame := (hinv.running_eq hlocks.1 c).trans ht
      have hstarted := hinv.runs c
      rw [hsame] at hstarted
      obtain ⟨hown,_⟩ := hinv.blocked c (by rw [hsame]; exact hstate)
        (by rw [hsame]; exact hstarted.resolve_left hidle)
      rw [hlocks.2] at hown
      cases hown
  refine ⟨hdying t,?_,?_,?_⟩
  · intro hlive
    constructor
    · exact hrunning t
    · rintro ⟨c,ht⟩
      obtain ⟨hnotReady,hnotBlocked⟩ := hcurrent c ht
      cases hstate : s.state t with
      | running => rfl
      | ready => exact absurd hstate hnotReady
      | blocked => exact absurd hstate hnotBlocked
      | dying => exact absurd ((hdying t).mp hstate) hlive
  · constructor
    · intro hstate
      exact (hready t hstate).resolve_left hidle
    · intro hmem
      exact (hinv.ready t hmem).1
  · intro hlive
    constructor
    · intro hstate
      refine ⟨fun c ht => (hcurrent c ht).2 hstate,fun hmem => ?_⟩
      rw [(hinv.ready t hmem).1] at hstate
      cases hstate
    · rintro ⟨hoff,hunlisted⟩
      cases hstate : s.state t with
      | running =>
        obtain ⟨c,hc⟩ := hrunning t hstate
        exact absurd hc (hoff c)
      | ready => exact absurd ((hready t hstate).resolve_left hidle) hunlisted
      | blocked => rfl
      | dying => exact absurd ((hdying t).mp hstate) hlive

/-- Thread 0 creates thread 2, which waits on the ready list. -/
theorem state_tells_created : ∃ s : SchedState (Fin 1) (Fin 3),
    ((schedSystem (Fin 1) (Fin 3)).recording dyingThreads).ReachableUnder
        (fun p action => p.1.KeepsReadyList action) (s,[]) ∧
      s.StateTells [] 0 ∧ s.StateTells [] 2 ∧ s.readyThreadsList = [2] := by
  obtain ⟨p,hreach,hp⟩ := TransitionSystem.exists_reachable
    ((schedSystem (Fin 1) (Fin 3)).recording dyingThreads) (fun p action => p.1.KeepsReadyList action)
    (.start fun _ => 0,[]) ⟨SchedState.start_initial fun _ _ _ => Subsingleton.elim _ _,rfl⟩
    (oneCpu ++ [.threadInit 0 2,.threadSetupInitialState 0 2,.threadStart 0 2] ++
      List.replicate 6 (.run 0))
    (fun p => decide (p.2 = [] ∧ p.1.readyThreadsLock = none ∧ (∀ t, p.1.blockLock t = none) ∧
      p.1.readyThreadsList = [2] ∧ p.1.stage 0 = .started ∧ p.1.stage 2 = .started))
    (by decide +kernel) (by decide +kernel)
  obtain ⟨s,exited⟩ := p
  obtain ⟨rfl,hready,hblock,hlist,hstage,hstage'⟩ := of_decide_eq_true hp
  have hstage : s.stage 0 = .started := hstage
  have hstage' : s.stage 2 = .started := hstage'
  exact ⟨s,hreach,state_tells hreach ⟨hready,hblock⟩ 0 (by rw [hstage]; simp),
    state_tells hreach ⟨hready,hblock⟩ 2 (by rw [hstage']; simp),hlist⟩

/-- Once thread 0 has yielded, thread 2 is current, and ready by its state. -/
theorem ready_while_current : ∃ s : SchedState (Fin 1) (Fin 3),
    (schedSystem (Fin 1) (Fin 3)).Reachable s ∧ s.NoLocks ∧ s.stage 2 = .started ∧
    s.currentThread 0 = 2 ∧ s.state 2 = .ready ∧ 2 ∉ s.readyThreadsList := by
  obtain ⟨s,hreach,hs⟩ := TransitionSystem.exists_reachable (schedSystem (Fin 1) (Fin 3))
    (fun _ _ => True) (.start fun _ => 0) (SchedState.start_initial fun _ _ _ => Subsingleton.elim _ _)
    (oneCpu ++ createAndYield ++ List.replicate 6 (.run 0))
    (fun s => decide (s.readyThreadsLock = none ∧ (∀ t, s.blockLock t = none) ∧
      s.stage 2 = .started ∧ s.currentThread 0 = 2 ∧ s.state 2 = .ready ∧ 2 ∉ s.readyThreadsList))
    (TransitionSystem.runSatisfies_of_forall (fun _ _ => trivial) _ _) (by decide +kernel)
  obtain ⟨hready,hblock,hrest⟩ := of_decide_eq_true hs
  exact ⟨s,hreach,⟨hready,hblock⟩,hrest⟩

end Hal9000
