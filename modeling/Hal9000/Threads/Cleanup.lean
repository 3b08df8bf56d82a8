import Hal9000.Threads.ReadyList

/-!
# The clean-up after a switch

`ThreadCleanupPostSchedule` drops the reference of the scheduler to a thread that has exited. It
looks at the thread after it has released the lock of the ready list, when the thread may run on
another CPU. What follows is about the runs in which no thread exits meanwhile.
-/

namespace Hal9000

variable {Cpu Thread : Type}

/-- In `ThreadCleanupPostSchedule`. -/
def SchedPc.cleans : SchedPc Thread → Bool
  | .releaseReady | .inspectLock | .inspectState | .dereference => true
  | _ => false

/-- In `_ThreadSchedule`, after it has saved the previous thread. -/
def SchedPc.switches : SchedPc Thread → Bool
  | .getReadyThread | .setCurrentThread _ | .threadSwitch _ => true
  | _ => false

/-- The CPU is on the stack of the thread, or has yet to clean up after it. -/
def SchedState.Keeps (s : SchedState Cpu Thread) (c : Cpu) (t : Thread) : Prop :=
  s.running c = t ∨ (s.pc c).cleans = true ∧ s.previousThread c = some t

/-- The threads that a step dereferences for the scheduler. -/
def cleanupEvents (s : SchedState Cpu Thread) : SchedAction Cpu Thread → List Thread
  | .run c => match s.pc c with
    | .dereference => (s.previousThread c).toList
    | _ => []
  | _ => []

/-- The thread that sets its state to dying is not the one that another CPU, which has released
the lock of the ready list, looks at. -/
def NoLateInspection (s : SchedState Cpu Thread) : SchedAction Cpu Thread → Prop
  | .run c => s.pc c = .exitDying → ∀ c', s.pc c' = .inspectLock ∨ s.pc c' = .inspectState →
      s.previousThread c' ≠ some (s.currentThread c)
  | _ => True

/-- A thread that is dying is in one place: with one CPU, or cleaned up. -/
structure CleanupInv (s : SchedState Cpu Thread) (record : List Thread) : Prop where
  switches : ∀ c, (s.pc c).switches = true → s.previousThread c = some (s.running c)
  released : ∀ c t, s.pc c = .releaseReady → s.previousThread c = some t →
    s.running c = t ∨ ∀ c', s.running c' ≠ t
  dereferences : ∀ c t, s.pc c = .dereference → s.previousThread c = some t → s.state t = .dying
  unique : ∀ t c c', s.state t = .dying → s.Keeps c t → s.Keeps c' t → c = c'
  kept : ∀ t, s.state t = .dying → t ∈ record ∨ ∃ c, s.Keeps c t
  recorded : ∀ t, t ∈ record → s.state t = .dying ∧ ∀ c, ¬s.Keeps c t
  nodup : record.Nodup

variable [DecidableEq Cpu] [DecidableEq Thread] {s s' : SchedState Cpu Thread} {c : Cpu}
  {record : List Thread}

instance [Fintype Cpu] (s : SchedState Cpu Thread) : ∀ action, Decidable (NoLateInspection s action)
  | .run c => inferInstanceAs (Decidable (s.pc c = .exitDying → ∀ _, _))
  | .threadYield _ | .threadTakeBlockLock _ | .threadUnblock _ _ | .threadExit _ | .threadInit _ _
  | .threadSetupInitialState _ _ | .threadStart _ _ | .threadCloseHandle _ | .threadTerminate _ =>
    .isTrue trivial

private theorem SchedRun.previous_other (hrun : SchedRun s c s') {c' : Cpu} (hc : c' ≠ c) :
    s'.previousThread c' = s.previousThread c' := by
  cases hrun with
  | schedule => exact Function.update_of_ne hc _ _
  | dereference => exact Function.update_of_ne hc _ _
  | _ => rfl

private theorem SchedRun.keeps_other (hrun : SchedRun s c s') {c' : Cpu} (hc : c' ≠ c)
    (t : Thread) : s'.Keeps c' t ↔ s.Keeps c' t := by
  simp only [SchedState.Keeps,(hrun.running_other hc).1,(hrun.pc_other hc).1,
    hrun.previous_other hc]

theorem SchedRun.still_dying (h : SchedInv s) (hrun : SchedRun s c s') {t : Thread}
    (hdying : s.state t = .dying) : s'.state t = .dying := by
  rcases hrun.state_cases t with hsame | ⟨heq,hown⟩ | ⟨caller,hpc,_⟩
  · rw [hsame,hdying]
  · -- the CPU is where no dying thread is
    have hexiting : s.running c = s.currentThread c → (s.pc c).isExiting = true := by
      intro hrunning
      apply h.exiting c
      rw [hrunning,← heq,hdying]
    rcases hown with ⟨hpc,_⟩ | ⟨hpc,_⟩ | ⟨_,hdying',_⟩
    · have := hexiting (by simp only [SchedState.running,hpc]; rfl)
      rw [hpc] at this
      cases this
    · have := hexiting (by simp only [SchedState.running,hpc]; rfl)
      rw [hpc] at this
      cases this
    · exact hdying'
  · have hblocked := h.wakes c t (by rw [hpc]; rfl)
    rw [hdying] at hblocked
    cases hblocked

private theorem SchedRun.new_dying (hrun : SchedRun s c s') {t : Thread}
    (hlive : s.state t ≠ .dying) (hdying : s'.state t = .dying) :
    t = s.currentThread c ∧ s.pc c = .exitDying ∧ s'.pc c = .exitNotify := by
  rcases hrun.state_cases t with hsame | ⟨heq,hown⟩ | ⟨_,_,hready⟩
  · rw [hsame] at hdying
    exact absurd hdying hlive
  · rcases hown with ⟨_,hready⟩ | ⟨_,hblocked,_⟩ | ⟨hpc,_,hpc'⟩
    · rw [hready] at hdying
      cases hdying
    · rw [hblocked] at hdying
      cases hdying
    · exact ⟨heq,hpc,hpc'⟩
  · rw [hready] at hdying
    cases hdying

private theorem SchedRun.keeps_self (h : SchedInv s) (hinv : CleanupInv s record)
    (hrun : SchedRun s c s') {t : Thread} (hdying : s.state t = .dying)
    (hevents : t ∉ cleanupEvents s (.run c)) : s'.Keeps c t ↔ s.Keeps c t := by
  have hstarted := h.dying t hdying
  cases hrun with
  | @threadSwitch old hpc =>
    have hprev := hinv.switches c (by rw [hpc]; rfl)
    have hchosen : s.chosen c = some (s.currentThread c) := by
      simp only [SchedState.chosen,hpc]
      rfl
    have hne : s.currentThread c ≠ t := by
      intro heq
      rw [heq] at hchosen
      rcases h.chosen c t hchosen with hidle | ⟨_,hready⟩
      · rw [hstarted] at hidle
        cases hidle
      · rw [hdying] at hready
        cases hready
    simp only [SchedState.running,hpc,SchedPc.executed] at hprev
    simp [SchedState.Keeps,SchedState.running,SchedState.setStack,SchedState.setPc,hpc,hprev,
      SchedPc.executed,SchedPc.cleans,hne]
  | keepIdle hpc | keep hpc =>
    have hprev := hinv.switches c (by rw [hpc]; rfl)
    simp only [SchedState.running,hpc,SchedPc.executed] at hprev
    simp [SchedState.Keeps,SchedState.running,SchedState.setPc,hpc,hprev,SchedPc.executed,
      SchedPc.cleans]
  | @releaseBlock prev hpc hprev hown hstate =>
    have hne : prev ≠ t := by
      intro heq
      rw [heq] at hstate
      rcases hstate with hblocked | hidle
      · rw [hdying] at hblocked
        cases hblocked
      · rw [(h.idle t).mpr ⟨c,hidle⟩] at hstarted
        cases hstarted
    simp [SchedState.Keeps,SchedState.running,SchedState.setPc,SchedState.setBlockLock,hpc,hprev,
      SchedPc.executed,SchedPc.cleans,hne]
  | @inspectLive prev hpc hprev hlive =>
    have hne : prev ≠ t := by
      intro heq
      rw [heq] at hlive
      exact hlive hdying
    simp [SchedState.Keeps,SchedState.running,SchedState.setPc,hpc,hprev,SchedPc.executed,
      SchedPc.cleans,hne]
  | @dereference prev hpc hprev =>
    have hne : prev ≠ t := by
      intro heq
      apply hevents
      simp [cleanupEvents,hpc,hprev,heq]
    simp [SchedState.Keeps,SchedState.running,SchedState.setPc,SchedState.setPrevious,
      SchedState.threadDereference,SchedState.setRefCnt,hpc,hprev,SchedPc.executed,
      SchedPc.cleans,hne]
  | noPrevious hpc hprev =>
    rcases hpc with hpc | hpc | hpc <;>
      simp [SchedState.Keeps,SchedState.running,SchedState.setPc,hpc,hprev,SchedPc.executed,
        SchedPc.cleans]
  | @setCurrentThread next hpc =>
    simp [SchedState.Keeps,SchedState.running,SchedState.setPc,hpc,SchedPc.executed,SchedPc.cleans]
  | @unblockRelease t' caller hpc =>
    cases caller <;>
      simp [SchedState.Keeps,SchedState.running,SchedState.setPc,SchedState.setBlockLock,hpc,
        UnblockCaller.resume,SchedPc.executed,SchedPc.cleans]
  | yieldLock hpc | yieldIdle hpc | yieldInsert hpc | forcedExit hpc | threadBlock hpc
  | blockState hpc | blockLock hpc | unblockLock hpc | unblockState hpc | unblockReadyLock hpc
  | unblockInsert hpc | unblockReleaseReady hpc | exitUnlock hpc | exitDying hpc | exitNotify hpc | schedule hpc
  | pickIdle hpc | pick hpc | releaseReady hpc | inspectLock hpc | inspectDying hpc =>
    simp [SchedState.Keeps,SchedState.running,SchedState.setPc,SchedState.setState,
      SchedState.setBlockLock,SchedState.setPrevious,hpc,SchedPc.executed,SchedPc.cleans]

omit [DecidableEq Cpu] [DecidableEq Thread] in
private theorem mem_cleanupEvents {t : Thread} (ht : t ∈ cleanupEvents s (.run c)) :
    s.pc c = .dereference ∧ s.previousThread c = some t := by
  cases hpc : s.pc c with
  | dereference =>
    simp only [cleanupEvents,hpc,Option.mem_toList] at ht
    exact ⟨rfl,ht⟩
  | _ =>
    simp only [cleanupEvents,hpc] at ht
    cases ht

private theorem SchedRun.keeps_gone (h : SchedInv s) (hinv : CleanupInv s record)
    (hrun : SchedRun s c s') {t : Thread} (ht : t ∈ cleanupEvents s (.run c)) (c' : Cpu) :
    ¬s'.Keeps c' t := by
  obtain ⟨hpc,hprev⟩ := mem_cleanupEvents ht
  have hdying := hinv.dereferences c t hpc hprev
  have hkeeps : s.Keeps c t := Or.inr ⟨by rw [hpc]; rfl,hprev⟩
  by_cases hc : c' = c
  · rw [hc]
    have hne : s.running c ≠ t := by
      intro hrunning
      have hexiting := h.exiting c (by rw [hrunning,hdying])
      rw [hpc] at hexiting
      cases hexiting
    have hrunning : s'.running c = s.running c := by
      rcases hrun.running_cases c with hsame | ⟨_,hchosen,_⟩
      · exact hsame
      · simp only [SchedState.chosen,hpc] at hchosen
        cases hchosen
    intro hkeeps'
    rcases hkeeps' with heq | ⟨hcleans,_⟩
    · exact hne (hrunning.symm.trans heq)
    · cases hrun with
      | dereference => simp [SchedState.setPc,SchedState.setPrevious,SchedState.threadDereference,
          SchedState.setRefCnt,SchedPc.cleans] at hcleans
      | noPrevious => simp [SchedState.setPc,SchedPc.cleans] at hcleans
      | _ => simp_all
  · rw [hrun.keeps_other hc]
    intro hkeeps'
    exact hc (hinv.unique t c' c hdying hkeeps' hkeeps)

private theorem CleanupInv.switches_step (hinv : CleanupInv s record) (hrun : SchedRun s c s') :
    ∀ c', (s'.pc c').switches = true → s'.previousThread c' = some (s'.running c') := by
  intro c' hswitches
  by_cases hc : c' = c
  · rw [hc] at hswitches ⊢
    have hold := hinv.switches c
    cases hrun with
    | schedule hpc =>
      simp [SchedState.running,SchedState.setPc,SchedState.setPrevious,SchedPc.executed]
    | pickIdle hpc | pick hpc | setCurrentThread hpc =>
      have hprev := hold (by rw [hpc]; rfl)
      simp only [SchedState.running,hpc,SchedPc.executed] at hprev
      simp [SchedState.running,SchedState.setPc,SchedPc.executed,hprev]
    | @unblockRelease t caller hpc =>
      cases caller <;>
        simp [SchedState.setPc,SchedState.setBlockLock,UnblockCaller.resume,SchedPc.switches]
          at hswitches
    | _ =>
      simp [SchedState.setPc,SchedState.setState,SchedState.setBlockLock,SchedState.setPrevious,
        SchedState.setStack,SchedState.threadDereference,SchedState.setRefCnt,SchedPc.switches]
        at hswitches
  · rw [(hrun.pc_other hc).1] at hswitches
    rw [hrun.previous_other hc,(hrun.running_other hc).1]
    exact hinv.switches c' hswitches

private theorem CleanupInv.released_step (h : SchedInv s) (hinv : CleanupInv s record)
    (hrun : SchedRun s c s') : ∀ c' t, s'.pc c' = .releaseReady → s'.previousThread c' = some t →
      s'.running c' = t ∨ ∀ c₁, s'.running c₁ ≠ t := by
  intro c' t hpc' hprev'
  rcases hrun.switch_cases with ⟨hsame,_⟩ | ⟨old,hpc,rfl⟩
  · rw [hsame]
    by_cases hc : c' = c
    · rw [hc] at hpc' hprev' ⊢
      left
      have hold := hinv.switches c
      cases hrun with
      | keepIdle hpc | keep hpc =>
        have hprev := hold (by rw [hpc]; rfl)
        exact Option.some.inj (hprev.symm.trans hprev')
      | @threadSwitch old hpc =>
        rw [← hsame]
        have hprev := hold (by rw [hpc]; rfl)
        rw [← hsame] at hprev
        exact Option.some.inj (hprev.symm.trans hprev')
      | @unblockRelease t' caller hpc =>
        cases caller <;>
          simp [SchedState.setPc,SchedState.setBlockLock,UnblockCaller.resume] at hpc'
      | _ =>
        simp [SchedState.setPc,SchedState.setState,SchedState.setBlockLock,SchedState.setPrevious,
          SchedState.threadDereference,SchedState.setRefCnt] at hpc'
    · rw [(hrun.pc_other hc).1] at hpc'
      rw [hrun.previous_other hc] at hprev'
      exact hinv.released c' t hpc' hprev'
  · -- no other CPU is there: the one that switches has the lock
    have hlock := (h.lock c).mpr (by rw [hpc]; rfl)
    by_cases hc : c' = c
    · rw [hc] at hprev'
      have hprev := hinv.switches c (by rw [hpc]; rfl)
      have heq : s.running c = t := Option.some.inj (hprev.symm.trans hprev')
      right
      intro c₁ hrunning
      by_cases hc₁ : c₁ = c
      · have hne := h.switch_ne hpc
        apply hne
        rw [heq,← hrunning,hc₁]
        simp [SchedState.running,SchedState.setStack,SchedState.setPc,SchedPc.executed]
      · rw [(hrun.running_other hc₁).1,← heq] at hrunning
        exact hc₁ (h.places.running c₁ c hrunning)
    · rw [(hrun.pc_other hc).1] at hpc'
      have hlock' := (h.lock c').mpr (by rw [hpc']; rfl)
      rw [hlock,Option.some.injEq] at hlock'
      exact absurd hlock'.symm hc

private theorem CleanupInv.dereferences_step (h : SchedInv s) (hinv : CleanupInv s record)
    (hrun : SchedRun s c s') : ∀ c' t, s'.pc c' = .dereference → s'.previousThread c' = some t →
      s'.state t = .dying := by
  intro c' t hpc' hprev'
  by_cases hc : c' = c
  · rw [hc] at hpc' hprev'
    cases hrun with
    | @inspectDying prev hpc hprev hdying =>
      have heq : prev = t := Option.some.inj (hprev.symm.trans hprev')
      rw [← heq]
      exact hdying
    | @unblockRelease t' caller hpc =>
      cases caller <;>
        simp [SchedState.setPc,SchedState.setBlockLock,UnblockCaller.resume] at hpc'
    | _ =>
      simp [SchedState.setPc,SchedState.setState,SchedState.setBlockLock,SchedState.setPrevious,
        SchedState.setStack,SchedState.threadDereference,SchedState.setRefCnt] at hpc'
  · rw [(hrun.pc_other hc).1] at hpc'
    rw [hrun.previous_other hc] at hprev'
    exact hrun.still_dying h (hinv.dereferences c' t hpc' hprev')

omit [DecidableEq Cpu] [DecidableEq Thread] in
private theorem CleanupInv.kept_alone (h : SchedInv s) (hinv : CleanupInv s record)
    (hguard : NoLateInspection s (.run c)) (hpc : s.pc c = .exitDying)
    (hlive : s.state (s.currentThread c) ≠ .dying) {c' : Cpu} (hc : c' ≠ c) :
    ¬s.Keeps c' (s.currentThread c) := by
  have hrunning : s.running c = s.currentThread c := by
    simp only [SchedState.running,hpc]
    rfl
  intro hkeeps
  rcases hkeeps with hrunning' | ⟨hcleans,hprev⟩
  · exact hc (h.places.running c' c (hrunning'.trans hrunning.symm))
  · cases hpc' : s.pc c' with
    | releaseReady =>
      rcases hinv.released c' _ hpc' hprev with hrunning' | hnone
      · exact hc (h.places.running c' c (hrunning'.trans hrunning.symm))
      · exact hnone c hrunning
    | inspectLock => exact hguard hpc c' (Or.inl hpc') hprev
    | inspectState => exact hguard hpc c' (Or.inr hpc') hprev
    | dereference => exact hlive (hinv.dereferences c' _ hpc' hprev)
    | _ =>
      rw [hpc'] at hcleans
      cases hcleans

private theorem CleanupInv.keeps_iff (h : SchedInv s) (hinv : CleanupInv s record)
    (hrun : SchedRun s c s') {t : Thread} (hdying : s.state t = .dying)
    (hevents : t ∉ cleanupEvents s (.run c)) (c' : Cpu) : s'.Keeps c' t ↔ s.Keeps c' t := by
  by_cases hc : c' = c
  · rw [hc]
    exact hrun.keeps_self h hinv hdying hevents
  · exact hrun.keeps_other hc t

private theorem CleanupInv.unique_step (h : SchedInv s) (hinv : CleanupInv s record)
    (hguard : NoLateInspection s (.run c)) (hrun : SchedRun s c s') : ∀ t c₁ c₂,
      s'.state t = .dying → s'.Keeps c₁ t → s'.Keeps c₂ t → c₁ = c₂ := by
  intro t c₁ c₂ hdying' h₁ h₂
  by_cases hdying : s.state t = .dying
  · by_cases hevents : t ∈ cleanupEvents s (.run c)
    · exact absurd h₁ (hrun.keeps_gone h hinv hevents c₁)
    · rw [hinv.keeps_iff h hrun hdying hevents] at h₁ h₂
      exact hinv.unique t c₁ c₂ hdying h₁ h₂
  · obtain ⟨heq,hpc,_⟩ := hrun.new_dying hdying hdying'
    rw [heq] at h₁ h₂ hdying
    have honly : ∀ c', s'.Keeps c' (s.currentThread c) → c' = c := by
      intro c' hkeeps
      by_contra hc
      rw [hrun.keeps_other hc] at hkeeps
      exact hinv.kept_alone h hguard hpc hdying hc hkeeps
    rw [honly c₁ h₁,honly c₂ h₂]

private theorem CleanupInv.kept_step (h : SchedInv s) (hinv : CleanupInv s record)
    (hrun : SchedRun s c s') : ∀ t, s'.state t = .dying →
      t ∈ record ++ cleanupEvents s (.run c) ∨ ∃ c', s'.Keeps c' t := by
  intro t hdying'
  by_cases hdying : s.state t = .dying
  · by_cases hevents : t ∈ cleanupEvents s (.run c)
    · exact Or.inl (List.mem_append_right _ hevents)
    · rcases hinv.kept t hdying with hrecord | ⟨c',hkeeps⟩
      · exact Or.inl (List.mem_append_left _ hrecord)
      · exact Or.inr ⟨c',(hinv.keeps_iff h hrun hdying hevents c').mpr hkeeps⟩
  · obtain ⟨heq,hpc,_⟩ := hrun.new_dying hdying hdying'
    right
    refine ⟨c,Or.inl ?_⟩
    rcases hrun.running_cases c with hsame | ⟨_,hchosen,_⟩
    · rw [hsame,heq]
      simp only [SchedState.running,hpc]
      rfl
    · simp only [SchedState.chosen,hpc] at hchosen
      cases hchosen

private theorem CleanupInv.recorded_step (h : SchedInv s) (hinv : CleanupInv s record)
    (hrun : SchedRun s c s') : ∀ t, t ∈ record ++ cleanupEvents s (.run c) →
      s'.state t = .dying ∧ ∀ c', ¬s'.Keeps c' t := by
  intro t ht
  by_cases hevents : t ∈ cleanupEvents s (.run c)
  · obtain ⟨hpc,hprev⟩ := mem_cleanupEvents hevents
    exact ⟨hrun.still_dying h (hinv.dereferences c t hpc hprev),hrun.keeps_gone h hinv hevents⟩
  · have hrecord := (List.mem_append.mp ht).resolve_right hevents
    obtain ⟨hdying,hnone⟩ := hinv.recorded t hrecord
    refine ⟨hrun.still_dying h hdying,?_⟩
    intro c'
    rw [hinv.keeps_iff h hrun hdying hevents]
    exact hnone c'

omit [DecidableEq Cpu] [DecidableEq Thread] in
private theorem CleanupInv.nodup_step (hinv : CleanupInv s record) :
    (record ++ cleanupEvents s (.run c)).Nodup := by
  apply hinv.nodup.append
  · cases hpc : s.pc c with
    | dereference =>
      simp only [cleanupEvents,hpc]
      cases s.previousThread c <;> simp
    | _ => simp [cleanupEvents,hpc]
  · intro t hrecord hevents
    obtain ⟨hpc,hprev⟩ := mem_cleanupEvents hevents
    exact (hinv.recorded t hrecord).2 c (Or.inr ⟨by rw [hpc]; rfl,hprev⟩)

private theorem CleanupInv.run (h : SchedInv s) (hinv : CleanupInv s record)
    (hguard : NoLateInspection s (.run c)) (hrun : SchedRun s c s') :
    CleanupInv s' (record ++ cleanupEvents s (.run c)) where
  switches := hinv.switches_step hrun
  released := hinv.released_step h hrun
  dereferences := hinv.dereferences_step h hrun
  unique := hinv.unique_step h hguard hrun
  kept := hinv.kept_step h hrun
  recorded := hinv.recorded_step h hrun
  nodup := hinv.nodup_step

private theorem SchedCall.pc_same (h : SchedInv s) (hcall : SchedCall s s') (c' : Cpu) :
    s'.pc c' = s.pc c' ∨ ((s.pc c').cleans = false ∧ (s'.pc c').cleans = false ∧
      (s'.pc c').switches = false) := by
  rcases hcall.pc_cases h c' with hsame | ⟨hpc,hnext | ⟨hnext,_⟩ | ⟨hnext,_⟩⟩ |
    ⟨t,caller,hpc,hnext,_⟩
  · exact Or.inl hsame
  · rw [hpc,hnext]
    exact Or.inr ⟨rfl,rfl,rfl⟩
  · rw [hpc,hnext]
    exact Or.inr ⟨rfl,rfl,rfl⟩
  · rw [hpc,hnext]
    exact Or.inr ⟨rfl,rfl,rfl⟩
  · rw [hpc,hnext]
    cases caller <;> exact Or.inr ⟨rfl,rfl,rfl⟩

private theorem SchedCall.previous (hcall : SchedCall s s') :
    s'.previousThread = s.previousThread := by
  cases hcall <;> rfl

private theorem SchedCall.keeps (h : SchedInv s) (hcall : SchedCall s s') (c' : Cpu) (t : Thread) :
    s'.Keeps c' t ↔ s.Keeps c' t := by
  simp only [SchedState.Keeps,(hcall.running h).1,hcall.previous]
  rcases hcall.pc_same h c' with hsame | ⟨hold,hnew,_⟩
  · rw [hsame]
  · rw [hold,hnew]

private theorem SchedCall.dying_iff (h : SchedInv s) (hcall : SchedCall s s') (t : Thread) :
    s'.state t = .dying ↔ s.state t = .dying := by
  constructor
  · intro hdying
    rcases hcall.stage_cases t with ⟨_,hstate,_⟩ | ⟨_,_,hstate,_⟩ | ⟨_,_,hstate,_⟩ |
      ⟨_,_,⟨_,hstate⟩ | ⟨_,hstate⟩⟩ <;> rw [hstate] at hdying
    · exact hdying
    · cases hdying
    · exact hdying
    · cases hdying
    · exact hdying
  · intro hdying
    rw [(hcall.live (Or.inr (h.dying t hdying))).2,hdying]

private theorem CleanupInv.call (h : SchedInv s) (hinv : CleanupInv s record)
    (hcall : SchedCall s s') : CleanupInv s' record where
  switches c' hswitches := by
    rw [hcall.previous,(hcall.running h).1]
    rcases hcall.pc_same h c' with hsame | ⟨_,_,hnot⟩
    · rw [hsame] at hswitches
      exact hinv.switches c' hswitches
    · rw [hnot] at hswitches
      cases hswitches
  released c' t hpc' hprev := by
    rw [(hcall.running h).1]
    rw [hcall.previous] at hprev
    rcases hcall.pc_same h c' with hsame | ⟨_,hnot,_⟩
    · rw [hsame] at hpc'
      exact hinv.released c' t hpc' hprev
    · rw [hpc'] at hnot
      cases hnot
  dereferences c' t hpc' hprev := by
    rw [hcall.dying_iff h]
    rw [hcall.previous] at hprev
    rcases hcall.pc_same h c' with hsame | ⟨_,hnot,_⟩
    · rw [hsame] at hpc'
      exact hinv.dereferences c' t hpc' hprev
    · rw [hpc'] at hnot
      cases hnot
  unique t c₁ c₂ hdying h₁ h₂ := by
    rw [hcall.dying_iff h] at hdying
    rw [hcall.keeps h] at h₁ h₂
    exact hinv.unique t c₁ c₂ hdying h₁ h₂
  kept t hdying := by
    rw [hcall.dying_iff h] at hdying
    simp only [hcall.keeps h]
    exact hinv.kept t hdying
  recorded t ht := by
    simp only [hcall.dying_iff h,hcall.keeps h]
    exact hinv.recorded t ht
  nodup := hinv.nodup

omit [DecidableEq Cpu] [DecidableEq Thread] in
private theorem CleanupInv.init (h : s.Initial) : CleanupInv s [] := by
  have hlive : ∀ t, s.state t ≠ .dying := by
    intro t
    by_cases hmain : ∃ c, s.currentThread c = t
    · obtain ⟨c,hc⟩ := hmain
      rw [← hc,(h.main c).2.1]
      simp
    · rw [(h.others t fun c hc => hmain ⟨c,hc⟩).2.1]
      simp
  refine ⟨?_,?_,?_,?_,?_,?_,List.nodup_nil⟩
  · intro c hswitches
    rw [h.pc] at hswitches
    cases hswitches
  · intro c t hpc
    rw [h.pc] at hpc
    cases hpc
  · intro c t hpc
    rw [h.pc] at hpc
    cases hpc
  · intro t c c' hdying
    exact absurd hdying (hlive t)
  · intro t hdying
    exact absurd hdying (hlive t)
  · intro t ht
    cases ht

/-- How many references to a thread there are: `ThreadCreateEx` makes two, of which one is the
caller's handle. -/
def SchedState.references (s : SchedState Cpu Thread) (record : List Thread) (t : Thread) : Nat :=
  match s.stage t with
  | .absent => 0
  | .initialized => 1
  | .setUp => 2
  | .started | .idle => (if s.handle t = true then 1 else 0) + if t ∈ record then 0 else 1

structure ReferenceInv (s : SchedState Cpu Thread) (record : List Thread) : Prop where
  refCnt : ∀ t, s.refCnt t = s.references record t
  handle : ∀ t, s.handle t = true → s.stage t = .started ∨ s.stage t = .idle
  destroyed : ∀ t, s.destroyed t = true → t ∈ record

omit [DecidableEq Cpu] in
private theorem refCnt_other {record' : List Thread} {t : Thread}
    (hold : s.refCnt t = s.references record t) (hcount : s'.refCnt t = s.refCnt t)
    (hstage : s'.stage t = s.stage t) (hhandle : s'.handle t = s.handle t)
    (hrecord : t ∈ record' ↔ t ∈ record) : s'.refCnt t = s'.references record' t := by
  rw [hcount,hold]
  simp only [SchedState.references,hstage,hhandle,hrecord]

private theorem ReferenceInv.run (h : SchedInv s) (hinv : CleanupInv s record)
    (href : ReferenceInv s record) (hrun : SchedRun s c s') :
    ReferenceInv s' (record ++ cleanupEvents s (.run c)) := by
  have hnodup := hinv.nodup_step (c := c)
  cases hrun with
  | @dereference prev hpc hprev =>
    have hevents : cleanupEvents s (.run c) = [prev] := by
      simp [cleanupEvents,hpc,hprev]
    have hstarted := h.dying prev (hinv.dereferences c prev hpc hprev)
    have hfresh : prev ∉ record := by
      rw [hevents] at hnodup
      intro hmem
      exact List.disjoint_of_nodup_append hnodup hmem List.mem_cons_self
    have hcount := href.refCnt prev
    simp only [SchedState.references,hstarted,hfresh] at hcount
    rw [hevents]
    refine ⟨?_,href.handle,?_⟩
    · intro t
      by_cases ht : t = prev
      · rw [ht]
        simp [SchedState.threadDereference,SchedState.setRefCnt,SchedState.setPrevious,
          SchedState.setPc,SchedState.references,hstarted,hcount]
      · exact refCnt_other (href.refCnt t) (Function.update_of_ne ht _ _) rfl rfl (by simp [ht])
    · intro t hdestroyed
      by_cases ht : t = prev
      · simp [ht]
      · apply List.mem_append_left
        apply href.destroyed t
        simpa [SchedState.threadDereference,SchedState.setRefCnt,SchedState.setPrevious,
          SchedState.setPc,ht] using hdestroyed
  | noPrevious hpc hprev =>
    have hevents : cleanupEvents s (.run c) = [] := by
      rcases hpc with hpc | hpc | hpc <;> simp [cleanupEvents,hpc,hprev]
    rw [hevents,List.append_nil]
    exact ⟨href.refCnt,href.handle,href.destroyed⟩
  | yieldLock hpc | yieldIdle hpc | yieldInsert hpc | forcedExit hpc | threadBlock hpc
  | blockState hpc | blockLock hpc | unblockLock hpc | unblockState hpc | unblockReadyLock hpc
  | unblockInsert hpc | unblockReleaseReady hpc | unblockRelease hpc | exitUnlock hpc | exitDying hpc | exitNotify hpc
  | schedule hpc | keepIdle hpc | pickIdle hpc | keep hpc | pick hpc | setCurrentThread hpc
  | threadSwitch hpc | releaseReady hpc | releaseBlock hpc | inspectLock hpc | inspectDying hpc
  | inspectLive hpc =>
    have hevents : cleanupEvents s (.run c) = [] := by simp [cleanupEvents,hpc]
    rw [hevents,List.append_nil]
    exact ⟨href.refCnt,href.handle,href.destroyed⟩

private theorem ReferenceInv.call (h : SchedInv s) (hinv : CleanupInv s record)
    (href : ReferenceInv s record) (hcall : SchedCall s s') : ReferenceInv s' record := by
  have hrefCnt := href.refCnt
  have hhandle := href.handle
  cases hcall with
  | @threadInit t hstage =>
    refine ⟨?_,?_,href.destroyed⟩
    · intro t'
      by_cases ht : t' = t
      · simp [SchedState.setRefCnt,SchedState.setState,SchedState.setStage,SchedState.references,ht]
      · exact refCnt_other (hrefCnt t') (Function.update_of_ne ht _ _)
          (Function.update_of_ne ht _ _) rfl Iff.rfl
    · intro t' ht'
      have hlive := hhandle t' ht'
      have ht : t' ≠ t := by
        intro ht
        rw [ht,hstage] at hlive
        rcases hlive with hlive | hlive <;> cases hlive
      simpa [SchedState.setRefCnt,SchedState.setState,SchedState.setStage,ht] using hlive
  | @threadSetupInitialState t hstage =>
    have hcount := hrefCnt t
    simp only [SchedState.references,hstage] at hcount
    refine ⟨?_,?_,href.destroyed⟩
    · intro t'
      by_cases ht : t' = t
      · simp [SchedState.setRefCnt,SchedState.setStack,SchedState.setStage,SchedState.references,ht,
          hcount]
      · exact refCnt_other (hrefCnt t') (Function.update_of_ne ht _ _)
          (Function.update_of_ne ht _ _) rfl Iff.rfl
    · intro t' ht'
      have hlive := hhandle t' ht'
      have ht : t' ≠ t := by
        intro ht
        rw [ht,hstage] at hlive
        rcases hlive with hlive | hlive <;> cases hlive
      simpa [SchedState.setRefCnt,SchedState.setStack,SchedState.setStage,ht] using hlive
  | @startIdle _ t _ hstage | @threadStart _ t _ hstage =>
    have hcount := hrefCnt t
    simp only [SchedState.references,hstage] at hcount
    have hfresh : t ∉ record := by
      intro hmem
      have hstarted := h.dying t (hinv.recorded t hmem).1
      rw [hstage] at hstarted
      cases hstarted
    refine ⟨?_,?_,href.destroyed⟩
    · intro t'
      by_cases ht : t' = t
      · simp [SchedState.setState,SchedState.setStage,SchedState.setPc,SchedState.references,ht,
          hcount,hfresh]
      · exact refCnt_other (hrefCnt t') rfl (Function.update_of_ne ht _ _)
          (Function.update_of_ne ht _ _) Iff.rfl
    · intro t' ht'
      by_cases ht : t' = t
      · simp [SchedState.setState,SchedState.setStage,SchedState.setPc,ht]
      · have hlive := hhandle t' (by
          simpa [SchedState.setState,SchedState.setStage,SchedState.setPc,ht] using ht')
        simpa [SchedState.setState,SchedState.setStage,SchedState.setPc,ht] using hlive
  | @threadCloseHandle t hopen =>
    have hcount : s.refCnt t = 1 + if t ∈ record then 0 else 1 := by
      rw [hrefCnt t]
      rcases hhandle t hopen with hstage | hstage <;>
        simp only [SchedState.references,hstage,hopen,if_true]
    refine ⟨?_,?_,?_⟩
    · intro t'
      by_cases ht : t' = t
      · rcases hhandle t hopen with hstage | hstage <;>
          simp [SchedState.threadDereference,SchedState.setRefCnt,SchedState.references,ht,hstage,
            hcount]
      · exact refCnt_other (hrefCnt t') (Function.update_of_ne ht _ _) rfl
          (Function.update_of_ne ht _ _) Iff.rfl
    · intro t' ht'
      by_cases ht : t' = t
      · rw [ht]
        exact hhandle t hopen
      · exact hhandle t' (by simpa [ht] using ht')
    · intro t' hdestroyed
      by_cases ht : t' = t
      · rw [ht]
        by_contra hfresh
        simp only [hfresh,if_false] at hcount
        simp only [SchedState.threadDereference,ht,Function.update_self,hcount,Bool.or_eq_true,
          beq_iff_eq] at hdestroyed
        rcases hdestroyed with hold | hone
        · exact hfresh (href.destroyed t hold)
        · cases hone
      · apply href.destroyed t'
        simpa [SchedState.threadDereference,SchedState.setRefCnt,ht] using hdestroyed
  | _ => exact ⟨hrefCnt,hhandle,href.destroyed⟩

omit [DecidableEq Cpu] in
private theorem ReferenceInv.init (h : s.Initial) : ReferenceInv s [] where
  refCnt t := by
    by_cases hmain : ∃ c, s.currentThread c = t
    · obtain ⟨c,hc⟩ := hmain
      obtain ⟨hstage,_,_,hcount⟩ := h.main c
      rw [hc] at hstage hcount
      simp [SchedState.references,hstage,hcount,h.handle]
    · obtain ⟨hstage,_,_,hcount⟩ := h.others t fun c hc => hmain ⟨c,hc⟩
      simp [SchedState.references,hstage,hcount]
  handle t ht := by
    rw [h.handle] at ht
    cases ht
  destroyed t ht := by
    rw [h.destroyed] at ht
    cases ht

omit [DecidableEq Cpu] [DecidableEq Thread] in
private theorem cleanupEvents_call {action : SchedAction Cpu Thread}
    (hcall : ∀ c, action ≠ .run c) : cleanupEvents s action = [] := by
  cases action with
  | run c => exact absurd rfl (hcall c)
  | _ => rfl

theorem cleanupInv_of_reachable {p : SchedState Cpu Thread × List Thread}
    (h : ((schedSystem Cpu Thread).recording cleanupEvents).ReachableUnder
      (fun p action => NoLateInspection p.1 action) p) :
    CleanupInv p.1 p.2 ∧ ReferenceInv p.1 p.2 := by
  induction h with
  | init hinit =>
    rw [hinit.2]
    exact ⟨.init hinit.1,.init hinit.1⟩
  | step hreach hguard hstep ih =>
    obtain ⟨hs,hrecord⟩ := TransitionSystem.recording_step.mp hstep
    have hsched := schedInv_of_reachable (hreach.of_recording.mono fun _ _ _ => trivial)
    rw [hrecord]
    rcases schedStep_cases hs with ⟨c,heq,hrun⟩ | ⟨hother,hcall⟩
    · rw [heq] at hguard ⊢
      exact ⟨ih.1.run hsched hguard hrun,ih.2.run hsched ih.1 hrun⟩
    · rw [cleanupEvents_call hother,List.append_nil]
      exact ⟨ih.1.call hsched hcall,ih.2.call hsched ih.1 hcall⟩

/-- No CPU has the thread as its current one, or is still on its stack. -/
def SchedState.SwitchedAway (s : SchedState Cpu Thread) (t : Thread) : Prop :=
  ∀ c, s.currentThread c ≠ t ∧ s.running c ≠ t

structure CleanupSafe (s : SchedState Cpu Thread) (record : List Thread) : Prop where
  dereferenced : ∀ c t, s.pc c = .dereference → s.previousThread c = some t →
    s.state t = .dying ∧ t ∉ record ∧ s.SwitchedAway t
  /-- No thread is dereferenced twice. -/
  nodup : record.Nodup
  /-- A thread that was dereferenced does not run again. -/
  final : ∀ t, t ∈ record → s.state t = .dying ∧ s.SwitchedAway t
  /-- A thread that has exited is dereferenced by the CPU that switches away from it. -/
  once : ∀ t, s.state t = .dying → s.SwitchedAway t →
    (∀ c, (s.pc c).cleans = true → s.previousThread c ≠ some t) → t ∈ record
  destroyed : ∀ t, s.destroyed t = true → s.SwitchedAway t

omit [DecidableEq Cpu] [DecidableEq Thread] in
private theorem SchedInv.switchedAway (h : SchedInv s) {t : Thread} (hdying : s.state t = .dying)
    (hrunning : ∀ c, s.running c ≠ t) : s.SwitchedAway t := by
  intro c
  refine ⟨?_,hrunning c⟩
  intro hcurrent
  rcases s.current_cases c with hc | hc
  · exact hrunning c (hc.trans hcurrent)
  · rw [hcurrent] at hc
    rcases h.chosen c t hc with hidle | ⟨_,hready⟩
    · rw [h.dying t hdying] at hidle
      cases hidle
    · rw [hdying] at hready
      cases hready

/-- The clean-up in every run where no thread dies while another CPU looks at it. -/
theorem cleanup_safe {p : SchedState Cpu Thread × List Thread}
    (h : ((schedSystem Cpu Thread).recording cleanupEvents).ReachableUnder
      (fun p action => NoLateInspection p.1 action) p) : CleanupSafe p.1 p.2 := by
  have hsched := schedInv_of_reachable (h.of_recording.mono fun _ _ _ => trivial)
  obtain ⟨hinv,href⟩ := cleanupInv_of_reachable h
  have hfinal : ∀ t, t ∈ p.2 → p.1.state t = .dying ∧ p.1.SwitchedAway t := by
    intro t ht
    obtain ⟨hdying,hnone⟩ := hinv.recorded t ht
    exact ⟨hdying,hsched.switchedAway hdying fun c hc => hnone c (Or.inl hc)⟩
  refine ⟨?_,hinv.nodup,hfinal,?_,fun t ht => (hfinal t (href.destroyed t ht)).2⟩
  · intro c t hpc hprev
    have hdying := hinv.dereferences c t hpc hprev
    have hkeeps : p.1.Keeps c t := Or.inr ⟨by rw [hpc]; rfl,hprev⟩
    refine ⟨hdying,fun hmem => (hinv.recorded t hmem).2 c hkeeps,?_⟩
    apply hsched.switchedAway hdying
    intro c' hrunning
    have hc := hinv.unique t c' c hdying (Or.inl hrunning) hkeeps
    have hexiting := hsched.exiting c' (by rw [hrunning,hdying])
    rw [hc,hpc] at hexiting
    cases hexiting
  · intro t hdying haway hpending
    rcases hinv.kept t hdying with hmem | ⟨c,hrunning | ⟨hcleans,hprev⟩⟩
    · exact hmem
    · exact absurd hrunning (haway c).2
    · exact absurd hprev (hpending c hcleans)

/-- Two CPUs, with threads 0 and 1 and the idle threads 2 and 3. -/
def twoCpus : SchedState (Fin 2) (Fin 4) :=
  .start fun c => c.castLE (by decide)

/-- CPU 1 has its idle thread, and CPU 0 yields from thread 0 to thread 1, up to the clean-up. -/
def yieldToOther : List (SchedAction (Fin 2) (Fin 4)) :=
  [.threadInit 0 2,.threadSetupInitialState 0 2,.threadStart 0 2,
    .threadInit 1 3,.threadSetupInitialState 1 3,.threadStart 1 3] ++
  .threadTakeBlockLock 1 :: List.replicate 9 (.run 1) ++
  .threadUnblock 0 1 :: List.replicate 6 (.run 0) ++
  .threadYield 0 :: List.replicate 7 (.run 0)

/-- The idle thread of CPU 1 blocks, and thread 0 runs and exits there. -/
def runAndExit : List (SchedAction (Fin 2) (Fin 4)) :=
  .threadTakeBlockLock 1 :: List.replicate 9 (.run 1) ++ .threadExit 1 :: List.replicate 2 (.run 1)

theorem twoCpus_initial : twoCpus.Initial :=
  SchedState.start_initial (Fin.castLE_injective _)

/-- CPU 0 is done with thread 0 before it exits. -/
theorem cleanup_safe_two : ∃ p : SchedState (Fin 2) (Fin 4) × List (Fin 4),
    ((schedSystem (Fin 2) (Fin 4)).recording cleanupEvents).ReachableUnder
      (fun p action => NoLateInspection p.1 action) p ∧
    p.2 = [0] ∧ p.1.destroyed 0 = true ∧ p.1.SwitchedAway 0 := by
  obtain ⟨p,hreach,hp⟩ := TransitionSystem.exists_reachable
    ((schedSystem (Fin 2) (Fin 4)).recording cleanupEvents)
    (fun p action => NoLateInspection p.1 action) (twoCpus,[]) ⟨twoCpus_initial,rfl⟩
    (yieldToOther ++ List.replicate 2 (.run 0) ++ runAndExit ++ List.replicate 9 (.run 1))
    (fun p => decide (p.2 = [0] ∧ p.1.destroyed 0 = true)) (by decide +kernel) (by decide +kernel)
  obtain ⟨hrecord,hdestroyed⟩ := of_decide_eq_true hp
  exact ⟨p,hreach,hrecord,hdestroyed,(cleanup_safe hreach).destroyed 0 hdestroyed⟩

/-- CPU 0 looks at thread 0 after it has died on CPU 1: the thread is destroyed while it runs, and
dereferenced again when it has been switched away from. -/
theorem cleanup_of_current :
    (∃ p : SchedState (Fin 2) (Fin 4) × List (Fin 4),
      ((schedSystem (Fin 2) (Fin 4)).recording cleanupEvents).Reachable p ∧
      p.1.pc 0 = .dereference ∧ p.1.previousThread 0 = some 0 ∧ p.1.currentThread 1 = 0) ∧
    (∃ p : SchedState (Fin 2) (Fin 4) × List (Fin 4),
      ((schedSystem (Fin 2) (Fin 4)).recording cleanupEvents).Reachable p ∧
      p.1.destroyed 0 = true ∧ p.1.currentThread 1 = 0) ∧
    ∃ p : SchedState (Fin 2) (Fin 4) × List (Fin 4),
      ((schedSystem (Fin 2) (Fin 4)).recording cleanupEvents).Reachable p ∧ p.2 = [0,0] := by
  refine ⟨?_,?_,?_⟩
  · obtain ⟨p,hreach,hp⟩ := TransitionSystem.exists_reachable
      ((schedSystem (Fin 2) (Fin 4)).recording cleanupEvents) (fun _ _ => True)
      (twoCpus,[]) ⟨twoCpus_initial,rfl⟩ (yieldToOther ++ runAndExit ++ List.replicate 2 (.run 0))
      (fun p => decide (p.1.pc 0 = .dereference ∧ p.1.previousThread 0 = some 0 ∧
        p.1.currentThread 1 = 0))
      (TransitionSystem.runSatisfies_of_forall (fun _ _ => trivial) _ _) (by decide +kernel)
    exact ⟨p,hreach,of_decide_eq_true hp⟩
  · obtain ⟨p,hreach,hp⟩ := TransitionSystem.exists_reachable
      ((schedSystem (Fin 2) (Fin 4)).recording cleanupEvents) (fun _ _ => True)
      (twoCpus,[]) ⟨twoCpus_initial,rfl⟩ (yieldToOther ++ runAndExit ++ List.replicate 3 (.run 0))
      (fun p => decide (p.1.destroyed 0 = true ∧ p.1.currentThread 1 = 0))
      (TransitionSystem.runSatisfies_of_forall (fun _ _ => trivial) _ _) (by decide +kernel)
    exact ⟨p,hreach,of_decide_eq_true hp⟩
  · obtain ⟨p,hreach,hp⟩ := TransitionSystem.exists_reachable
      ((schedSystem (Fin 2) (Fin 4)).recording cleanupEvents) (fun _ _ => True)
      (twoCpus,[]) ⟨twoCpus_initial,rfl⟩
      (yieldToOther ++ runAndExit ++ List.replicate 3 (.run 0) ++ List.replicate 9 (.run 1))
      (fun p => decide (p.2 = [0,0]))
      (TransitionSystem.runSatisfies_of_forall (fun _ _ => trivial) _ _) (by decide +kernel)
    exact ⟨p,hreach,of_decide_eq_true hp⟩

end Hal9000
