import Hal9000.Threads.Cleanup
import Hal9000.Threads.TimeSlices

/-!
# Forced termination

`ThreadTerminate` leaves a flag that the thread finds when it is about to yield or to block, so
that the thread has at most the time slice it is in, or the one it waits for. `ThreadBlock` tests
the flag before it stores the state: a thread that is past the test blocks once more. A thread that
is returned from the ready list is past its last wait from there on.
-/

namespace Hal9000

open TransitionSystem

variable {Cpu Thread : Type} [DecidableEq Cpu] [DecidableEq Thread]

/-- The loop of `ProcessTerminate` over the threads of the process. -/
def processTerminate (threadList : List Thread) (current : Thread) :
    List (SchedAction Cpu Thread) :=
  (threadList.filter (· ≠ current)).map .threadTerminate

/-- Where a thread that is to exit does not come back to the ready list. -/
def SchedPc.isLate (pc : SchedPc Thread) : Bool :=
  pc.inSlice || match pc with
    | .tookBlockLock | .exitUnlock | .exitDying => true
    | _ => false

/-- The thread is to exit. -/
inductive Doomed (s : SchedState Cpu Thread) (t : Thread) : Prop
  | pending (hflag : s.forceTerminatePending t = true)
  | dying (hdying : s.state t = .dying)
  | exiting (c : Cpu) (hcurrent : s.currentThread c = t)
      (hpc : s.pc c = .exitUnlock ∨ s.pc c = .exitDying)

/-- The thread runs, or is dying. -/
inductive Late (s : SchedState Cpu Thread) (t : Thread) : Prop
  | dying (hdying : s.state t = .dying)
  | current (c : Cpu) (hcurrent : s.currentThread c = t) (hpc : (s.pc c).isLate = true)

/-- The thread waits, or `ThreadBlock` has found no flag and is about to make it wait. -/
inductive Waits (s : SchedState Cpu Thread) (t : Thread) : Prop
  | blocked (hblocked : s.state t = .blocked)
  | blocking (c : Cpu) (hcurrent : s.currentThread c = t) (hpc : s.pc c = .blockState)

/-- The thread has been returned from the ready list, and has not come back to it. -/
inductive Returned (s : SchedState Cpu Thread) (t : Thread) : Prop
  | late (hlate : Late s t)
  | chosen (c : Cpu) (hpc : s.pc c = .setCurrentThread t)
  | switched (c : Cpu) (hcurrent : s.currentThread c = t)
      (hpc : (∃ old, s.pc c = .threadSwitch old) ∨ s.pc c = .releaseReady)

section Sched

variable {s s' : SchedState Cpu Thread} {t : Thread} {c c' : Cpu}

omit [DecidableEq Thread] [DecidableEq Cpu] in
private theorem running_of_late (hpc : (s.pc c).isLate = true) :
    s.running c = s.currentThread c := by
  rw [SchedState.running]
  cases hcase : s.pc c <;> rw [hcase] at hpc <;> first | rfl | cases hpc

omit [DecidableEq Thread] [DecidableEq Cpu] in
private theorem not_dispatching_of_late (hpc : (s.pc c).isLate = true) :
    (s.pc c).isDispatching = false := by
  cases hcase : s.pc c <;> rw [hcase] at hpc <;> first | rfl | cases hpc

omit [DecidableEq Thread] [DecidableEq Cpu] in
private theorem late_unique (hinv : SchedInv s) (hcurrent : s.currentThread c = t)
    (hpc : (s.pc c).isLate = true) (hrunning : s.running c' = t) : c' = c := by
  apply hinv.places.running
  show s.running c' = s.running c
  rw [hrunning,running_of_late hpc,hcurrent]

omit [DecidableEq Thread] [DecidableEq Cpu] in
private theorem Doomed.started (hinv : SchedInv s) (h : Doomed s t) : s.stage t = .started := by
  cases h with
  | pending hflag => exact hinv.flag t hflag
  | dying hdying => exact hinv.dying t hdying
  | exiting c hcurrent hpc =>
    rw [← hcurrent]
    exact hinv.exits c hpc

omit [DecidableEq Thread] [DecidableEq Cpu] in
private theorem Doomed.flag (hinv : SchedInv s) (h : Doomed s t) (hcurrent : s.currentThread c = t)
    (hpc : s.pc c = .running ∨ s.pc c = .tookBlockLock) : s.forceTerminatePending t = true := by
  have hlate : (s.pc c).isLate = true := by rcases hpc with hpc | hpc <;> rw [hpc] <;> rfl
  cases h with
  | pending hflag => exact hflag
  | dying hdying =>
    have hexiting := hinv.exiting c (by rw [running_of_late hlate,hcurrent,hdying])
    rcases hpc with hpc | hpc <;> rw [hpc] at hexiting <;> cases hexiting
  | exiting c' hcurrent' hpc' =>
    have hlate' : (s.pc c').isLate = true := by rcases hpc' with hpc' | hpc' <;> rw [hpc'] <;> rfl
    have hc := late_unique hinv hcurrent' hlate' (by rw [running_of_late hlate,hcurrent])
    subst hc
    rcases hpc with hpc | hpc <;> rcases hpc' with hpc' | hpc' <;> rw [hpc] at hpc' <;> cases hpc'

private theorem schedStep_dying (hinv : SchedInv s) {action : SchedAction Cpu Thread}
    (hs : schedStep s action = some s') (hdying : s.state t = .dying) : s'.state t = .dying := by
  rcases schedStep_cases hs with ⟨c,_,hrun⟩ | ⟨_,hcall⟩
  · exact hrun.still_dying hinv hdying
  · rw [(hcall.live (Or.inr (hinv.dying t hdying))).2,hdying]

private theorem schedStep_current {action : SchedAction Cpu Thread}
    (hs : schedStep s action = some s') (hpc : ∀ next, s.pc c ≠ .setCurrentThread next) :
    s'.currentThread c = s.currentThread c := by
  rcases schedStep_cases hs with ⟨c₀,_,hrun⟩ | ⟨_,hcall⟩
  · by_cases hc : c = c₀
    · subst hc
      cases hrun with
      | setCurrentThread hset => exact absurd hset (hpc _)
      | _ => rfl
    · exact (hrun.pc_other hc).2
  · rw [hcall.current.1]

private theorem schedStep_flag {action : SchedAction Cpu Thread}
    (hs : schedStep s action = some s') (hflag : s.forceTerminatePending t = true) :
    s'.forceTerminatePending t = true := by
  rcases schedStep_cases hs with ⟨c,_,hrun⟩ | ⟨_,hcall⟩
  · cases hrun <;> exact hflag
  · cases hcall with
    | @threadTerminate t' _ =>
      by_cases ht : t = t'
      · rw [ht]
        exact Function.update_self _ _ _
      · simpa [ht] using hflag
    | _ => exact hflag

private theorem schedRun_forcedExit (hs : schedRun s c = some s') (hpc : s.pc c = .tookBlockLock)
    (hflag : s.forceTerminatePending (s.currentThread c) = true) : s'.pc c = .exitUnlock := by
  simp only [schedRun,hpc,hflag,↓reduceIte] at hs
  obtain ⟨_,_,hs'⟩ := Option.bind_eq_some_iff.mp hs
  obtain rfl := Option.some.inj hs'
  exact Function.update_self _ _ _

private theorem threadYield_forcedExit (hs : schedStep s (.threadYield c) = some s')
    (hflag : s.forceTerminatePending (s.currentThread c) = true) : s'.pc c = .exitUnlock := by
  simp only [schedStep,hflag,↓reduceIte] at hs
  split_ifs at hs
  obtain rfl := Option.some.inj hs
  exact Function.update_self _ _ _

private theorem schedRun_exiting (hs : SchedRun s c s')
    (hpc : s.pc c = .exitUnlock ∨ s.pc c = .exitDying) :
    s'.pc c = .exitDying ∨ s'.state (s.currentThread c) = .dying := by
  cases hs with
  | exitUnlock _ => exact Or.inl (Function.update_self _ _ _)
  | exitDying _ => exact Or.inr (Function.update_self _ _ _)
  | noPrevious hpc' _ =>
    rcases hpc with hpc | hpc <;> rw [hpc] at hpc' <;> simp at hpc'
  | _ hpc' => rcases hpc with hpc | hpc <;> rw [hpc] at hpc' <;> cases hpc'

private theorem Doomed.step (hinv : SchedInv s) (h : Doomed s t) {action : SchedAction Cpu Thread}
    (hs : schedStep s action = some s') : Doomed s' t := by
  cases h with
  | pending hflag => exact .pending (schedStep_flag hs hflag)
  | dying hdying => exact .dying (schedStep_dying hinv hs hdying)
  | exiting c hcurrent hpc =>
    have hcurrent' : s'.currentThread c = t := by
      rw [schedStep_current hs,hcurrent]
      intro next hset
      rcases hpc with hpc | hpc <;> rw [hpc] at hset <;> cases hset
    cases schedStep_pc hs c with
    | same hsame => exact .exiting c hcurrent' (by rw [hsame]; exact hpc)
    | run haction _ =>
      subst haction
      rcases schedRun_exiting (schedRun_cases hs) hpc with hpc' | hdying
      · exact .exiting c hcurrent' (Or.inr hpc')
      · rw [hcurrent] at hdying
        exact .dying hdying
    | gives _ hrunning _ => rcases hpc with hpc | hpc <;> rw [hpc] at hrunning <;> cases hrunning
    | unblocks _ caller _ hresume _ =>
      cases caller <;> rcases hpc with hpc | hpc <;> rw [hpc] at hresume <;> cases hresume

private theorem Late.step (hinv : SchedInv s) (hdoomed : Doomed s t) (h : Late s t)
    {action : SchedAction Cpu Thread} (hs : schedStep s action = some s') : Late s' t := by
  cases h with
  | dying hdying => exact .dying (schedStep_dying hinv hs hdying)
  | current c hcurrent hpc =>
    have hcurrent' : s'.currentThread c = t := by
      rw [schedStep_current hs,hcurrent]
      intro next hset
      rw [hset] at hpc
      cases hpc
    cases schedStep_pc hs c with
    | same hsame => exact .current c hcurrent' (by rw [hsame]; exact hpc)
    | run haction hrun =>
      subst haction
      rcases Bool.or_eq_true_iff.mp hpc with hslice | hother
      · exact .current c hcurrent' (Bool.or_eq_true_iff.mpr (Or.inl (hrun.stays hslice)))
      · cases hcase : s.pc c <;> rw [hcase] at hother <;> simp only [Bool.false_eq_true] at hother
        · have hflag := hdoomed.flag hinv hcurrent (Or.inr hcase)
          rw [← hcurrent] at hflag
          exact .current c hcurrent' (by rw [schedRun_forcedExit hs hcase hflag]; rfl)
        · rcases schedRun_exiting (schedRun_cases hs) (Or.inl hcase) with hpc' | hdying
          · exact .current c hcurrent' (by rw [hpc']; rfl)
          · rw [hcurrent] at hdying
            exact .dying hdying
        · rcases schedRun_exiting (schedRun_cases hs) (Or.inr hcase) with hpc' | hdying
          · exact .current c hcurrent' (by rw [hpc']; rfl)
          · rw [hcurrent] at hdying
            exact .dying hdying
    | gives haction hrunning hpc' =>
      apply Late.current c hcurrent'
      rcases hpc' with hpc' | hpc' | hpc'
      · -- only a yield goes to the ready list, and it finds the flag
        have hflag := hdoomed.flag hinv hcurrent (Or.inl hrunning)
        rw [← hcurrent] at hflag
        rcases haction with rfl | rfl | rfl
        · rw [threadYield_forcedExit hs hflag]
          rfl
        · simp only [schedStep] at hs
          split_ifs at hs
          obtain rfl := Option.some.inj hs
          simp [SchedState.setBlockLock,SchedState.setPc] at hpc'
        · simp only [schedStep] at hs
          split_ifs at hs
          obtain rfl := Option.some.inj hs
          simp [SchedState.setPc] at hpc'
      · rw [hpc']
        rfl
      · rw [hpc']
        rfl
    | unblocks t' caller _ hresume hpc' =>
      apply Late.current c hcurrent'
      rw [hresume] at hpc
      rw [hpc']
      cases caller
      · rfl
      · cases hpc

private theorem Returned.step (hinv : SchedInv s) (hdoomed : Doomed s t) (h : Returned s t)
    {action : SchedAction Cpu Thread} (hs : schedStep s action = some s') : Returned s' t := by
  cases h with
  | late hlate => exact .late (hlate.step hinv hdoomed hs)
  | chosen c hpc =>
    cases schedStep_pc hs c with
    | same hsame => exact .chosen c (by rw [hsame,hpc])
    | run haction _ =>
      subst haction
      cases schedRun_cases hs with
      | @setCurrentThread next hset =>
        rw [hpc] at hset
        obtain rfl := SchedPc.setCurrentThread.inj hset
        refine .switched c (Function.update_self _ _ _) (Or.inl ⟨s.currentThread c,?_⟩)
        exact Function.update_self _ _ _
      | noPrevious hother _ => simp [hpc] at hother
      | _ hother => simp [hpc] at hother
    | gives _ hrunning _ => simp [hpc] at hrunning
    | unblocks _ caller _ hresume _ => cases caller <;> simp [hpc,UnblockCaller.resume] at hresume
  | switched c hcurrent hpc =>
    have hcurrent' : s'.currentThread c = t := by
      rw [schedStep_current hs,hcurrent]
      intro next hset
      rcases hpc with ⟨old,hpc⟩ | hpc <;> rw [hpc] at hset <;> cases hset
    cases schedStep_pc hs c with
    | same hsame => exact .switched c hcurrent' (by rw [hsame]; exact hpc)
    | run haction _ =>
      subst haction
      cases schedRun_cases hs with
      | threadSwitch _ =>
        apply Returned.switched c hcurrent'
        right
        simp [SchedState.setStack,SchedState.setPc]
      | releaseReady _ =>
        apply Returned.late
        apply Late.current c hcurrent'
        simp [SchedState.setPc,SchedPc.isLate,SchedPc.inSlice]
      | noPrevious hother _ => rcases hpc with ⟨old,hpc⟩ | hpc <;> simp [hpc] at hother
      | _ hother => rcases hpc with ⟨old,hpc⟩ | hpc <;> simp [hpc] at hother
    | gives _ hrunning _ => rcases hpc with ⟨old,hpc⟩ | hpc <;> simp [hpc] at hrunning
    | unblocks _ caller _ hresume _ =>
      rcases hpc with ⟨old,hpc⟩ | hpc <;> cases caller <;>
        simp [hpc,UnblockCaller.resume] at hresume

omit [DecidableEq Cpu] [DecidableEq Thread] in
private theorem Returned.not_listed (hinv : SchedInv s) (h : Returned s t) :
    t ∉ s.readyThreadsList := by
  intro hlisted
  have hrunning : ∀ c, s.running c = t → (s.pc c).isDispatching = true := by
    intro c hc
    rw [← hc] at hlisted
    exact (hinv.places.listed c hlisted).1
  cases h with
  | late hlate =>
    cases hlate with
    | dying hdying =>
      have hready := (hinv.ready t hlisted).1
      rw [hdying] at hready
      cases hready
    | current c hcurrent hpc =>
      have hdispatching := hrunning c (by rw [running_of_late hpc,hcurrent])
      rw [not_dispatching_of_late hpc] at hdispatching
      cases hdispatching
  | chosen c hpc =>
    apply (hinv.places.chosen c t _).2 hlisted
    simp [SchedState.places,SchedState.chosen,hpc,SchedPc.picked]
  | switched c hcurrent hpc =>
    rcases hpc with ⟨old,hpc⟩ | hpc
    · apply (hinv.places.chosen c t _).2 hlisted
      simp [SchedState.places,SchedState.chosen,hpc,SchedPc.picked,hcurrent]
    · have hdispatching := hrunning c (by simp [SchedState.running,hpc,SchedPc.executed,hcurrent])
      rw [hpc] at hdispatching
      cases hdispatching

omit [DecidableEq Cpu] in
private theorem Returned.not_returned (hinv : SchedInv s) (hdoomed : Doomed s t)
    (h : Returned s t) (action : SchedAction Cpu Thread) : t ∉ readyThreadReturned s action := by
  intro hmem
  cases action with
  | run c =>
    simp only [readyThreadReturned] at hmem
    split at hmem
    · split at hmem
      · have hidle := (hinv.idle t).mpr ⟨c,by simpa using hmem⟩
        rw [hdoomed.started hinv] at hidle
        cases hidle
      · rename_i next rest hlist
        apply h.not_listed hinv
        rw [hlist,List.mem_singleton.mp hmem]
        exact List.mem_cons_self
    · cases hmem
  | _ => cases hmem

private theorem returned_of_mem {action : SchedAction Cpu Thread}
    (hs : schedStep s action = some s') (hmem : t ∈ readyThreadReturned s action) :
    Returned s' t := by
  cases action with
  | run c =>
    have hpc : s.pc c = .getReadyThread := by
      by_contra hpc
      simp [readyThreadReturned,hpc] at hmem
    cases schedRun_cases hs with
    | keepIdle _ hlist hidle =>
      simp only [readyThreadReturned,hpc,hlist,hidle,↓reduceIte,Option.toList_some,
        List.mem_singleton] at hmem
      exact .switched c hmem.symm (Or.inr (Function.update_self _ _ _))
    | pickIdle _ hlist hidle _ =>
      simp only [readyThreadReturned,hpc,hlist,hidle,↓reduceIte,Option.toList_some,
        List.mem_singleton] at hmem
      refine .chosen c ?_
      rw [hmem]
      exact Function.update_self _ _ _
    | keep _ hlist =>
      simp only [readyThreadReturned,hpc,hlist,↓reduceIte,List.mem_singleton] at hmem
      exact .switched c hmem.symm (Or.inr (Function.update_self _ _ _))
    | pick _ hlist _ =>
      simp only [readyThreadReturned,hpc,hlist,↓reduceIte,List.mem_singleton] at hmem
      refine .chosen c ?_
      rw [hmem]
      exact Function.update_self _ _ _
    | noPrevious hother _ => simp [hpc] at hother
    | _ hother => simp [hpc] at hother
  | _ => cases hmem

omit [DecidableEq Cpu] in
private theorem readyThreadReturned_count (action : SchedAction Cpu Thread) :
    (readyThreadReturned s action).count t ≤ 1 := by
  apply le_trans List.count_le_length
  cases action with
  | run c =>
    simp only [readyThreadReturned]
    split
    · split
      · cases s.idleThread c <;> simp
      · simp
    · simp
  | _ => simp [readyThreadReturned]

private theorem blockState_of_run (hs : SchedRun s c s') (hpc : s'.pc c = .blockState) :
    s.pc c = .tookBlockLock ∧ s.forceTerminatePending (s.currentThread c) ≠ true := by
  cases hs with
  | threadBlock hold _ hflag => exact ⟨hold,hflag⟩
  | @unblockRelease _ caller _ =>
    cases caller <;> simp [SchedState.setPc,SchedState.setBlockLock,UnblockCaller.resume] at hpc
  | _ =>
    simp [SchedState.setPc,SchedState.setState,SchedState.setBlockLock,SchedState.setPrevious,
      SchedState.setStack,SchedState.threadDereference,SchedState.setRefCnt] at hpc

private theorem Doomed.not_blocking (hinv : SchedInv s) (h : Doomed s t)
    {action : SchedAction Cpu Thread} (hs : schedStep s action = some s')
    (hcurrent : s'.currentThread c = t) (hpc : s'.pc c = .blockState) :
    s.currentThread c = t ∧ s.pc c = .blockState := by
  cases schedStep_pc hs c with
  | same hsame =>
    rw [hsame] at hpc
    refine ⟨?_,hpc⟩
    rw [← hcurrent,schedStep_current hs]
    intro next hset
    rw [hpc] at hset
    cases hset
  | run haction _ =>
    subst haction
    obtain ⟨htook,hflag⟩ := blockState_of_run (schedRun_cases hs) hpc
    have hcurrent' : s.currentThread c = t := by
      rw [← hcurrent,schedStep_current hs]
      intro next hset
      rw [htook] at hset
      cases hset
    rw [hcurrent'] at hflag
    exact absurd (h.flag hinv hcurrent' (Or.inr htook)) hflag
  | gives _ _ hpc' => rcases hpc' with hpc' | hpc' | hpc' <;> rw [hpc'] at hpc <;> cases hpc
  | unblocks _ _ _ _ hpc' =>
    rw [hpc'] at hpc
    cases hpc

private theorem Doomed.waits (hinv : SchedInv s) (h : Doomed s t)
    {action : SchedAction Cpu Thread} (hs : schedStep s action = some s') (hwaits : Waits s' t) :
    Waits s t := by
  cases hwaits with
  | blocking c hcurrent hpc =>
    obtain ⟨hcurrent',hpc'⟩ := h.not_blocking hinv hs hcurrent hpc
    exact .blocking c hcurrent' hpc'
  | blocked hblocked =>
    rcases schedStep_cases hs with ⟨c,rfl,hrun⟩ | ⟨_,hcall⟩
    · rcases hrun.state_cases t with hsame | ⟨hcurrent,hown⟩ | ⟨_,_,hready⟩
      · exact .blocked (by rw [← hsame,hblocked])
      · rcases hown with ⟨_,hready⟩ | ⟨hpc,_⟩ | ⟨_,hdying,_⟩
        · rw [hready] at hblocked
          cases hblocked
        · exact .blocking c hcurrent.symm hpc
        · rw [hdying] at hblocked
          cases hblocked
      · rw [hready] at hblocked
        cases hblocked
    · exact .blocked (by rw [← (hcall.live (Or.inr (h.started hinv))).2,hblocked])

end Sched

section Isr

variable {data : IomuData IsrFunction} {irqSpurious : Nat} {s s' : IsrState Cpu Thread} {t : Thread}

private theorem isrStep_sched {action : IsrAction Cpu Thread}
    (hs : isrStep data irqSpurious s action = some s') :
    (∃ a, schedStep s.sched a = some s'.sched ∧
        isrReturned s action = readyThreadReturned s.sched a) ∨
      s'.sched = s.sched ∧ isrReturned s action = [] := by
  rcases isrStep_cases hs with ⟨a,rfl,_,hsched⟩ | ⟨c,rfl,_,hyield⟩ | hother
  · exact Or.inl ⟨a,hsched.sched,rfl⟩
  · exact Or.inl ⟨.threadYield c,hyield.sched,rfl⟩
  · right
    cases hother <;> exact ⟨rfl,rfl⟩

private theorem sched_reachable (h : (isrSystem data irqSpurious Cpu Thread).Reachable s) :
    (schedSystem Cpu Thread).Reachable s.sched := by
  induction h with
  | init hinit => exact .init hinit.sched
  | step _ _ hs ih =>
    rcases isrStep_sched hs with ⟨a,hsched,_⟩ | ⟨hsame,_⟩
    · exact .step ih trivial hsched
    · rw [hsame]
      exact ih

/-- What holds of a doomed thread that had completed `start` ticks. -/
structure Charged (start : Nat) (t : Thread) (s : IsrState Cpu Thread) : Prop where
  inv : SchedInv s.sched
  ticks : s.Inv
  doomed : Doomed s.sched t
  bound : s.tickCountCompleted t ≤ start + threadTimeSlice
  late : start < s.tickCountCompleted t → Late s.sched t
  slice : start < s.tickCountCompleted t → ∀ c, s.sched.currentThread c = t →
    (s.sched.pc c).inSlice = true → s.tickCountCompleted t ≤ start + s.runningThreadTicks c

omit [DecidableEq Thread] in
private theorem isLate_of_inSlice {pc : SchedPc Thread} (h : pc.inSlice = true) :
    pc.isLate = true := by
  simp [SchedPc.isLate,h]

omit [DecidableEq Cpu] [DecidableEq Thread] in
private theorem Late.not_begun (hinv : SchedInv s.sched) (h : Late s.sched t) {c : Cpu}
    (hcurrent : s.sched.currentThread c = t) (hpc : s.sched.pc c = .releaseReady) : False := by
  have hrunning : s.sched.running c = t := by
    rw [SchedState.running,hpc]
    exact hcurrent
  cases h with
  | dying hdying =>
    have hexiting := hinv.exiting c (by rw [hrunning,hdying])
    rw [hpc] at hexiting
    cases hexiting
  | current c' hcurrent' hpc' =>
    have hc := late_unique hinv hcurrent' hpc' hrunning
    rw [← hc,hpc] at hpc'
    cases hpc'

private theorem Charged.scheduled {start : Nat} (h : Charged start t s) {s₀ : IsrState Cpu Thread}
    {action : SchedAction Cpu Thread} (hsched₀ : s₀.sched = s.sched)
    (hticks₀ : s₀.runningThreadTicks = s.runningThreadTicks)
    (hcompleted₀ : s₀.tickCountCompleted = s.tickCountCompleted)
    (hs : s₀.Scheduled action s') (hinv : s'.Inv) : Charged start t s' := by
  have hstep := hs.sched
  rw [hsched₀] at hstep
  have hcompleted : s'.tickCountCompleted t = s.tickCountCompleted t := by
    rw [hs.completed,hcompleted₀]
  refine ⟨h.inv.step hstep,hinv,h.doomed.step h.inv hstep,?_,?_,?_⟩
  · rw [hcompleted]
    exact h.bound
  · rw [hcompleted]
    intro hlt
    exact (h.late hlt).step h.inv h.doomed hstep
  · rw [hcompleted]
    intro hlt c hcurrent hslice
    have hkeeps : (s.sched.pc c).inSlice = true → s.tickCountCompleted t ≤
        start + s'.runningThreadTicks c := by
      intro hslice
      rw [hs.ticks c,hticks₀]
      · apply h.slice hlt c _ hslice
        rw [← hcurrent,schedStep_current hstep]
        intro next hset
        rw [hset] at hslice
        cases hslice
      · rw [hsched₀]
        intro hbegins
        rw [hbegins.2] at hslice
        cases hslice
    cases schedStep_pc hstep c with
    | same hsame =>
      rw [hsame] at hslice
      exact hkeeps hslice
    | run _ hrun =>
      rcases hrun.inSlice hslice with hslice | hpc
      · exact hkeeps hslice
      · apply (Late.not_begun h.inv (h.late hlt) _ hpc).elim
        rw [← hcurrent,schedStep_current hstep]
        intro next hset
        rw [hset] at hpc
        cases hpc
    | gives _ _ hpc' => rcases hpc' with hpc' | hpc' | hpc' <;> rw [hpc'] at hslice <;> cases hslice
    | unblocks t' caller _ hresume hpc' =>
      apply hkeeps
      rw [hpc'] at hslice
      rw [hresume]
      cases caller
      · rfl
      · cases hslice

private theorem Charged.tick {start : Nat} (h : Charged start t s) {c : Cpu} {isr : IsrHandlerPc}
    (hpc : s.sched.pc c = .running) (hinv : ((s.threadTick c).setIsr c isr).Inv) :
    Charged start t ((s.threadTick c).setIsr c isr) := by
  have hticks : ((s.threadTick c).setIsr c isr).runningThreadTicks c =
      s.runningThreadTicks c + 1 := Function.update_self _ _ _
  by_cases hcurrent : s.sched.currentThread c = t
  · have hcompleted : ((s.threadTick c).setIsr c isr).tickCountCompleted t =
        s.tickCountCompleted t + 1 := by
      simp [IsrState.setIsr,IsrState.threadTick,hcurrent]
    have hin : (s.sched.pc c).inSlice = true := by
      rw [hpc]
      rfl
    have hcharged : s.tickCountCompleted t ≤ start + s.runningThreadTicks c := by
      by_cases hlt : start < s.tickCountCompleted t
      · exact h.slice hlt c hcurrent hin
      · omega
    have hslice := (hinv c).slice
    rw [hticks] at hslice
    refine ⟨h.inv,hinv,h.doomed,?_,?_,?_⟩
    · rw [hcompleted]
      omega
    · intro _
      exact .current c hcurrent (isLate_of_inSlice hin)
    · intro _ c' hcurrent' hin'
      have hlate' : (s.sched.pc c').isLate = true := isLate_of_inSlice hin'
      have hc := late_unique h.inv hcurrent (isLate_of_inSlice hin)
        (by rw [running_of_late hlate']; exact hcurrent')
      rw [hc,hticks,hcompleted]
      omega
  · have hcompleted : ((s.threadTick c).setIsr c isr).tickCountCompleted t =
        s.tickCountCompleted t := by
      apply Function.update_of_ne
      exact fun heq => hcurrent heq.symm
    refine ⟨h.inv,hinv,h.doomed,?_,?_,?_⟩
    · rw [hcompleted]
      exact h.bound
    · rw [hcompleted]
      exact h.late
    · rw [hcompleted]
      intro hlt c' hcurrent' hin'
      have hc : c' ≠ c := by
        rintro rfl
        exact hcurrent hcurrent'
      rw [show ((s.threadTick c).setIsr c isr).runningThreadTicks c' = s.runningThreadTicks c' from
        Function.update_of_ne hc _ _]
      exact h.slice hlt c' hcurrent' hin'

private theorem Charged.step {start : Nat} (h : Charged start t s) {action : IsrAction Cpu Thread}
    (hs : isrStep data irqSpurious s action = some s') : Charged start t s' := by
  have hinv := h.ticks.step hs
  rcases isrStep_cases hs with ⟨a,rfl,_,hsched⟩ | ⟨c,rfl,_,hyield⟩ | hother
  · exact h.scheduled rfl rfl rfl hsched hinv
  · exact h.scheduled (by rfl) (by rfl) (by rfl) hyield hinv
  · cases hother with
    | tick hpc _ => exact h.tick hpc hinv
    | _ => exact ⟨h.inv,hinv,h.doomed,h.bound,h.late,h.slice⟩

private theorem isrReturned_step (hinv : SchedInv s.sched) (hdoomed : Doomed s.sched t)
    {action : IsrAction Cpu Thread} (hs : isrStep data irqSpurious s action = some s') :
    (isrReturned s action).count t ≤ 1 ∧
      (Returned s.sched t → Returned s'.sched t ∧ t ∉ isrReturned s action) ∧
      (t ∈ isrReturned s action → Returned s'.sched t) := by
  rcases isrStep_sched hs with ⟨a,hsched,hreturned⟩ | ⟨hsame,hnone⟩
  · rw [hreturned]
    refine ⟨readyThreadReturned_count a,?_,returned_of_mem hsched⟩
    intro hback
    exact ⟨hback.step hinv hdoomed hsched,hback.not_returned hinv hdoomed a⟩
  · rw [hsame,hnone]
    simp

private theorem doomed_run (h : (isrSystem data irqSpurious Cpu Thread).Reachable s)
    (hdoomed : Doomed s.sched t) {actions : List (IsrAction Cpu Thread)}
    (hrun : (isrSystem data irqSpurious Cpu Thread).run s actions = some s') :
    let returned := (isrSystem data irqSpurious Cpu Thread).observe isrReturned s actions
    returned.count t ≤ 1 ∧ (Returned s.sched t → returned.count t = 0) ∧
      s'.tickCountCompleted t ≤ s.tickCountCompleted t + threadTimeSlice ∧
      (Waits s'.sched t → Waits s.sched t) := by
  intro returned
  have hinv := schedInv_of_reachable (sched_reachable h)
  have hcount := observe_count_le_one
    (fun (s : IsrState Cpu Thread) a s' (hi : SchedInv s.sched ∧ Doomed s.sched t)
        (hs : isrStep data irqSpurious s a = some s') => by
      refine ⟨?_,isrReturned_step hi.1 hi.2 hs⟩
      rcases isrStep_sched hs with ⟨b,hsched,_⟩ | ⟨hsame,_⟩
      · exact ⟨hi.1.step hsched,hi.2.step hi.1 hsched⟩
      · rw [hsame]
        exact hi)
    ⟨hinv,hdoomed⟩ hrun
  have hcharged : Charged (s.tickCountCompleted t) t s :=
    ⟨hinv,isrInv_of_reachable h,hdoomed,by omega,by omega,by omega⟩
  have hafter : Charged (s.tickCountCompleted t) t s' ∧
      (Waits s'.sched t → Waits s.sched t) := by
    clear hcount
    generalize s.tickCountCompleted t = start at hcharged
    clear h hdoomed hinv returned
    induction actions generalizing s with
    | nil =>
      obtain rfl := Option.some.inj hrun
      exact ⟨hcharged,id⟩
    | cons a actions ih =>
      obtain ⟨s₁,hs₁,hrest⟩ := Option.bind_eq_some_iff.mp hrun
      obtain ⟨hcharged',hwaits⟩ := ih hrest (hcharged.step hs₁)
      refine ⟨hcharged',fun hb => ?_⟩
      rcases isrStep_sched hs₁ with ⟨b,hsched,_⟩ | ⟨hsame,_⟩
      · exact hcharged.doomed.waits hcharged.inv hsched (hwaits hb)
      · rw [← hsame]
        exact hwaits hb
  exact ⟨hcount.1,hcount.2,hafter.1.bound,hafter.2⟩

private theorem isrStep_flag {action : IsrAction Cpu Thread}
    (hs : isrStep data irqSpurious s action = some s')
    (hflag : s.sched.forceTerminatePending t = true) :
    s'.sched.forceTerminatePending t = true := by
  rcases isrStep_sched hs with ⟨a,hsched,_⟩ | ⟨hsame,_⟩
  · exact schedStep_flag hsched hflag
  · rw [hsame,hflag]

private theorem threadTerminate_flag
    (hs : isrStep data irqSpurious s (.sched (.threadTerminate t)) = some s') :
    s'.sched.forceTerminatePending t = true := by
  rcases isrStep_cases hs with ⟨a,ha,_,hsched⟩ | ⟨c,ha,_⟩ | hother
  · obtain rfl := IsrAction.sched.inj ha
    have hstep := hsched.sched
    simp only [schedStep] at hstep
    split_ifs at hstep
    rw [← Option.some.inj hstep]
    exact Function.update_self _ _ _
  · cases ha
  · cases hother

private theorem flag_of_terminated {actions : List (IsrAction Cpu Thread)}
    (hrun : (isrSystem data irqSpurious Cpu Thread).run s actions = some s')
    (h : s.sched.forceTerminatePending t = true ∨ .sched (.threadTerminate t) ∈ actions) :
    s'.sched.forceTerminatePending t = true := by
  induction actions generalizing s with
  | nil =>
    obtain rfl := Option.some.inj hrun
    simpa using h
  | cons a actions ih =>
    obtain ⟨s₁,hs₁,hrest⟩ := Option.bind_eq_some_iff.mp hrun
    apply ih hrest
    rcases h with hflag | hmem
    · exact Or.inl (isrStep_flag hs₁ hflag)
    · rcases List.mem_cons.mp hmem with rfl | hmem
      · have hstep : isrStep data irqSpurious s (.sched (.threadTerminate t)) = some s₁ := hs₁
        exact Or.inl (threadTerminate_flag hstep)
      · exact Or.inr hmem

/-- Once `ProcessTerminate` has gone through the threads of a process, and the caller has gone on to
`ThreadExit` if it is one of them, every thread of the process is returned from the ready list at
most once more, the caller not at all; it completes no more ticks than one time slice has, and comes
to wait for nothing that it does not wait for already or is about to. -/
theorem process_terminate (h : (isrSystem data irqSpurious Cpu Thread).Reachable s)
    {actions : List (IsrAction Cpu Thread)} {s₁ : IsrState Cpu Thread}
    (hrun : (isrSystem data irqSpurious Cpu Thread).run s actions = some s₁)
    (threadList : List Thread) (caller : Thread)
    (hterminates : ∀ a ∈ processTerminate threadList caller, IsrAction.sched a ∈ actions)
    (hexits : caller ∈ threadList → ∃ c, s₁.sched.currentThread c = caller ∧
      s₁.sched.pc c = .exitUnlock)
    {later : List (IsrAction Cpu Thread)}
    (hlater : (isrSystem data irqSpurious Cpu Thread).run s₁ later = some s')
    (ht : t ∈ threadList) :
    let returned := (isrSystem data irqSpurious Cpu Thread).observe isrReturned s₁ later
    returned.count t ≤ 1 ∧ (t = caller → returned.count t = 0) ∧
      s'.tickCountCompleted t ≤ s₁.tickCountCompleted t + threadTimeSlice ∧
      (s'.sched.state t = .blocked → Waits s₁.sched t) := by
  intro returned
  have hreach := Reachable.run h hrun
  by_cases hcaller : t = caller
  · obtain ⟨c,hcurrent,hpc⟩ := hexits (hcaller ▸ ht)
    rw [← hcaller] at hcurrent
    have hlate : Late s₁.sched t := .current c hcurrent (by rw [hpc]; rfl)
    obtain ⟨hcount,hzero,hrest⟩ :=
      doomed_run hreach (.exiting c hcurrent (Or.inl hpc)) hlater
    exact ⟨hcount,fun _ => hzero (.late hlate),hrest.1,fun hb => hrest.2 (.blocked hb)⟩
  · have hmem : IsrAction.sched (.threadTerminate t) ∈ actions := by
      apply hterminates
      simp [processTerminate,ht,hcaller]
    have hflag := flag_of_terminated hrun (Or.inr hmem)
    obtain ⟨hcount,_,hrest⟩ := doomed_run hreach (.pending hflag) hlater
    exact ⟨hcount,fun heq => absurd heq hcaller,hrest.1,fun hb => hrest.2 (.blocked hb)⟩

end Isr

/-- Thread 0 creates thread 2 and terminates its process. -/
def createAndTerminate : List (SchedAction (Fin 1) (Fin 3)) :=
  oneCpu ++ [.threadInit 0 2,.threadSetupInitialState 0 2,.threadStart 0 2] ++
    List.replicate 6 (.run 0) ++ processTerminate [2] 0

/-- Thread 0 yields to thread 2, which is interrupted by the system tick. -/
def yieldAndTick : List (IsrAction (Fin 1) (Fin 3)) :=
  .sched (.threadYield 0) :: List.replicate 9 (.sched (.run 0)) ++
    [.interrupt 0 64 true,.isrFunction 0 true,.isrReturn 0,.isrReturn 0,.isrReturn 0] ++
    List.replicate 11 (.sched (.run 0))

/-- Thread 2 is returned once, and exits at the end of its time slice. -/
theorem process_terminate_two : ∃ s₁ s' : IsrState (Fin 1) (Fin 3),
    (isrSystem tickData 7 (Fin 1) (Fin 3)).Reachable s₁ ∧
      (isrSystem tickData 7 (Fin 1) (Fin 3)).run s₁ yieldAndTick = some s' ∧
      s'.sched.state 2 = .dying ∧ s'.sched.currentThread 0 = 0 ∧
      ((isrSystem tickData 7 (Fin 1) (Fin 3)).observe isrReturned s₁ yieldAndTick).count 2 ≤ 1 := by
  have hreach : (isrSystem tickData 7 (Fin 1) (Fin 3)).Reachable (.start fun _ => 0) :=
    .init (IsrState.start_initial fun _ _ _ => Subsingleton.elim _ _)
  obtain ⟨s₁,hrun,hs₁⟩ := (Option.any_eq_true _ _).mp (show
    ((isrSystem tickData 7 (Fin 1) (Fin 3)).run (.start fun _ => 0)
      (createAndTerminate.map .sched)).any
      (fun s₁ => ((isrSystem tickData 7 (Fin 1) (Fin 3)).run s₁ yieldAndTick).any fun s' =>
        decide (s'.sched.state 2 = .dying ∧ s'.sched.currentThread 0 = 0)) = true by decide +kernel)
  obtain ⟨s',hlater,hs'⟩ := (Option.any_eq_true _ _).mp hs₁
  obtain ⟨hdying,hcurrent⟩ := of_decide_eq_true hs'
  refine ⟨s₁,s',hreach.run hrun,hlater,hdying,hcurrent,?_⟩
  exact (process_terminate hreach hrun [2] 0
    (by simp [processTerminate,createAndTerminate]) (by simp) hlater
    (List.mem_singleton.mpr rfl)).1

end Hal9000
