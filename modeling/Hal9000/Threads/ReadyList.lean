import Hal9000.Threads.Places

/-!
# The ready list

The calls of the threads and `ThreadCreateEx` keep the places of the threads too, so that they are
as stated in every run. What the scheduler promises about its list follows.
-/

namespace Hal9000

open Dispatch

variable {Cpu Thread : Type} [DecidableEq Cpu] [DecidableEq Thread] {s s' : SchedState Cpu Thread}
  {c : Cpu}

theorem SchedCall.pc_cases (h : SchedInv s) (hcall : SchedCall s s') (c' : Cpu) :
    s'.pc c' = s.pc c' ∨
      s.pc c' = .running ∧ (s'.pc c' = .yieldLock ∨
        s'.pc c' = .exitUnlock ∧ s.stage (s.currentThread c') = .started ∨
        s'.pc c' = .tookBlockLock ∧ s'.blockLock (s.currentThread c') = some c') ∨
      ∃ t caller, s.pc c' = caller.resume ∧ s'.pc c' = .unblockLock t caller ∧
        s'.stage t = .started := by
  cases hcall with
  | @threadYield c hpc | @threadTakeBlockLock c hpc _ =>
    by_cases hc : c' = c
    · right
      left
      simp [SchedState.setPc,SchedState.setBlockLock,hc,hpc]
    · exact Or.inl (Function.update_of_ne hc _ _)
  | @forcedExit c hpc hflag =>
    by_cases hc : c' = c
    · right
      left
      simp [SchedState.setPc,hc,hpc,h.flag _ hflag]
    · exact Or.inl (Function.update_of_ne hc _ _)
  | @threadExit c hpc hstage =>
    by_cases hc : c' = c
    · right
      left
      simp [SchedState.setPc,hc,hpc,hstage]
    · exact Or.inl (Function.update_of_ne hc _ _)
  | @threadUnblock c t caller hpc hstage =>
    by_cases hc : c' = c
    · right
      right
      refine ⟨t,caller,by rw [hc,hpc],?_,hstage⟩
      rw [hc]
      exact Function.update_self _ _ _
    · exact Or.inl (Function.update_of_ne hc _ _)
  | @threadStart c t hpc hstage =>
    by_cases hc : c' = c
    · right
      right
      refine ⟨t,.thread,by rw [hc,hpc]; rfl,?_,Function.update_self _ _ _⟩
      rw [hc]
      exact Function.update_self _ _ _
    · exact Or.inl (Function.update_of_ne hc _ _)
  | _ => exact Or.inl rfl

theorem SchedCall.current (hcall : SchedCall s s') :
    s'.currentThread = s.currentThread ∧ s'.readyThreadsList = s.readyThreadsList ∧
      s'.readyThreadsLock = s.readyThreadsLock := by
  cases hcall <;> exact ⟨rfl,rfl,rfl⟩

theorem SchedCall.running (h : SchedInv s) (hcall : SchedCall s s') :
    s'.running = s.running ∧ s'.chosen = s.chosen ∧
      ∀ c', (s'.pc c').isDispatching = (s.pc c').isDispatching ∧
        (s'.pc c').hasReadyLock = (s.pc c').hasReadyLock := by
  have each : ∀ c', s'.running c' = s.running c' ∧ s'.chosen c' = s.chosen c' ∧
      (s'.pc c').isDispatching = (s.pc c').isDispatching ∧
        (s'.pc c').hasReadyLock = (s.pc c').hasReadyLock := by
    intro c'
    simp only [SchedState.running,SchedState.chosen,hcall.current.1]
    rcases hcall.pc_cases h c' with hsame | ⟨hpc,hnext | ⟨hnext,_⟩ | ⟨hnext,_⟩⟩ |
      ⟨t,caller,hpc,hnext,_⟩
    · rw [hsame]
      exact ⟨rfl,rfl,rfl,rfl⟩
    · rw [hpc,hnext]
      exact ⟨rfl,rfl,rfl,rfl⟩
    · rw [hpc,hnext]
      exact ⟨rfl,rfl,rfl,rfl⟩
    · rw [hpc,hnext]
      exact ⟨rfl,rfl,rfl,rfl⟩
    · rw [hpc,hnext]
      cases caller <;> exact ⟨rfl,rfl,rfl,rfl⟩
  exact ⟨funext fun c' => (each c').1,funext fun c' => (each c').2.1,fun c' => (each c').2.2⟩

theorem SchedCall.stage_cases (hcall : SchedCall s s') (t : Thread) :
    s'.stage t = s.stage t ∧ s'.state t = s.state t ∧ s'.stack t = s.stack t ∨
      s.stage t = .absent ∧ s'.stage t = .initialized ∧ s'.state t = .blocked ∧
        s'.stack t = s.stack t ∨
      s.stage t = .initialized ∧ s'.stage t = .setUp ∧ s'.state t = s.state t ∧
        s'.stack t = .initial ∨
      s.stage t = .setUp ∧ s'.stack t = s.stack t ∧ (s'.stage t = .idle ∧ s'.state t = .ready ∨
        s'.stage t = .started ∧ s'.state t = s.state t) := by
  cases hcall with
  | @threadInit t' hstage | @threadSetupInitialState t' hstage | @startIdle _ t' _ hstage _
  | @threadStart _ t' _ hstage =>
    by_cases ht : t = t'
    · right
      simp [SchedState.setStage,SchedState.setState,SchedState.setStack,SchedState.setRefCnt,
        SchedState.setPc,ht,hstage]
    · left
      simp [SchedState.setStage,SchedState.setState,SchedState.setStack,SchedState.setRefCnt,
        SchedState.setPc,ht]
  | _ => exact Or.inl ⟨rfl,rfl,rfl⟩

private theorem SchedCall.blockLock_cases (hcall : SchedCall s s') (t : Thread) :
    s'.blockLock t = s.blockLock t ∨ s.blockLock t = none := by
  cases hcall with
  | @threadTakeBlockLock c hpc hfree =>
    by_cases ht : t = s.currentThread c
    · right
      rw [ht,hfree]
    · left
      simp [SchedState.setBlockLock,SchedState.setPc,ht]
  | _ => exact Or.inl rfl

private theorem SchedCall.idle_cases (hcall : SchedCall s s') :
    s'.idleThread = s.idleThread ∧ (∀ t, s'.stage t = .idle ↔ s.stage t = .idle) ∨
      ∃ c t, s.stage t = .setUp ∧ s.idleThread c = none ∧
        s'.idleThread = Function.update s.idleThread c (some t) ∧
          ∀ t', s'.stage t' = .idle ↔ t' = t ∨ s.stage t' = .idle := by
  cases hcall with
  | @threadInit t hstage | @threadSetupInitialState t hstage | @threadStart _ t _ hstage =>
    left
    refine ⟨rfl,fun t' => ?_⟩
    by_cases ht : t' = t
    · simp [SchedState.setStage,SchedState.setState,SchedState.setStack,SchedState.setRefCnt,
        SchedState.setPc,ht,hstage]
    · simp [SchedState.setStage,SchedState.setState,SchedState.setStack,SchedState.setRefCnt,
        SchedState.setPc,ht]
  | @startIdle c t hpc hstage hidle =>
    right
    refine ⟨c,t,hstage,hidle,rfl,fun t' => ?_⟩
    by_cases ht : t' = t
    · simp [SchedState.setStage,SchedState.setState,ht]
    · simp [SchedState.setStage,SchedState.setState,ht]
  | _ => exact Or.inl ⟨rfl,fun _ => Iff.rfl⟩

omit [DecidableEq Cpu] [DecidableEq Thread] in
private theorem SchedInv.setUp_off (h : SchedInv s) {t : Thread} (ht : s.stage t = .setUp) :
    Off s.places t where
  running c hrunning := by
    have hruns := h.runs c
    rw [show s.running c = t from hrunning,ht] at hruns
    rcases hruns with hruns | hruns <;> cases hruns
  chosen c hchosen := by
    have hstage := h.chosen c t hchosen
    rw [ht] at hstage
    rcases hstage with hstage | ⟨hstage,_⟩ <;> cases hstage
  idle c hidle := by
    have hstage := (h.idle t).mpr ⟨c,hidle⟩
    rw [ht] at hstage
    cases hstage
  queue hlisted := by
    have hstage := (h.ready t hlisted).2
    rw [ht] at hstage
    cases hstage

private theorem SchedCall.places (h : SchedInv s) (hcall : SchedCall s s') :
    s'.places = s.places ∨ Dispatch.Step s.places s'.places := by
  obtain ⟨hrunning,hchosen,hpc⟩ := hcall.running h
  obtain ⟨_,hlist,hlock⟩ := hcall.current
  have hplaces : s'.places = { s.places with idle := s'.idleThread } := by
    have hdispatching : (fun c => (s'.pc c).isDispatching) = fun c => (s.pc c).isDispatching :=
      funext fun c => (hpc c).1
    simp only [SchedState.places,hrunning,hchosen,hlist,hlock,hdispatching]
  rcases hcall.idle_cases with ⟨hidle,_⟩ | ⟨c,t,hstage,hnone,hidle,_⟩
  · left
    rw [hplaces,hidle]
    rfl
  · right
    rw [hplaces,hidle]
    exact .addIdle hnone (h.setUp_off hstage)

theorem SchedCall.live (hcall : SchedCall s s') {t : Thread}
    (ht : s.stage t = .idle ∨ s.stage t = .started) :
    s'.stage t = s.stage t ∧ s'.state t = s.state t := by
  rcases hcall.stage_cases t with ⟨hstage,hstate,_⟩ | ⟨hstage,_⟩ | ⟨hstage,_⟩ | ⟨hstage,_⟩
  · exact ⟨hstage,hstate⟩
  all_goals
    rw [hstage] at ht
    rcases ht with ht | ht <;> cases ht

private theorem SchedCall.blocked (h : SchedInv s) (hcall : SchedCall s s') :
    ∀ c, s'.state (s'.running c) = .blocked → s'.stage (s'.running c) = .started →
      s'.blockLock (s'.running c) = some c ∧ (s'.pc c).isBlocking = true := by
  intro c hblocked hstarted
  rw [(hcall.running h).1] at hblocked hstarted ⊢
  obtain ⟨hstage,hstate⟩ := hcall.live (h.runs c)
  rw [hstage] at hstarted
  rw [hstate] at hblocked
  obtain ⟨hown,hblocking⟩ := h.blocked c hblocked hstarted
  refine ⟨?_,?_⟩
  · rcases hcall.blockLock_cases (s.running c) with hsame | hnone
    · rw [hsame,hown]
    · rw [hown] at hnone
      cases hnone
  · rcases hcall.pc_cases h c with hsame | ⟨hpc,_⟩ | ⟨t,caller,hpc,_⟩
    · rw [hsame,hblocking]
    · rw [hpc] at hblocking
      cases hblocking
    · rw [hpc] at hblocking
      cases caller <;> cases hblocking

private theorem SchedCall.exiting (h : SchedInv s) (hcall : SchedCall s s') :
    ∀ c, s'.state (s'.running c) = .dying → (s'.pc c).isExiting = true := by
  intro c hdying
  rw [(hcall.running h).1,(hcall.live (h.runs c)).2] at hdying
  have hexiting := h.exiting c hdying
  rcases hcall.pc_cases h c with hsame | ⟨hpc,_⟩ | ⟨t,caller,hpc,hnext,_⟩
  · rw [hsame,hexiting]
  · rw [hpc] at hexiting
    cases hexiting
  · rw [hpc,resume_isExiting] at hexiting
    rw [hnext]
    exact hexiting

private theorem SchedCall.started (hcall : SchedCall s s') {t : Thread}
    (ht : s.stage t = .started) : s'.stage t = .started := by
  rw [(hcall.live (Or.inr ht)).1,ht]

private theorem SchedCall.dying (h : SchedInv s) (hcall : SchedCall s s') :
    ∀ t, s'.state t = .dying → s'.stage t = .started := by
  intro t hdying
  rcases hcall.stage_cases t with ⟨hstage,hstate,_⟩ | ⟨_,_,hstate,_⟩ | ⟨hstage,_,hstate,_⟩ |
    ⟨hstage,_,⟨_,hstate⟩ | ⟨_,hstate⟩⟩
  · rw [hstage]
    rw [hstate] at hdying
    exact h.dying t hdying
  · rw [hstate] at hdying
    cases hdying
  · rw [hstate] at hdying
    rw [h.dying t hdying] at hstage
    cases hstage
  · rw [hstate] at hdying
    cases hdying
  · rw [hstate] at hdying
    rw [h.dying t hdying] at hstage
    cases hstage

private theorem SchedCall.took (h : SchedInv s) (hcall : SchedCall s s') :
    ∀ c, s'.pc c = .tookBlockLock ∨ s'.pc c = .blockState →
      s'.blockLock (s'.currentThread c) = some c := by
  intro c hpc'
  rw [hcall.current.1]
  rcases hcall.pc_cases h c with hsame | ⟨_,hnext | ⟨hnext,_⟩ | ⟨_,hown⟩⟩ | ⟨t,caller,_,hnext,_⟩
  · rw [hsame] at hpc'
    have hown := h.took c hpc'
    rcases hcall.blockLock_cases (s.currentThread c) with hsame | hnone
    · rw [hsame,hown]
    · rw [hown] at hnone
      cases hnone
  · rw [hnext] at hpc'
    rcases hpc' with hpc' | hpc' <;> cases hpc'
  · rw [hnext] at hpc'
    rcases hpc' with hpc' | hpc' <;> cases hpc'
  · exact hown
  · rw [hnext] at hpc'
    rcases hpc' with hpc' | hpc' <;> cases hpc'

private theorem SchedCall.exits (h : SchedInv s) (hcall : SchedCall s s') :
    ∀ c, s'.pc c = .exitUnlock ∨ s'.pc c = .exitDying →
      s'.stage (s'.currentThread c) = .started := by
  intro c hpc'
  rw [hcall.current.1]
  apply hcall.started
  rcases hcall.pc_cases h c with hsame | ⟨_,hnext | ⟨_,hstage⟩ | ⟨hnext,_⟩⟩ | ⟨t,caller,_,hnext,_⟩
  · rw [hsame] at hpc'
    exact h.exits c hpc'
  · rw [hnext] at hpc'
    rcases hpc' with hpc' | hpc' <;> cases hpc'
  · exact hstage
  · rw [hnext] at hpc'
    rcases hpc' with hpc' | hpc' <;> cases hpc'
  · rw [hnext] at hpc'
    rcases hpc' with hpc' | hpc' <;> cases hpc'

private theorem SchedCall.unblocks (h : SchedInv s) (hcall : SchedCall s s') :
    ∀ c t, (s'.pc c).unblocks = some t → s'.stage t = .started := by
  intro c t ht
  rcases hcall.pc_cases h c with hsame | ⟨_,hnext | ⟨hnext,_⟩ | ⟨hnext,_⟩⟩ |
    ⟨t',caller,_,hnext,hstage⟩
  · rw [hsame] at ht
    exact hcall.started (h.unblocks c t ht)
  · rw [hnext] at ht
    cases ht
  · rw [hnext] at ht
    cases ht
  · rw [hnext] at ht
    cases ht
  · rw [hnext] at ht
    rw [← Option.some.inj ht]
    exact hstage

private theorem SchedCall.locks_same (h : SchedInv s) (hcall : SchedCall s s') {c : Cpu}
    {t : Thread} (ht : (s'.pc c).locks = some t) : s'.pc c = s.pc c := by
  rcases hcall.pc_cases h c with hsame | ⟨_,hnext | ⟨hnext,_⟩ | ⟨hnext,_⟩⟩ | ⟨t',caller,_,hnext,_⟩
  · exact hsame
  all_goals
    rw [hnext] at ht
    cases ht

private theorem SchedCall.locks (h : SchedInv s) (hcall : SchedCall s s') :
    ∀ c t, (s'.pc c).locks = some t → s'.blockLock t = some c := by
  intro c t ht
  rw [hcall.locks_same h ht] at ht
  have hown := h.locks c t ht
  rcases hcall.blockLock_cases t with hsame | hnone
  · rw [hsame,hown]
  · rw [hown] at hnone
    cases hnone

private theorem SchedCall.wakes (h : SchedInv s) (hcall : SchedCall s s') :
    ∀ c t, (s'.pc c).wakes = some t → s'.state t = .blocked := by
  intro c t ht
  have hlocks := SchedPc.locks_of_wakes ht
  rw [hcall.locks_same h hlocks] at ht
  have hstarted : s.stage t = .started := by
    apply h.unblocks c t
    cases hpc : s.pc c <;> rw [hpc] at ht <;> cases ht <;> rfl
  rw [(hcall.live (Or.inr hstarted)).2]
  exact h.wakes c t ht

private theorem SchedCall.flag (h : SchedInv s) (hcall : SchedCall s s') :
    ∀ t, s'.forceTerminatePending t = true → s'.stage t = .started := by
  intro t hflag
  apply hcall.started
  cases hcall with
  | @threadTerminate t' hstage =>
    by_cases ht : t = t'
    · rw [ht]
      exact hstage
    · apply h.flag
      simpa [ht] using hflag
  | _ => exact h.flag t hflag

private theorem SchedCall.idle (h : SchedInv s) (hcall : SchedCall s s') :
    ∀ t, s'.stage t = .idle ↔ ∃ c, s'.idleThread c = some t := by
  intro t
  rcases hcall.idle_cases with ⟨hidle,hstage⟩ | ⟨c,t',_,hnone,hidle,hstage⟩
  · rw [hidle,hstage]
    exact h.idle t
  · rw [hidle,hstage,h.idle]
    constructor
    · intro hcases
      rcases hcases with ht | ⟨c',hc'⟩
      · exact ⟨c,by rw [Function.update_self,ht]⟩
      · refine ⟨c',?_⟩
        have hc : c' ≠ c := by
          intro hc
          rw [hc,hnone] at hc'
          cases hc'
        rw [Function.update_of_ne hc,hc']
    · intro hcases
      obtain ⟨c',hc'⟩ := hcases
      by_cases hc : c' = c
      · left
        rw [hc,Function.update_self,Option.some.injEq] at hc'
        exact hc'.symm
      · rw [Function.update_of_ne hc] at hc'
        exact Or.inr ⟨c',hc'⟩

private theorem SchedCall.unset (h : SchedInv s) (hcall : SchedCall s s') :
    ∀ t, s'.stack t = .unset ↔ s'.stage t = .absent ∨ s'.stage t = .initialized := by
  intro t
  have hunset := h.unset t
  rcases hcall.stage_cases t with ⟨hstage,_,hstack⟩ | ⟨hstage,hnext,_,hstack⟩ |
    ⟨hstage,hnext,_,hstack⟩ | ⟨hstage,hstack,⟨hnext,_⟩ | ⟨hnext,_⟩⟩
  · rw [hstage,hstack]
    exact hunset
  · rw [hstack,hnext,hunset,hstage]
    simp
  · rw [hstack,hnext]
    simp
  · rw [hstack,hnext,hunset,hstage]
    simp
  · rw [hstack,hnext,hunset,hstage]
    simp

private theorem SchedCall.inUse (h : SchedInv s) (hcall : SchedCall s s') :
    ∀ t, s'.stack t = .inUse ↔ ∃ c, s'.running c = t := by
  intro t
  rw [(hcall.running h).1]
  rcases hcall.stage_cases t with ⟨_,_,hstack⟩ | ⟨_,_,_,hstack⟩ | ⟨hstage,_,_,hstack⟩ |
    ⟨_,hstack,_⟩
  · rw [hstack]
    exact h.inUse t
  · rw [hstack]
    exact h.inUse t
  · rw [hstack]
    refine iff_of_false (by simp) ?_
    intro hrunning
    obtain ⟨c,hc⟩ := hrunning
    have hruns := h.runs c
    rw [hc,hstage] at hruns
    rcases hruns with hruns | hruns <;> cases hruns
  · rw [hstack]
    exact h.inUse t

private theorem SchedInv.call (h : SchedInv s) (hcall : SchedCall s s') : SchedInv s' where
  places := by
    rcases hcall.places h with hsame | hstep
    · rw [hsame]
      exact h.places
    · exact h.places.step hstep
  lock c := by
    rw [hcall.current.2.2,((hcall.running h).2.2 c).2]
    exact h.lock c
  ready t ht := by
    rw [hcall.current.2.1] at ht
    obtain ⟨hready,hstarted⟩ := h.ready t ht
    rw [(hcall.live (Or.inr hstarted)).1,(hcall.live (Or.inr hstarted)).2]
    exact ⟨hready,hstarted⟩
  idle := hcall.idle h
  chosen c t ht := by
    rw [(hcall.running h).2.1] at ht
    have hchosen := h.chosen c t ht
    have hlive := hcall.live (hchosen.imp id And.left)
    rw [hlive.1,hlive.2]
    exact hchosen
  runs c := by
    rw [(hcall.running h).1,(hcall.live (h.runs c)).1]
    exact h.runs c
  blocked := hcall.blocked h
  exiting := hcall.exiting h
  dying := hcall.dying h
  took := hcall.took h
  unblocks := hcall.unblocks h
  locks := hcall.locks h
  wakes := hcall.wakes h
  exits := hcall.exits h
  flag := hcall.flag h
  unset := hcall.unset h
  inUse := hcall.inUse h

theorem SchedInv.step (h : SchedInv s) {action : SchedAction Cpu Thread}
    (hstep : schedStep s action = some s') : SchedInv s' := by
  rcases schedStep_cases hstep with ⟨c,_,hrun⟩ | ⟨_,hcall⟩
  · exact h.run hrun
  · exact h.call hcall

omit [DecidableEq Cpu] [DecidableEq Thread] in
theorem SchedInv.init (h : s.Initial) : SchedInv s := by
  have hrunning : s.running = s.currentThread := by
    funext c
    simp only [SchedState.running,h.pc]
    rfl
  have hchosen : ∀ c, s.chosen c = none := by
    intro c
    simp only [SchedState.chosen,h.pc]
    rfl
  have hstage : ∀ t, s.stage t = .absent ∨ s.stage t = .started := by
    intro t
    by_cases ht : ∃ c, s.currentThread c = t
    · obtain ⟨c,hc⟩ := ht
      rw [← hc]
      exact Or.inr (h.main c).1
    · exact Or.inl (h.others t fun c hc => ht ⟨c,hc⟩).1
  exact {
    places := Dispatch.Invariant.init (fun c c' heq => h.current (hrunning ▸ heq)) hchosen
      (fun c => congrArg SchedPc.isDispatching (h.pc c)) h.idle h.list
    lock := fun c => by
      rw [h.lock,h.pc]
      exact iff_of_false (by simp) (by simp [SchedPc.hasReadyLock])
    ready := fun t ht => by
      rw [h.list] at ht
      cases ht
    idle := fun t => by
      refine iff_of_false ?_ ?_
      · rcases hstage t with hstage | hstage <;> rw [hstage] <;> simp
      · intro hidle
        obtain ⟨c,hc⟩ := hidle
        rw [h.idle] at hc
        cases hc
    chosen := fun c t ht => by
      rw [hchosen] at ht
      cases ht
    runs := fun c => by
      rw [hrunning]
      exact Or.inr (h.main c).1
    blocked := fun c hc => by
      rw [hrunning,(h.main c).2.1] at hc
      cases hc
    exiting := fun c hc => by
      rw [hrunning,(h.main c).2.1] at hc
      cases hc
    dying := fun t ht => by
      rcases hstage t with hstage | hstage
      · by_cases hmain : ∃ c, s.currentThread c = t
        · obtain ⟨c,hc⟩ := hmain
          rw [← hc,(h.main c).1] at hstage
          cases hstage
        · rw [(h.others t fun c hc => hmain ⟨c,hc⟩).2.1] at ht
          cases ht
      · exact hstage
    took := fun c hc => by
      rw [h.pc] at hc
      rcases hc with hc | hc <;> cases hc
    unblocks := fun c t ht => by
      rw [h.pc] at ht
      cases ht
    locks := fun c t ht => by
      rw [h.pc] at ht
      cases ht
    wakes := fun c t ht => by
      rw [h.pc] at ht
      cases ht
    exits := fun c hc => by
      rw [h.pc] at hc
      rcases hc with hc | hc <;> cases hc
    flag := fun t ht => by
      rw [h.flag] at ht
      cases ht
    unset := fun t => by
      by_cases hmain : ∃ c, s.currentThread c = t
      · obtain ⟨c,hc⟩ := hmain
        rw [← hc,(h.main c).1,(h.main c).2.2.1]
        simp
      · have hother := h.others t fun c hc => hmain ⟨c,hc⟩
        rw [hother.1,hother.2.2.1]
        simp
    inUse := fun t => by
      rw [hrunning]
      by_cases hmain : ∃ c, s.currentThread c = t
      · obtain ⟨c,hc⟩ := hmain
        exact iff_of_true (by rw [← hc]; exact (h.main c).2.2.1) ⟨c,hc⟩
      · refine iff_of_false ?_ hmain
        rw [(h.others t fun c hc => hmain ⟨c,hc⟩).2.2.1]
        simp }

theorem schedInv_of_reachable (h : (schedSystem Cpu Thread).Reachable s) : SchedInv s :=
  h.invariant (fun _ => SchedInv.init) fun _ _ _ _ hinv _ hstep => hinv.step hstep

structure SchedState.WellPlaced (s : SchedState Cpu Thread) : Prop where
  current : ∀ c c', s.currentThread c = s.currentThread c' → c = c'
  nodup : s.readyThreadsList.Nodup
  /-- Only a CPU that schedules has its current thread on the list. -/
  listed : ∀ c, s.currentThread c ∈ s.readyThreadsList → s.readyThreadsLock = some c
  idle : ∀ c t, s.idleThread c = some t → t ∉ s.readyThreadsList
  /-- What `_ThreadGetReadyThread` removes. -/
  removed : ∀ c t rest, s.pc c = .getReadyThread → s.readyThreadsList = t :: rest →
    t = s.currentThread c ∨ s.stack t = .switched ∨ s.stack t = .initial

omit [DecidableEq Cpu] [DecidableEq Thread] in
theorem SchedState.current_cases (s : SchedState Cpu Thread) (c : Cpu) :
    s.running c = s.currentThread c ∨ s.chosen c = some (s.currentThread c) := by
  cases hpc : s.pc c with
  | threadSwitch old =>
    right
    simp only [SchedState.chosen,hpc]
    rfl
  | _ =>
    left
    simp only [SchedState.running,hpc]
    rfl

omit [DecidableEq Cpu] [DecidableEq Thread] in
private theorem SchedInv.chosen_unique (h : SchedInv s) {c c' : Cpu} {t t' : Thread}
    (ht : s.chosen c = some t) (ht' : s.chosen c' = some t') : c = c' := by
  have hlock := h.places.lock c (h.places.dispatching c t ht)
  have hlock' := h.places.lock c' (h.places.dispatching c' t' ht')
  rw [hlock,Option.some.injEq] at hlock'
  exact hlock'

omit [DecidableEq Cpu] [DecidableEq Thread] in
theorem SchedInv.current (h : SchedInv s) {c c' : Cpu}
    (heq : s.currentThread c = s.currentThread c') : c = c' := by
  rcases s.current_cases c with hc | hc <;> rcases s.current_cases c' with hc' | hc'
  · apply h.places.running
    change s.running c = s.running c'
    rw [hc,hc',heq]
  · exact absurd (hc.trans heq) ((h.places.chosen c' _ hc').1 c)
  · exact absurd (hc'.trans heq.symm) ((h.places.chosen c _ hc).1 c')
  · exact h.chosen_unique hc hc'

omit [DecidableEq Cpu] [DecidableEq Thread] in
private theorem SchedInv.listed (h : SchedInv s)
    (hmem : s.currentThread c ∈ s.readyThreadsList) : s.readyThreadsLock = some c := by
  rcases s.current_cases c with hc | hc
  · rw [← hc] at hmem
    exact h.places.lock c (h.places.listed c hmem).1
  · exact absurd hmem (h.places.chosen c _ hc).2

omit [DecidableEq Cpu] [DecidableEq Thread] in
private theorem SchedInv.removed (h : SchedInv s) {t : Thread} {rest : List Thread}
    (hpc : s.pc c = .getReadyThread) (hlist : s.readyThreadsList = t :: rest) :
    t = s.currentThread c ∨ s.stack t = .switched ∨ s.stack t = .initial := by
  have hmem : t ∈ s.readyThreadsList := by
    rw [hlist]
    exact List.mem_cons_self
  have hlock : s.readyThreadsLock = some c := (h.lock c).mpr (by rw [hpc]; rfl)
  cases hstack : s.stack t with
  | switched => exact Or.inr (Or.inl rfl)
  | initial => exact Or.inr (Or.inr rfl)
  | unset =>
    have hstage := (h.unset t).mp hstack
    rw [(h.ready t hmem).2] at hstage
    rcases hstage with hstage | hstage <;> cases hstage
  | inUse =>
    -- the CPU that runs it has the lock, so it is this one
    obtain ⟨c',hrunning⟩ := (h.inUse t).mp hstack
    rw [← hrunning] at hmem
    have hlock' := h.places.lock c' (h.places.listed c' hmem).1
    rw [show s.places.lock = s.readyThreadsLock from rfl,hlock,Option.some.injEq] at hlock'
    left
    rw [← hrunning,← hlock']
    simp only [SchedState.running,hpc]
    rfl

/-- The ready list in every run. -/
theorem ready_list_wellPlaced (h : (schedSystem Cpu Thread).Reachable s) : s.WellPlaced :=
  have hinv := schedInv_of_reachable h
  { current := fun _ _ => hinv.current
    nodup := hinv.places.nodup
    listed := fun _ => hinv.listed
    idle := fun c t ht => (hinv.places.idle c t ht).1
    removed := fun _ _ _ => hinv.removed }

/-- One CPU, which runs thread 0 and has thread 1 as its idle thread. -/
def oneCpu : List (SchedAction (Fin 1) (Fin 3)) :=
  [.threadInit 0 1,.threadSetupInitialState 0 1,.threadStart 0 1]

/-- Thread 0 creates thread 2 and yields, up to the removal from the ready list. -/
def createAndYield : List (SchedAction (Fin 1) (Fin 3)) :=
  [.threadInit 0 2,.threadSetupInitialState 0 2,.threadStart 0 2] ++ List.replicate 6 (.run 0) ++
    .threadYield 0 :: List.replicate 3 (.run 0)

/-- Thread 2 runs and yields in its turn: what was stored of thread 0 is needed again. -/
theorem ready_list_wellPlaced_two : ∃ s : SchedState (Fin 1) (Fin 3),
    (schedSystem (Fin 1) (Fin 3)).Reachable s ∧ s.pc 0 = .getReadyThread ∧
    s.readyThreadsList = [0,2] ∧ s.currentThread 0 = 2 ∧ s.stack 0 = .switched := by
  obtain ⟨s,hreach,hs⟩ := TransitionSystem.exists_reachable (schedSystem (Fin 1) (Fin 3))
    (fun _ _ => True) (.start fun _ => 0) (SchedState.start_initial fun _ _ _ => Subsingleton.elim _ _)
    (oneCpu ++ createAndYield ++ List.replicate 6 (.run 0) ++
      .threadYield 0 :: List.replicate 3 (.run 0))
    (fun s => decide (s.pc 0 = .getReadyThread ∧ s.readyThreadsList = [0,2] ∧
      s.currentThread 0 = 2 ∧ s.stack 0 ≠ .initial))
    (TransitionSystem.runSatisfies_of_forall (fun _ _ => trivial) _ _) (by decide +kernel)
  obtain ⟨hpc,hlist,hcurrent,hstack⟩ := of_decide_eq_true hs
  refine ⟨s,hreach,hpc,hlist,hcurrent,?_⟩
  rcases (ready_list_wellPlaced hreach).removed 0 0 [2] hpc hlist with heq | hswitched | hinitial
  · rw [hcurrent] at heq
    cases heq
  · exact hswitched
  · exact absurd hinitial hstack

/-- A thread that yields on its own is removed while its stack is in use, and one that is new
without `ThreadSwitch` having stored its stack. -/
theorem removed_not_switched :
    (∃ s : SchedState (Fin 1) (Fin 3), (schedSystem (Fin 1) (Fin 3)).Reachable s ∧
      s.pc 0 = .getReadyThread ∧ s.readyThreadsList = [0] ∧ s.stack 0 = .inUse) ∧
    ∃ s : SchedState (Fin 1) (Fin 3), (schedSystem (Fin 1) (Fin 3)).Reachable s ∧
      s.pc 0 = .getReadyThread ∧ s.readyThreadsList = [2,0] ∧ s.stack 2 = .initial := by
  refine ⟨?_,?_⟩
  · obtain ⟨s,hreach,hs⟩ := TransitionSystem.exists_reachable (schedSystem (Fin 1) (Fin 3))
      (fun _ _ => True) (.start fun _ => 0)
      (SchedState.start_initial fun _ _ _ => Subsingleton.elim _ _)
      (oneCpu ++ .threadYield 0 :: List.replicate 3 (.run 0))
      (fun s => decide (s.pc 0 = .getReadyThread ∧ s.readyThreadsList = [0] ∧ s.stack 0 = .inUse))
      (TransitionSystem.runSatisfies_of_forall (fun _ _ => trivial) _ _) (by decide +kernel)
    exact ⟨s,hreach,of_decide_eq_true hs⟩
  · obtain ⟨s,hreach,hs⟩ := TransitionSystem.exists_reachable (schedSystem (Fin 1) (Fin 3))
      (fun _ _ => True) (.start fun _ => 0)
      (SchedState.start_initial fun _ _ _ => Subsingleton.elim _ _)
      (oneCpu ++ createAndYield)
      (fun s => decide (s.pc 0 = .getReadyThread ∧ s.readyThreadsList = [2,0] ∧
        s.stack 2 = .initial))
      (TransitionSystem.runSatisfies_of_forall (fun _ _ => trivial) _ _) (by decide +kernel)
    exact ⟨s,hreach,of_decide_eq_true hs⟩

end Hal9000
