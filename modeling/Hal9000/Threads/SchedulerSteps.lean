import Hal9000.Threads.Scheduler

/-!
# The steps of the scheduler, by cases

What one step of a CPU does, one case for each branch of `schedRun`, and what the calls of the
threads do. The invariants are proved by cases on these relations.
-/

namespace Hal9000

variable {Cpu Thread : Type} [DecidableEq Cpu] [DecidableEq Thread]

inductive SchedRun (s : SchedState Cpu Thread) (c : Cpu) : SchedState Cpu Thread → Prop
  | yieldLock (hpc : s.pc c = .yieldLock) (hlock : s.readyThreadsLock = none) :
      SchedRun s c { s.setPc c .yieldInsert with readyThreadsLock := some c }
  | yieldIdle (hpc : s.pc c = .yieldInsert) (hidle : s.idleThread c = some (s.currentThread c)) :
      SchedRun s c ((s.setPc c .schedule).setState (s.currentThread c) .ready)
  | yieldInsert (hpc : s.pc c = .yieldInsert) (hidle : s.idleThread c ≠ some (s.currentThread c)) :
      SchedRun s c ({ s.setPc c .schedule with
        readyThreadsList := s.readyThreadsList ++ [s.currentThread c] }.setState
          (s.currentThread c) .ready)
  | forcedExit (hpc : s.pc c = .tookBlockLock) (hown : s.blockLock (s.currentThread c) = some c)
      (hflag : s.forceTerminatePending (s.currentThread c) = true) :
      SchedRun s c (s.setPc c .exitUnlock)
  | threadBlock (hpc : s.pc c = .tookBlockLock) (hown : s.blockLock (s.currentThread c) = some c)
      (hflag : s.forceTerminatePending (s.currentThread c) ≠ true) :
      SchedRun s c (s.setPc c .blockState)
  | blockState (hpc : s.pc c = .blockState) :
      SchedRun s c ((s.setPc c .blockLock).setState (s.currentThread c) .blocked)
  | blockLock (hpc : s.pc c = .blockLock) (hlock : s.readyThreadsLock = none) :
      SchedRun s c { s.setPc c .schedule with readyThreadsLock := some c }
  | unblockLock {t : Thread} {caller : UnblockCaller} (hpc : s.pc c = .unblockLock t caller)
      (hfree : s.blockLock t = none) :
      SchedRun s c ((s.setPc c (.unblockState t caller)).setBlockLock t (some c))
  | unblockState {t : Thread} {caller : UnblockCaller} (hpc : s.pc c = .unblockState t caller)
      (hblocked : s.state t = .blocked) :
      SchedRun s c (s.setPc c (.unblockReadyLock t caller))
  | unblockReadyLock {t : Thread} {caller : UnblockCaller}
      (hpc : s.pc c = .unblockReadyLock t caller) (hlock : s.readyThreadsLock = none) :
      SchedRun s c { s.setPc c (.unblockInsert t caller) with readyThreadsLock := some c }
  | unblockInsert {t : Thread} {caller : UnblockCaller} (hpc : s.pc c = .unblockInsert t caller) :
      SchedRun s c ({ s.setPc c (.unblockReleaseReady t caller) with
        readyThreadsList := s.readyThreadsList ++ [t] }.setState t .ready)
  | unblockReleaseReady {t : Thread} {caller : UnblockCaller}
      (hpc : s.pc c = .unblockReleaseReady t caller) :
      SchedRun s c { s.setPc c (.unblockRelease t caller) with readyThreadsLock := none }
  | unblockRelease {t : Thread} {caller : UnblockCaller} (hpc : s.pc c = .unblockRelease t caller) :
      SchedRun s c ((s.setPc c caller.resume).setBlockLock t none)
  | exitUnlock (hpc : s.pc c = .exitUnlock) :
      SchedRun s c ((s.setPc c .exitDying).setBlockLock (s.currentThread c)
        (if s.blockLock (s.currentThread c) = some c then none
          else s.blockLock (s.currentThread c)))
  | exitDying (hpc : s.pc c = .exitDying) :
      SchedRun s c ((s.setPc c .exitNotify).setState (s.currentThread c) .dying)
  | exitNotify (hpc : s.pc c = .exitNotify) (hlock : s.readyThreadsLock = none) :
      SchedRun s c { s.setPc c .schedule with readyThreadsLock := some c }
  | schedule (hpc : s.pc c = .schedule) :
      SchedRun s c ((s.setPc c .getReadyThread).setPrevious c (some (s.currentThread c)))
  | keepIdle (hpc : s.pc c = .getReadyThread) (hlist : s.readyThreadsList = [])
      (hidle : s.idleThread c = some (s.currentThread c)) : SchedRun s c (s.setPc c .releaseReady)
  | pickIdle {next : Thread} (hpc : s.pc c = .getReadyThread) (hlist : s.readyThreadsList = [])
      (hidle : s.idleThread c = some next) (hne : next ≠ s.currentThread c) :
      SchedRun s c (s.setPc c (.setCurrentThread next))
  | keep {rest : List Thread} (hpc : s.pc c = .getReadyThread)
      (hlist : s.readyThreadsList = s.currentThread c :: rest) :
      SchedRun s c { s.setPc c .releaseReady with readyThreadsList := rest }
  | pick {next : Thread} {rest : List Thread} (hpc : s.pc c = .getReadyThread)
      (hlist : s.readyThreadsList = next :: rest) (hne : next ≠ s.currentThread c) :
      SchedRun s c { s.setPc c (.setCurrentThread next) with readyThreadsList := rest }
  | setCurrentThread {next : Thread} (hpc : s.pc c = .setCurrentThread next) :
      SchedRun s c { s.setPc c (.threadSwitch (s.currentThread c)) with
        currentThread := Function.update s.currentThread c next }
  | threadSwitch {old : Thread} (hpc : s.pc c = .threadSwitch old) :
      SchedRun s c
        (((s.setPc c .releaseReady).setStack old .switched).setStack (s.currentThread c) .inUse)
  | releaseReady (hpc : s.pc c = .releaseReady) :
      SchedRun s c { s.setPc c .inspectLock with readyThreadsLock := none }
  | releaseBlock {prev : Thread} (hpc : s.pc c = .inspectLock)
      (hprev : s.previousThread c = some prev) (hown : s.blockLock prev = some c)
      (hstate : s.state prev = .blocked ∨ s.idleThread c = some prev) :
      SchedRun s c ((s.setPc c .running).setBlockLock prev none)
  | inspectLock {prev : Thread} (hpc : s.pc c = .inspectLock)
      (hprev : s.previousThread c = some prev) (hown : s.blockLock prev ≠ some c) :
      SchedRun s c (s.setPc c .inspectState)
  | inspectDying {prev : Thread} (hpc : s.pc c = .inspectState)
      (hprev : s.previousThread c = some prev) (hdying : s.state prev = .dying) :
      SchedRun s c (s.setPc c .dereference)
  | inspectLive {prev : Thread} (hpc : s.pc c = .inspectState)
      (hprev : s.previousThread c = some prev) (hlive : s.state prev ≠ .dying) :
      SchedRun s c (s.setPc c .running)
  | dereference {prev : Thread} (hpc : s.pc c = .dereference)
      (hprev : s.previousThread c = some prev) :
      SchedRun s c (((s.setPc c .running).setPrevious c none).threadDereference prev)
  | noPrevious (hpc : s.pc c = .inspectLock ∨ s.pc c = .inspectState ∨ s.pc c = .dereference)
      (hprev : s.previousThread c = none) : SchedRun s c (s.setPc c .running)

variable {s s' : SchedState Cpu Thread} {c : Cpu}

omit [DecidableEq Thread] in
private theorem acquireReady_eq {pc : SchedPc Thread} (h : s.acquireReady c pc = some s') :
    s.readyThreadsLock = none ∧ s' = { s.setPc c pc with readyThreadsLock := some c } := by
  unfold SchedState.acquireReady at h
  split_ifs at h with hlock
  exact ⟨hlock,(Option.some.inj h).symm⟩

omit [DecidableEq Cpu] [DecidableEq Thread] in
private theorem assert_bind_eq {condition : Prop} [Decidable condition]
    (h : (do assert (decide condition); return s) = some s') : condition ∧ s = s' := by
  obtain ⟨_,hassert,hs⟩ := Option.bind_eq_some_iff.mp h
  exact ⟨by simpa using hassert,Option.some.inj hs⟩

theorem schedRun_cases (h : schedRun s c = some s') : SchedRun s c s' := by
  unfold schedRun at h
  cases hpc : s.pc c <;> rw [hpc] at h <;> simp only [reduceCtorEq] at h
  case yieldLock =>
    obtain ⟨hlock,rfl⟩ := acquireReady_eq h
    exact .yieldLock hpc hlock
  case yieldInsert =>
    obtain rfl := Option.some.inj h
    by_cases hidle : s.idleThread c = some (s.currentThread c)
    · rw [if_pos hidle]
      exact .yieldIdle hpc hidle
    · rw [if_neg hidle]
      exact .yieldInsert hpc hidle
  case tookBlockLock =>
    obtain ⟨hown,rfl⟩ := assert_bind_eq h
    by_cases hflag : s.forceTerminatePending (s.currentThread c) = true
    · rw [if_pos hflag]
      exact .forcedExit hpc hown hflag
    · rw [if_neg hflag]
      exact .threadBlock hpc hown hflag
  case blockState =>
    obtain rfl := Option.some.inj h
    exact .blockState hpc
  case blockLock =>
    obtain ⟨hlock,rfl⟩ := acquireReady_eq h
    exact .blockLock hpc hlock
  case unblockLock t caller =>
    split_ifs at h with hfree
    obtain rfl := Option.some.inj h
    exact .unblockLock hpc hfree
  case unblockState t caller =>
    obtain ⟨hblocked,rfl⟩ := assert_bind_eq h
    exact .unblockState hpc hblocked
  case unblockReadyLock t caller =>
    obtain ⟨hlock,rfl⟩ := acquireReady_eq h
    exact .unblockReadyLock hpc hlock
  case unblockInsert t caller =>
    obtain rfl := Option.some.inj h
    exact .unblockInsert hpc
  case unblockReleaseReady t caller =>
    obtain rfl := Option.some.inj h
    exact .unblockReleaseReady hpc
  case unblockRelease t caller =>
    obtain rfl := Option.some.inj h
    exact .unblockRelease hpc
  case exitUnlock =>
    obtain rfl := Option.some.inj h
    exact .exitUnlock hpc
  case exitDying =>
    obtain rfl := Option.some.inj h
    exact .exitDying hpc
  case exitNotify =>
    obtain ⟨hlock,rfl⟩ := acquireReady_eq h
    exact .exitNotify hpc hlock
  case schedule =>
    obtain rfl := Option.some.inj h
    exact .schedule hpc
  case getReadyThread =>
    cases hlist : s.readyThreadsList with
    | nil =>
      rw [hlist] at h
      obtain ⟨next,hidle,rfl⟩ := Option.map_eq_some_iff.mp h
      by_cases hne : next = s.currentThread c
      · rw [SchedState.dispatch,if_pos hne]
        exact .keepIdle hpc hlist (by rw [hidle,hne])
      · rw [SchedState.dispatch,if_neg hne]
        exact .pickIdle hpc hlist hidle hne
    | cons next rest =>
      rw [hlist] at h
      obtain ⟨_,rfl⟩ := assert_bind_eq h
      by_cases hne : next = s.currentThread c
      · rw [SchedState.dispatch,if_pos hne]
        exact .keep hpc (by rw [hlist,hne])
      · rw [SchedState.dispatch,if_neg hne]
        exact .pick hpc hlist hne
  case setCurrentThread next =>
    obtain rfl := Option.some.inj h
    exact .setCurrentThread hpc
  case threadSwitch old =>
    obtain rfl := Option.some.inj h
    exact .threadSwitch hpc
  case releaseReady =>
    obtain rfl := Option.some.inj h
    exact .releaseReady hpc
  case inspectLock =>
    cases hprev : s.previousThread c with
    | none =>
      rw [hprev] at h
      obtain rfl := Option.some.inj h
      exact .noPrevious (Or.inl hpc) hprev
    | some prev =>
      simp only [hprev] at h
      split_ifs at h with hown
      · obtain ⟨hstate,rfl⟩ := assert_bind_eq h
        exact .releaseBlock hpc hprev hown hstate
      · obtain rfl := Option.some.inj h
        exact .inspectLock hpc hprev hown
  case inspectState =>
    cases hprev : s.previousThread c with
    | none =>
      rw [hprev] at h
      obtain rfl := Option.some.inj h
      exact .noPrevious (Or.inr (Or.inl hpc)) hprev
    | some prev =>
      rw [hprev] at h
      obtain rfl := Option.some.inj h
      by_cases hdying : s.state prev = .dying
      · rw [if_pos hdying]
        exact .inspectDying hpc hprev hdying
      · rw [if_neg hdying]
        exact .inspectLive hpc hprev hdying
  case dereference =>
    cases hprev : s.previousThread c with
    | none =>
      rw [hprev] at h
      obtain rfl := Option.some.inj h
      exact .noPrevious (Or.inr (Or.inr hpc)) hprev
    | some prev =>
      rw [hprev] at h
      obtain rfl := Option.some.inj h
      exact .dereference hpc hprev

/-- What the threads call, and what `ThreadCreateEx` and the holders of handles do. -/
inductive SchedCall (s : SchedState Cpu Thread) : SchedState Cpu Thread → Prop
  | threadYield {c : Cpu} (hpc : s.pc c = .running) : SchedCall s (s.setPc c .yieldLock)
  | forcedExit {c : Cpu} (hpc : s.pc c = .running)
      (hflag : s.forceTerminatePending (s.currentThread c) = true) :
      SchedCall s (s.setPc c .exitUnlock)
  | threadTakeBlockLock {c : Cpu} (hpc : s.pc c = .running)
      (hfree : s.blockLock (s.currentThread c) = none) :
      SchedCall s ((s.setPc c .tookBlockLock).setBlockLock (s.currentThread c) (some c))
  | threadUnblock {c : Cpu} {t : Thread} (caller : UnblockCaller) (hpc : s.pc c = caller.resume)
      (hstage : s.stage t = .started) : SchedCall s (s.setPc c (.unblockLock t caller))
  | threadExit {c : Cpu} (hpc : s.pc c = .running)
      (hstage : s.stage (s.currentThread c) = .started) : SchedCall s (s.setPc c .exitUnlock)
  | threadInit {t : Thread} (hstage : s.stage t = .absent) :
      SchedCall s (((s.setStage t .initialized).setState t .blocked).setRefCnt t 1)
  | threadSetupInitialState {t : Thread} (hstage : s.stage t = .initialized) :
      SchedCall s (((s.setStage t .setUp).setStack t .initial).setRefCnt t (s.refCnt t + 1))
  | startIdle {c : Cpu} {t : Thread} (hpc : s.pc c = .running) (hstage : s.stage t = .setUp)
      (hidle : s.idleThread c = none) : SchedCall s
        { ({ s with handle := Function.update s.handle t true }.setStage t .idle).setState t
            .ready with idleThread := Function.update s.idleThread c (some t) }
  | threadStart {c : Cpu} {t : Thread} (hpc : s.pc c = .running) (hstage : s.stage t = .setUp) :
      SchedCall s (({ s with handle := Function.update s.handle t true }.setStage t .started).setPc
        c (.unblockLock t .thread))
  | threadCloseHandle {t : Thread} (hhandle : s.handle t = true) : SchedCall s
      { s.threadDereference t with handle := Function.update s.handle t false }
  | threadTerminate {t : Thread} (hstage : s.stage t = .started) : SchedCall s
      { s with forceTerminatePending := Function.update s.forceTerminatePending t true }

theorem schedStep_cases {action : SchedAction Cpu Thread} (h : schedStep s action = some s') :
    (∃ c, action = .run c ∧ SchedRun s c s') ∨ (∀ c, action ≠ .run c) ∧ SchedCall s s' := by
  cases action with
  | run c => exact Or.inl ⟨c,rfl,schedRun_cases h⟩
  | threadYield c =>
    simp only [schedStep] at h
    split_ifs at h with hpc hflag <;> obtain rfl := Option.some.inj h
    · exact Or.inr ⟨by simp,.forcedExit hpc hflag⟩
    · exact Or.inr ⟨by simp,.threadYield hpc⟩
  | threadTakeBlockLock c =>
    simp only [schedStep] at h
    split_ifs at h with hpc
    obtain rfl := Option.some.inj h
    exact Or.inr ⟨by simp,.threadTakeBlockLock hpc.1 hpc.2⟩
  | threadUnblock c t =>
    simp only [schedStep] at h
    split_ifs at h with hstage
    cases hpc : s.pc c <;> rw [hpc] at h <;> simp only [reduceCtorEq] at h
    · obtain rfl := Option.some.inj h
      exact Or.inr ⟨by simp,.threadUnblock .thread hpc hstage⟩
    · obtain rfl := Option.some.inj h
      exact Or.inr ⟨by simp,.threadUnblock .exit hpc hstage⟩
  | threadExit c =>
    simp only [schedStep] at h
    split_ifs at h with hpc
    obtain rfl := Option.some.inj h
    exact Or.inr ⟨by simp,.threadExit hpc.1 hpc.2⟩
  | threadInit c t =>
    simp only [schedStep] at h
    split_ifs at h with hpc
    obtain rfl := Option.some.inj h
    exact Or.inr ⟨by simp,.threadInit hpc.2⟩
  | threadSetupInitialState c t =>
    simp only [schedStep] at h
    split_ifs at h with hpc
    obtain rfl := Option.some.inj h
    exact Or.inr ⟨by simp,.threadSetupInitialState hpc.2⟩
  | threadStart c t =>
    simp only [schedStep] at h
    split_ifs at h with hpc
    cases hidle : s.idleThread c <;> simp only [hidle] at h <;> obtain rfl := Option.some.inj h
    · exact Or.inr ⟨by simp,.startIdle hpc.1 hpc.2 hidle⟩
    · exact Or.inr ⟨by simp,.threadStart hpc.1 hpc.2⟩
  | threadCloseHandle t =>
    simp only [schedStep] at h
    split_ifs at h with hhandle
    obtain rfl := Option.some.inj h
    exact Or.inr ⟨by simp,.threadCloseHandle hhandle⟩
  | threadTerminate t =>
    simp only [schedStep] at h
    split_ifs at h with hstage
    obtain rfl := Option.some.inj h
    exact Or.inr ⟨by simp,.threadTerminate hstage⟩

end Hal9000
