import Hal9000.Process.ActiveTables
import Hal9000.Synch.Model
import Hal9000.Threads.IdleThread
import Hal9000.Threads.Scheduler

/-!
# The scheduler in one step

Where mutexes or paging tables are in question `_ThreadSchedule` and what leads to it are one step.
The scheduler does the same, lock by lock, when no other CPU comes between.
-/

namespace Hal9000

variable {Cpu Thread Process Mutex : Type} [DecidableEq Cpu] [DecidableEq Thread]
  [DecidableEq Process] [DecidableEq Mutex]

/-- Steps of one CPU. -/
def SchedState.RunsTo (s : SchedState Cpu Thread) (c : Cpu) (s' : SchedState Cpu Thread) : Prop :=
  ∃ n, (schedSystem Cpu Thread).run s (List.replicate n (.run c)) = some s'

section Runs

variable {s s₁ s' : SchedState Cpu Thread} {c : Cpu} {next : Thread}

theorem SchedState.RunsTo.refl : s.RunsTo c s := ⟨0,rfl⟩

theorem SchedState.RunsTo.head (hstep : schedRun s c = some s₁) (h : s₁.RunsTo c s') :
    s.RunsTo c s' := by
  obtain ⟨n,hn⟩ := h
  refine ⟨n + 1,?_⟩
  change (schedRun s c).bind _ = some s'
  rw [hstep,Option.bind_some]
  exact hn

/-- The next thread is current, with the lock of the ready list released. -/
structure SchedState.Switched (s : SchedState Cpu Thread) (c : Cpu) (next : Thread)
    (s' : SchedState Cpu Thread) : Prop where
  readyThreadsList : s'.readyThreadsList = s.readyThreadsList
  readyThreadsLock : s'.readyThreadsLock = none
  currentThread : s'.currentThread = Function.update s.currentThread c next
  previousThread : s'.previousThread = s.previousThread
  idleThread : s'.idleThread = s.idleThread
  state : s'.state = s.state
  blockLock : s'.blockLock = s.blockLock
  pc : s'.pc = Function.update s.pc c .inspectLock

omit [DecidableEq Thread] in
theorem SchedState.setPc_pc (pc : SchedPc Thread) : (s.setPc c pc).pc c = pc :=
  Function.update_self _ _ _

private theorem setCurrentThread_run (hpc : s.pc c = .setCurrentThread next) :
    schedRun s c = some { s.setPc c (.threadSwitch (s.currentThread c)) with
      currentThread := Function.update s.currentThread c next } := by
  simp only [schedRun,hpc]

private theorem threadSwitch_run {old : Thread} (hpc : s.pc c = .threadSwitch old) :
    schedRun s c = some
      (((s.setPc c .releaseReady).setStack old .switched).setStack (s.currentThread c) .inUse) := by
  simp only [schedRun,hpc]

private theorem releaseReady_run (hpc : s.pc c = .releaseReady) :
    schedRun s c = some { s.setPc c .inspectLock with readyThreadsLock := none } := by
  simp only [schedRun,hpc]

theorem dispatch_run (s : SchedState Cpu Thread) (c : Cpu) (next : Thread) :
    ∃ s', (s.dispatch c next).RunsTo c s' ∧ s.Switched c next s' := by
  by_cases hsame : next = s.currentThread c
  · rw [SchedState.dispatch,if_pos hsame]
    refine ⟨_,.head (releaseReady_run (SchedState.setPc_pc _)) .refl,rfl,rfl,?_,rfl,rfl,rfl,rfl,?_⟩
    · rw [hsame,Function.update_eq_self]
      rfl
    · exact Function.update_idem _ _ _
  · rw [SchedState.dispatch,if_neg hsame]
    refine ⟨_,.head (setCurrentThread_run (SchedState.setPc_pc _))
      (.head (threadSwitch_run (SchedState.setPc_pc _))
        (.head (releaseReady_run (SchedState.setPc_pc _)) .refl)),rfl,rfl,rfl,rfl,rfl,rfl,rfl,?_⟩
    simp [SchedState.setPc,SchedState.setStack]

end Runs

/-- What both models have. -/
structure CleanupState.Agrees (objects : CleanupObjects Cpu Thread Process Mutex)
    (r : CleanupState Cpu Thread Process Mutex) (s : SchedState Cpu Thread) : Prop where
  readyThreadsList : s.readyThreadsList = r.readyThreadsList
  currentThread : s.currentThread = r.currentThread
  previousThread : s.previousThread = r.previousThread
  idleThread : ∀ c, s.idleThread c = some (objects.idleThread c)
  state : s.state = r.state
  blockLock : s.blockLock = r.blockLock

section Schedule

variable {objects : CleanupObjects Cpu Thread Process Mutex}
  {r r' : CleanupState Cpu Thread Process Mutex} {s : SchedState Cpu Thread} {c : Cpu}
  {call : ThreadCall Thread Process Mutex} {calls : List (ThreadCall Thread Process Mutex)}

/-- The scheduler has chosen and switched, and the next thread is to clean up. -/
structure CleanupState.Reached (objects : CleanupObjects Cpu Thread Process Mutex)
    (r' : CleanupState Cpu Thread Process Mutex) (s : SchedState Cpu Thread) (c : Cpu)
    (pc : SchedPc Thread) (s' : SchedState Cpu Thread) : Prop where
  run : s.RunsTo c s'
  agrees : r'.Agrees objects s'
  unlocked : s'.readyThreadsLock = none
  pc : s'.pc = Function.update s.pc c pc

omit [DecidableEq Process] [DecidableEq Mutex] in
theorem schedule_run (h : r.Agrees objects s) (hpc : s.pc c = .schedule)
    (hrun : r.schedule objects c calls = some r') :
    ∃ s', r'.Reached objects s c .inspectLock s' := by
  obtain ⟨next,rest,hnext,rfl⟩ := CleanupState.schedule_eq hrun
  have hstep : schedRun s c =
      some ((s.setPc c .getReadyThread).setPrevious c (some (s.currentThread c))) := by
    simp only [schedRun,hpc]
  have hget : schedRun ((s.setPc c .getReadyThread).setPrevious c (some (s.currentThread c))) c =
      some ({ (s.setPc c .getReadyThread).setPrevious c (some (s.currentThread c)) with
        readyThreadsList := rest }.dispatch c next) := by
    rcases hnext with ⟨hlist,hready⟩ | ⟨hlist,rfl,rfl⟩
    · simp [schedRun,SchedState.setPc,SchedState.setPrevious,h.readyThreadsList,hlist,h.state,hready]
    · simp [schedRun,SchedState.setPc,SchedState.setPrevious,h.readyThreadsList,hlist,h.idleThread]
  obtain ⟨s',hs',hswitched⟩ := dispatch_run
    { (s.setPc c .getReadyThread).setPrevious c (some (s.currentThread c)) with
      readyThreadsList := rest } c next
  refine ⟨s',.head hstep (.head hget hs'),?_,hswitched.readyThreadsLock,?_⟩
  · constructor
    · exact hswitched.readyThreadsList
    · rw [hswitched.currentThread]
      exact congrArg (Function.update · c next) h.currentThread
    · rw [hswitched.previousThread]
      change Function.update s.previousThread c (some (s.currentThread c)) = _
      rw [h.previousThread,h.currentThread]
      rfl
    · intro c'
      rw [hswitched.idleThread]
      exact h.idleThread c'
    · exact hswitched.state.trans h.state
    · exact hswitched.blockLock.trans h.blockLock
  · rw [hswitched.pc]
    exact Function.update_idem _ _ _

omit [DecidableEq Process] [DecidableEq Mutex] in
/-- The lock of the ready list is taken and `_ThreadSchedule` runs. -/
theorem lockAndSchedule_run (h : r.Agrees objects s)
    (hstep : schedRun s c = s.acquireReady c .schedule) (hlock : s.readyThreadsLock = none)
    (hrun : r.schedule objects c calls = some r') :
    ∃ s', r'.Reached objects s c .inspectLock s' := by
  rw [SchedState.acquireReady,if_pos hlock] at hstep
  obtain ⟨s',hs'⟩ := schedule_run (s := { s.setPc c .schedule with readyThreadsLock := some c })
    ⟨h.readyThreadsList,h.currentThread,h.previousThread,h.idleThread,h.state,h.blockLock⟩
    (SchedState.setPc_pc _) hrun
  refine ⟨s',hs'.run.head hstep,hs'.agrees,hs'.unlocked,?_⟩
  rw [hs'.pc]
  exact Function.update_idem _ _ _

theorem threadBlock_run (h : r.Agrees objects s) (hpc : s.pc c = .tookBlockLock)
    (hlock : s.readyThreadsLock = none)
    (hflag : s.forceTerminatePending (s.currentThread c) = false)
    (hcalls : r.calls (r.currentThread c) = .threadBlock :: calls)
    (hrun : cleanupRun objects r c = some r') : ∃ s', r'.Reached objects s c .inspectLock s' := by
  simp only [cleanupRun,hcalls] at hrun
  obtain ⟨_,hown,hrun⟩ := Option.bind_eq_some_iff.mp hrun
  have hown : s.blockLock (s.currentThread c) = some c := by
    rw [h.blockLock,h.currentThread]
    simpa using hown
  have htest : schedRun s c = some (s.setPc c .blockState) := by
    simp [schedRun,hpc,hown,hflag]
  have hstore : schedRun (s.setPc c .blockState) c =
      some (((s.setPc c .blockState).setPc c .blockLock).setState (s.currentThread c) .blocked) := by
    simp only [schedRun,SchedState.setPc_pc]
    rfl
  obtain ⟨s',hs'⟩ := lockAndSchedule_run (c := c)
    (s := ((s.setPc c .blockState).setPc c .blockLock).setState (s.currentThread c) .blocked)
    (r := r.setState (r.currentThread c) .blocked)
    ⟨h.readyThreadsList,h.currentThread,h.previousThread,h.idleThread,
      by simp only [SchedState.setState,SchedState.setPc,CleanupState.setState,h.state,
        h.currentThread],h.blockLock⟩
    (by simp [schedRun,SchedState.setState,SchedState.setPc]) hlock hrun
  refine ⟨s',.head htest (.head hstore hs'.run),hs'.agrees,hs'.unlocked,?_⟩
  rw [hs'.pc]
  simp [SchedState.setState,SchedState.setPc]

theorem threadYield_run (h : r.Agrees objects s) (hpc : s.pc c = .yieldLock)
    (hlock : s.readyThreadsLock = none)
    (hcalls : r.calls (r.currentThread c) = .threadYield :: calls)
    (hrun : cleanupRun objects r c = some r') : ∃ s', r'.Reached objects s c .inspectLock s' := by
  simp only [cleanupRun,hcalls] at hrun
  have htake : schedRun s c =
      some { s.setPc c .yieldInsert with readyThreadsLock := some c } := by
    simp [schedRun,hpc,SchedState.acquireReady,hlock]
  obtain ⟨readyThreadsList,hready,hinsert⟩ : ∃ readyThreadsList,
      readyThreadsList = (if r.currentThread c = objects.idleThread c then r.readyThreadsList
        else r.readyThreadsList ++ [r.currentThread c]) ∧
      schedRun { s.setPc c .yieldInsert with readyThreadsLock := some c } c =
        some ({ s.setPc c .schedule with
          readyThreadsLock := some c
          readyThreadsList }.setState (s.currentThread c) .ready) := by
    refine ⟨_,rfl,?_⟩
    by_cases hidle : r.currentThread c = objects.idleThread c
    · simp [schedRun,SchedState.setPc,SchedState.setState,h.idleThread c,h.currentThread,
        h.readyThreadsList,hidle]
    · simp [schedRun,SchedState.setPc,SchedState.setState,h.idleThread c,h.currentThread,
        h.readyThreadsList,hidle,Ne.symm hidle]
  rw [← hready] at hrun
  obtain ⟨s',hs'⟩ := schedule_run (c := c)
    (s := { s.setPc c .schedule with
        readyThreadsLock := some c
        readyThreadsList }.setState (s.currentThread c) .ready)
    ⟨rfl,h.currentThread,h.previousThread,h.idleThread,
      by simp only [SchedState.setState,SchedState.setPc,CleanupState.setState,h.state,
        h.currentThread],h.blockLock⟩ (SchedState.setPc_pc _) hrun
  refine ⟨s',.head htake (.head hinsert hs'.run),hs'.agrees,hs'.unlocked,?_⟩
  rw [hs'.pc]
  simp [SchedState.setState,SchedState.setPc]

theorem threadExit_run (h : r.Agrees objects s) (hpc : s.pc c = .exitDying)
    (hlock : s.readyThreadsLock = none)
    (hcalls : r.calls (r.currentThread c) = .threadExit :: calls)
    (hrun : cleanupRun objects r c = some r') : ∃ s', r'.Reached objects s c .inspectLock s' := by
  simp only [cleanupRun,hcalls] at hrun
  have hstore : schedRun s c =
      some ((s.setPc c .exitNotify).setState (s.currentThread c) .dying) := by
    simp only [schedRun,hpc]
  obtain ⟨s',hs'⟩ := lockAndSchedule_run (c := c)
    (s := (s.setPc c .exitNotify).setState (s.currentThread c) .dying)
    (r := r.setState (r.currentThread c) .dying)
    ⟨h.readyThreadsList,h.currentThread,h.previousThread,h.idleThread,
      by simp only [SchedState.setState,SchedState.setPc,CleanupState.setState,h.state,
        h.currentThread],h.blockLock⟩
    (by simp [schedRun,SchedState.setState,SchedState.setPc]) hlock hrun
  refine ⟨s',.head hstore hs'.run,hs'.agrees,hs'.unlocked,?_⟩
  rw [hs'.pc]
  simp [SchedState.setState,SchedState.setPc]

omit [DecidableEq Thread] [DecidableEq Process] [DecidableEq Mutex] in
theorem CleanupState.Agrees.setPc (h : r.Agrees objects s) (pc : SchedPc Thread) :
    r.Agrees objects (s.setPc c pc) :=
  ⟨h.readyThreadsList,h.currentThread,h.previousThread,h.idleThread,h.state,h.blockLock⟩

omit [DecidableEq Cpu] [DecidableEq Process] [DecidableEq Mutex] in
theorem CleanupState.Agrees.setCalls (h : r.Agrees objects s) (t : Thread) :
    (r.setCalls t calls).Agrees objects s :=
  ⟨h.readyThreadsList,h.currentThread,h.previousThread,h.idleThread,h.state,h.blockLock⟩

/-- A thread that died is left to be dereferenced. -/
theorem threadCleanupPostSchedule_run (h : r.Agrees objects s) (hpc : s.pc c = .inspectLock)
    (hlock : s.readyThreadsLock = none)
    (hcalls : r.calls (r.currentThread c) = .threadCleanupPostSchedule :: calls)
    (hrun : cleanupRun objects r c = some r') : ∃ pc s', r'.Reached objects s c pc s' ∧
      (pc = .running ∧ r'.calls (r.currentThread c) = calls ∨
        pc = .dereference ∧ ∃ prev, r.previousThread c = some prev ∧ r'.calls (r.currentThread c) =
          .threadDereference prev :: .clearPreviousThread :: calls) := by
  simp only [cleanupRun,hcalls] at hrun
  cases hprev : r.previousThread c with
  | none =>
    simp only [hprev] at hrun
    obtain rfl := Option.some.inj hrun
    have hdone : schedRun s c = some (s.setPc c .running) := by
      simp only [schedRun,hpc,h.previousThread,hprev]
    exact ⟨_,_,⟨.head hdone .refl,(h.setPc _).setCalls _,hlock,rfl⟩,
      Or.inl ⟨rfl,Function.update_self _ _ _⟩⟩
  | some prev =>
    simp only [hprev] at hrun
    have hlook (hown : ¬r.blockLock prev = some c) :
        schedRun s c = some (s.setPc c .inspectState) := by
      simp [schedRun,hpc,h.previousThread,hprev,h.blockLock,hown]
    have hpcs (pc : SchedPc Thread) : ((s.setPc c .inspectState).setPc c pc).pc =
        Function.update s.pc c pc := Function.update_idem _ _ _
    split_ifs at hrun with hown hdying
    · obtain ⟨_,hstate,hrun⟩ := Option.bind_eq_some_iff.mp hrun
      obtain rfl := Option.some.inj hrun
      have hstate : s.state prev = .blocked ∨ s.idleThread c = some prev := by
        rw [h.state,h.idleThread c,Option.some.injEq]
        exact (of_decide_eq_true (assert_eq_some.mp hstate)).imp id Eq.symm
      have hdone : schedRun s c = some ((s.setPc c .running).setBlockLock prev none) := by
        simp only [schedRun,hpc,h.previousThread,hprev,h.blockLock,hown,if_true,
          decide_eq_true hstate,assert_true,Option.bind_eq_bind,Option.bind_some]
        rfl
      have hblockLock : Function.update s.blockLock prev none =
          Function.update r.blockLock prev none := by rw [h.blockLock]
      exact ⟨_,_,⟨.head hdone .refl,⟨h.readyThreadsList,h.currentThread,h.previousThread,
        h.idleThread,h.state,hblockLock⟩,hlock,rfl⟩,Or.inl ⟨rfl,Function.update_self _ _ _⟩⟩
    · obtain rfl := Option.some.inj hrun
      have hdone : schedRun (s.setPc c .inspectState) c =
          some ((s.setPc c .inspectState).setPc c .dereference) := by
        simp [schedRun,SchedState.setPc,h.previousThread,hprev,h.state,hdying]
      exact ⟨_,_,⟨.head (hlook hown) (.head hdone .refl),((h.setPc _).setPc _).setCalls _,hlock,
        hpcs _⟩,Or.inr ⟨rfl,prev,rfl,Function.update_self _ _ _⟩⟩
    · obtain rfl := Option.some.inj hrun
      have hdone : schedRun (s.setPc c .inspectState) c =
          some ((s.setPc c .inspectState).setPc c .running) := by
        simp [schedRun,SchedState.setPc,h.previousThread,hprev,h.state,hdying]
      exact ⟨_,_,⟨.head (hlook hown) (.head hdone .refl),((h.setPc _).setPc _).setCalls _,hlock,
        hpcs _⟩,Or.inl ⟨rfl,Function.update_self _ _ _⟩⟩

section Unblock

variable {t : Thread} {caller : UnblockCaller}

private theorem unblockLock_run (hpc : s.pc c = .unblockLock t caller) (hfree : s.blockLock t = none) :
    schedRun s c = some ((s.setPc c (.unblockState t caller)).setBlockLock t (some c)) := by
  simp only [schedRun,hpc,hfree,if_true]

private theorem unblockState_run (hpc : s.pc c = .unblockState t caller)
    (hblocked : s.state t = .blocked) :
    schedRun s c = some (s.setPc c (.unblockReadyLock t caller)) := by
  simp only [schedRun,hpc,hblocked,decide_true,assert_true,Option.bind_eq_bind,Option.bind_some]
  rfl

private theorem unblockReadyLock_run (hpc : s.pc c = .unblockReadyLock t caller)
    (hlock : s.readyThreadsLock = none) : schedRun s c =
      some { s.setPc c (.unblockInsert t caller) with readyThreadsLock := some c } := by
  simp only [schedRun,hpc,SchedState.acquireReady,hlock,if_true]

private theorem unblockInsert_run (hpc : s.pc c = .unblockInsert t caller) : schedRun s c =
    some ({ s.setPc c (.unblockReleaseReady t caller) with
      readyThreadsList := s.readyThreadsList ++ [t] }.setState t .ready) := by
  simp only [schedRun,hpc]

private theorem unblockReleaseReady_run (hpc : s.pc c = .unblockReleaseReady t caller) :
    schedRun s c = some { s.setPc c (.unblockRelease t caller) with readyThreadsLock := none } := by
  simp only [schedRun,hpc]

private theorem unblockRelease_run (hpc : s.pc c = .unblockRelease t caller) :
    schedRun s c = some ((s.setPc c caller.resume).setBlockLock t none) := by
  simp only [schedRun,hpc]

theorem threadUnblock_run (h : r.Agrees objects s) (hpc : s.pc c = .unblockLock t caller)
    (hlock : s.readyThreadsLock = none)
    (hcalls : r.calls (r.currentThread c) = .threadUnblock t :: calls)
    (hrun : cleanupRun objects r c = some r') : ∃ s', r'.Reached objects s c caller.resume s' := by
  simp only [cleanupRun,hcalls] at hrun
  split_ifs at hrun with hfree
  obtain ⟨_,hstate,hrun⟩ := Option.bind_eq_some_iff.mp hrun
  obtain rfl := Option.some.inj hrun
  have hunlocked : s.blockLock t = none := by rw [h.blockLock,hfree]
  have hblocked : s.state t = .blocked := by
    rw [h.state]
    exact of_decide_eq_true (assert_eq_some.mp hstate)
  refine ⟨_,.head (unblockLock_run hpc hunlocked)
    (.head (unblockState_run (SchedState.setPc_pc _) hblocked)
      (.head (unblockReadyLock_run (SchedState.setPc_pc _) hlock)
        (.head (unblockInsert_run (SchedState.setPc_pc _))
          (.head (unblockReleaseReady_run (SchedState.setPc_pc _))
            (.head (unblockRelease_run (SchedState.setPc_pc _)) .refl))))),?_,rfl,?_⟩
  · constructor
    · exact congrArg (· ++ [t]) h.readyThreadsList
    · exact h.currentThread
    · exact h.previousThread
    · exact h.idleThread
    · exact congrArg (Function.update · t .ready) h.state
    · change Function.update (Function.update s.blockLock t (some c)) t none = r.blockLock
      rw [Function.update_idem,← hunlocked,Function.update_eq_self,h.blockLock]
  · simp [SchedState.setPc,SchedState.setState,SchedState.setBlockLock]

end Unblock

end Schedule

section Cr3

variable {objects : CleanupObjects Cpu Thread Process Mutex}
  {r r' : CleanupState Cpu Thread Process Mutex} {calls : List (ThreadCall Thread Process Mutex)}
  {owner : Thread → Process} {systemProcess : Process} {u : Cr3State Cpu Thread Process} {c : Cpu}

private theorem chosen_run {next : Thread} (hpc : u.schedule c = .chosen next) :
    cr3Step owner systemProcess u (.scheduleStep c) = some ({ u with
      cr3 := if owner (u.currentThread c) = owner next then u.cr3
        else Function.update u.cr3 c (owner next) }.setSchedule c (.spaceChanged next)) := by
  by_cases hsame : owner (u.currentThread c) = owner next
  · simp [cr3Step,threadScheduleStep,hpc,hsame]
  · simp [cr3Step,threadScheduleStep,hpc,hsame,Cr3State.setCr3,Cr3State.setSchedule]

private theorem spaceChanged_run {next : Thread} (hpc : u.schedule c = .spaceChanged next) :
    cr3Step owner systemProcess u (.scheduleStep c) =
      some ((((u.setCurrentThread c next).setThread (u.currentThread c)
        (u.thread (u.currentThread c)).switchedOff).setCalls (u.currentThread c)
        (.threadCleanupPostSchedule :: u.calls (u.currentThread c))).setSchedule c .none) := by
  simp only [cr3Step,threadScheduleStep,hpc]

private theorem cr3Run_cons {u' : Cr3State Cpu Thread Process}
    {action : Cr3Action Cpu Thread Process} (h : cr3Step owner systemProcess u action = some u')
    (actions : List (Cr3Action Cpu Thread Process)) :
    (cr3System owner systemProcess).run u (action :: actions) =
      (cr3System owner systemProcess).run u' actions := by
  change (cr3Step owner systemProcess u action).bind _ = _
  rw [h,Option.bind_some]

omit [DecidableEq Mutex] in
/-- The switch to the thread that `_ThreadSchedule` has chosen, with the tables of its process. -/
theorem threadSchedule_run (hcurrent : u.currentThread = r.currentThread)
    (hschedule : u.schedule c = .none) (hmay : u.mayBeSwitched c = true)
    (hrun : r.schedule objects c calls = some r')
    (hwaiting : u.thread (r'.currentThread c) = .waiting) :
    ∃ u', (cr3System owner systemProcess).run u
        [.threadSchedule c (r'.currentThread c),.scheduleStep c,.scheduleStep c] = some u' ∧
      u'.currentThread = r'.currentThread ∧ u'.schedule c = .none ∧
      u'.cr3 = if owner (r.currentThread c) = owner (r'.currentThread c) then u.cr3
        else Function.update u.cr3 c (owner (r'.currentThread c)) := by
  obtain ⟨next,rest,_,rfl⟩ := CleanupState.schedule_eq hrun
  have hnext : (r.switchTo c calls next rest).currentThread =
      Function.update r.currentThread c next := rfl
  rw [hnext,Function.update_self] at hwaiting ⊢
  have hchoose : cr3Step owner systemProcess u (.threadSchedule c next) =
      some ((u.setThread next (.running c)).setSchedule c (.chosen next)) := by
    simp only [cr3Step,hschedule,hmay,hwaiting]
  rw [cr3Run_cons hchoose,cr3Run_cons (chosen_run (Function.update_self _ _ _)),
    cr3Run_cons (spaceChanged_run (Function.update_self _ _ _))]
  refine ⟨_,rfl,?_,Function.update_self _ _ _,?_⟩
  · exact congrArg (Function.update · c next) hcurrent
  · rw [← hcurrent]
    rfl

end Cr3

section Synch

variable {Event : Type} [DecidableEq Event] {objects : CleanupObjects Cpu Thread Process Mutex}
  {synchObjects : SynchObjects Thread Event Mutex} {r r' : CleanupState Cpu Thread Process Mutex}
  {y : SynchState Thread Event Mutex} {c : Cpu} {t : Thread} {w : Waitable Event Mutex}
  {calls : List (ThreadCall Thread Process Mutex)}

/-- The threads that sleep and the block locks that are held are the same. -/
structure CleanupState.SameBlocking (r : CleanupState Cpu Thread Process Mutex)
    (y : SynchState Thread Event Mutex) : Prop where
  state : y.state = r.state
  blockLock : ∀ t, y.blockLock t = none ↔ r.blockLock t = none

theorem threadBlock_synchRun (h : r.SameBlocking y) (hpc : y.pc (r.currentThread c) = .threadBlock w)
    (hflag : y.forceTerminatePending (r.currentThread c) = false)
    (hcalls : r.calls (r.currentThread c) = .threadBlock :: calls)
    (hrun : cleanupRun objects r c = some r') :
    ∃ y', (synchSystem synchObjects).run y [.run (r.currentThread c),.run (r.currentThread c)] =
        some y' ∧ r'.SameBlocking y' ∧ y'.pc (r.currentThread c) = .schedule w := by
  simp only [cleanupRun,hcalls] at hrun
  obtain ⟨_,_,hrun⟩ := Option.bind_eq_some_iff.mp hrun
  obtain ⟨next,rest,_,rfl⟩ := CleanupState.schedule_eq hrun
  refine ⟨((y.setPc (r.currentThread c) (.blockState w)).setPc (r.currentThread c)
    (.schedule w)).setState (r.currentThread c) .blocked,?_,⟨?_,?_⟩,Function.update_self _ _ _⟩
  · simp [TransitionSystem.run,synchSystem,synchStep,synchRun,hpc,hflag,SynchState.setPc,
      SynchState.setState]
  · exact congrArg (Function.update · (r.currentThread c) .blocked) h.state
  · exact h.blockLock

/-- The block lock is released by the thread that runs next. -/
theorem threadCleanupPostSchedule_synchRun {prev : Thread} (h : r.SameBlocking y)
    (hpc : y.pc prev = .schedule w) (hprev : r.previousThread c = some prev)
    (hown : r.blockLock prev = some c)
    (hcalls : r.calls (r.currentThread c) = .threadCleanupPostSchedule :: calls)
    (hrun : cleanupRun objects r c = some r') :
    ∃ y', (synchSystem synchObjects).run y [.run prev] = some y' ∧ r'.SameBlocking y' ∧
      y'.pc prev = .blocked w := by
  simp only [cleanupRun,hcalls,hprev,hown,if_true] at hrun
  obtain ⟨_,_,hrun⟩ := Option.bind_eq_some_iff.mp hrun
  obtain rfl := Option.some.inj hrun
  refine ⟨(y.setPc prev (.blocked w)).setBlockLock prev none,?_,⟨h.state,?_⟩,
    Function.update_self _ _ _⟩
  · simp [TransitionSystem.run,synchSystem,synchStep,synchRun,hpc]
  · intro t
    change Function.update y.blockLock prev none t = none ↔
      Function.update r.blockLock prev none t = none
    by_cases ht : t = prev
    · rw [ht,Function.update_self,Function.update_self]
      exact ⟨fun _ => rfl,fun _ => rfl⟩
    · rw [Function.update_of_ne ht,Function.update_of_ne ht]
      exact h.blockLock t

theorem threadUnblock_synchRun {caller : SignalCaller} (h : r.SameBlocking y)
    (hpc : y.pc (r.currentThread c) = .unblockLock w t caller)
    (hcalls : r.calls (r.currentThread c) = .threadUnblock t :: calls)
    (hrun : cleanupRun objects r c = some r') :
    ∃ y', (synchSystem synchObjects).run y (List.replicate 3 (.run (r.currentThread c))) =
        some y' ∧ r'.SameBlocking y' ∧
      y'.pc (r.currentThread c) = afterUnblock synchObjects caller w := by
  simp only [cleanupRun,hcalls] at hrun
  split_ifs at hrun with hfree
  obtain ⟨_,hstate,hrun⟩ := Option.bind_eq_some_iff.mp hrun
  obtain rfl := Option.some.inj hrun
  have hunlocked : y.blockLock t = none := (h.blockLock t).mpr hfree
  have hblocked : y.state t = .blocked := by
    rw [h.state]
    exact of_decide_eq_true (assert_eq_some.mp hstate)
  refine ⟨{ y.setPc (r.currentThread c) (afterUnblock synchObjects caller w) with
    state := Function.update y.state t .ready },?_,⟨?_,h.blockLock⟩,Function.update_self _ _ _⟩
  · have hback : Function.update y.blockLock t none = y.blockLock := by
      rw [← hunlocked,Function.update_eq_self]
    simp [TransitionSystem.run,synchSystem,synchStep,synchRun,hpc,hunlocked,hblocked,hback,
      SynchState.setPc,SynchState.setState,SynchState.setBlockLock]
  · exact congrArg (Function.update · t .ready) h.state

end Synch

end Hal9000
