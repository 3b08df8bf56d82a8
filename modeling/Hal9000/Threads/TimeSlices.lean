import Hal9000.Threads.InterruptReturn
import Hal9000.Threads.RoundRobin

/-!
# Time slices

A thread that uses up its time slice is made to yield, so that every CPU takes a scheduling
decision for each time slice that passes on it. With the order of the ready list this bounds the
ticks that a ready thread waits for.
-/

namespace Hal9000

open TransitionSystem

variable {Cpu Thread : Type} [DecidableEq Cpu] [DecidableEq Thread] {s s' : IsrState Cpu Thread}
  {data : IomuData IsrFunction} {irqSpurious : Nat}

/-- The CPU on which a step runs `ThreadTick`. -/
def threadTicked (s : IsrState Cpu Thread) : IsrAction Cpu Thread → List Cpu
  | .isrFunction c _ => match s.isr c with
    | .functions _ _ (.systemTick :: _) => [c]
    | _ => []
  | _ => []

/-- The thread that `_ThreadGetReadyThread` returns at a step. -/
def isrReturned (s : IsrState Cpu Thread) : IsrAction Cpu Thread → List Thread
  | .sched action => readyThreadReturned s.sched action
  | _ => []

/-- What a step returns on one CPU. -/
def returnedOn (s : IsrState Cpu Thread) (c : Cpu) : IsrAction Cpu Thread → Nat
  | .sched (.run c') => if c' = c then (readyThreadReturned s.sched (.run c')).length else 0
  | _ => 0

/-- The ticks that the next scheduling decision of a CPU pays for. -/
def IsrState.owed (s : IsrState Cpu Thread) (c : Cpu) : Nat :=
  if (s.sched.pc c).decided then 0 else s.runningThreadTicks c

theorem isrSystem_servesLine : (isrSystem data irqSpurious Cpu Thread).ServesLine
    (fun s => s.sched.readyThreadsList) isrReturned := by
  intro s action s' hstep
  rcases isrStep_cases hstep with ⟨a,rfl,_,hsched⟩ | ⟨c,rfl,_,hyield⟩ | hother
  · exact schedSystem_servesLine _ _ _ hsched.sched
  · apply ServeStep.join [] rfl
    rw [List.append_nil]
    have hcall := schedStep_cases hyield.sched
    rcases hcall with ⟨_,heq,_⟩ | ⟨_,hcall⟩
    · cases heq
    · exact schedCall_line hcall
  · cases hother <;> exact .join [] rfl (List.append_nil _).symm

private theorem readyThreadReturned_length {s s' : SchedState Cpu Thread} {c : Cpu}
    (h : schedStep s (.run c) = some s') (hpc : s.pc c = .getReadyThread) :
    (readyThreadReturned s (.run c)).length = 1 := by
  cases hlist : s.readyThreadsList with
  | nil =>
    simp only [schedStep,schedRun,hpc,hlist] at h
    obtain ⟨idle,hidle,_⟩ := Option.map_eq_some_iff.mp h
    simp [readyThreadReturned,hpc,hlist,hidle]
  | cons next rest => simp [readyThreadReturned,hpc,hlist]

omit [DecidableEq Cpu] [DecidableEq Thread] in
private theorem owed_of_same {c : Cpu} (hpc : s'.sched.pc c = s.sched.pc c)
    (hticks : s'.runningThreadTicks c = s.runningThreadTicks c) : s'.owed c = s.owed c := by
  simp only [IsrState.owed,hpc,hticks]

private theorem owed_scheduled {action : SchedAction Cpu Thread} (h : s.Inv)
    (hs : s.Scheduled action s') (c : Cpu) :
    s.owed c ≤ threadTimeSlice * returnedOn s c (.sched action) + s'.owed c := by
  by_cases hdecided : (s.sched.pc c).decided = true
  · simp [IsrState.owed,hdecided]
  have hticks : s'.runningThreadTicks c = s.runningThreadTicks c := by
    apply hs.ticks
    rintro ⟨_,hpc⟩
    rw [hpc] at hdecided
    exact hdecided rfl
  have hstays : (s'.sched.pc c).decided = false → s.owed c ≤ s'.owed c := by
    intro hnot
    simp [IsrState.owed,hnot,hdecided,hticks]
  cases schedStep_pc hs.sched c with
  | same hsame =>
    rw [owed_of_same hsame hticks]
    exact Nat.le_add_left _ _
  | run haction hrun =>
    cases hdecided' : (s'.sched.pc c).decided with
    | false => exact (hstays hdecided').trans (Nat.le_add_left _ _)
    | true =>
      -- the decision pays for the whole slice
      have hpc := (hrun.decided hdecided').resolve_left hdecided
      subst haction
      simp only [returnedOn,↓reduceIte,readyThreadReturned_length hs.sched hpc,Nat.mul_one]
      apply le_trans _ (Nat.le_add_right _ _)
      simp only [IsrState.owed,hdecided]
      exact (h c).slice
  | gives haction hpc hpc' =>
    apply (hstays _).trans (Nat.le_add_left _ _)
    rcases hpc' with hpc' | hpc' | hpc' <;> rw [hpc'] <;> rfl
  | unblocks t caller haction hpc hpc' =>
    apply (hstays _).trans (Nat.le_add_left _ _)
    rw [hpc']
    rfl

private theorem owed_step {action : IsrAction Cpu Thread} (h : s.Inv)
    (hs : isrStep data irqSpurious s action = some s') (c : Cpu) :
    (if c ∈ threadTicked s action then 1 else 0) + s.owed c ≤
      threadTimeSlice * returnedOn s c action + s'.owed c := by
  rcases isrStep_cases hs with ⟨a,rfl,_,hsched⟩ | ⟨c',rfl,hisr,hyield⟩ | hother
  · simpa [threadTicked] using owed_scheduled h hsched c
  · have hticks : s'.runningThreadTicks c = s.runningThreadTicks c := by
      apply hyield.ticks
      rintro ⟨hrun,_⟩
      cases hrun
    simp only [threadTicked,List.not_mem_nil,↓reduceIte,returnedOn,Nat.mul_zero,Nat.zero_add]
    cases schedStep_pc hyield.sched c with
    | same hsame => exact (owed_of_same hsame hticks).ge
    | run haction hrun => cases haction
    | gives haction hpc hpc' =>
      have hnot : (s'.sched.pc c).decided = false := by
        rcases hpc' with hpc' | hpc' | hpc' <;> rw [hpc'] <;> rfl
      rw [IsrState.owed,IsrState.owed,hnot,show s.sched.pc c = .running from hpc,hticks]
      exact le_rfl
    | unblocks t caller haction hpc hpc' => rcases haction with haction | haction <;> cases haction
  · cases hother with
    | @tick c' handles vector prevIrql rest hpc hisr =>
      simp only [threadTicked,hisr,List.mem_singleton,returnedOn,Nat.mul_zero,Nat.zero_add]
      by_cases hc : c = c'
      · subst hc
        simp [IsrState.owed,IsrState.setIsr,IsrState.threadTick,hpc,SchedPc.decided,Nat.add_comm]
      · simp [IsrState.owed,IsrState.setIsr,IsrState.threadTick,hc]
    | noFunction hpc hisr | device hpc hisr =>
      simp only [threadTicked,hisr,List.not_mem_nil,↓reduceIte,returnedOn,Nat.mul_zero,
        Nat.zero_add]
      exact (owed_of_same rfl rfl).ge
    | _ =>
      simp only [threadTicked,List.not_mem_nil,↓reduceIte,returnedOn,Nat.mul_zero,Nat.zero_add]
      exact (owed_of_same rfl rfl).ge

private theorem sum_returnedOn (cpus : Finset Cpu) (action : IsrAction Cpu Thread) :
    ∑ c ∈ cpus, returnedOn s c action ≤ (isrReturned s action).length := by
  cases action with
  | sched a =>
    cases a with
    | run c' =>
      simp only [returnedOn,isrReturned,Finset.sum_ite_eq]
      split <;> simp
    | _ => simp [returnedOn]
  | _ => simp [returnedOn]

omit [DecidableEq Thread] in
private theorem sum_ticked (cpus : Finset Cpu) (action : IsrAction Cpu Thread) :
    ((threadTicked s action).filter (· ∈ cpus)).length =
      ∑ c ∈ cpus, if c ∈ threadTicked s action then 1 else 0 := by
  have hcases : threadTicked s action = [] ∨ ∃ c, threadTicked s action = [c] := by
    unfold threadTicked
    split
    · split
      · exact Or.inr ⟨_,rfl⟩
      · exact Or.inl rfl
    · exact Or.inl rfl
  rcases hcases with hnone | ⟨c,hone⟩
  · simp [hnone]
  · by_cases hc : c ∈ cpus
    · simp [hone,hc]
    · simp [hone,hc]

/-- The ticks on some CPUs are paid for by the scheduling decisions, but for the time slice that
each of the CPUs may be in. -/
theorem ticks_paced (h : (isrSystem data irqSpurious Cpu Thread).Reachable s)
    {actions : List (IsrAction Cpu Thread)}
    (hrun : (isrSystem data irqSpurious Cpu Thread).run s actions = some s')
    (cpus : Finset Cpu) :
    ((isrSystem data irqSpurious Cpu Thread).observe
        (fun s action => (threadTicked s action).filter (· ∈ cpus)) s actions).length ≤
      threadTimeSlice * (((isrSystem data irqSpurious Cpu Thread).observe isrReturned s
        actions).length + cpus.card) := by
  have hstep : ∀ (s : IsrState Cpu Thread) action s', s.Inv →
      (isrSystem data irqSpurious Cpu Thread).step s action = some s' → s'.Inv ∧
        ((threadTicked s action).filter (· ∈ cpus)).length + ∑ c ∈ cpus, s.owed c ≤
          threadTimeSlice * (isrReturned s action).length + ∑ c ∈ cpus, s'.owed c := by
    intro s action s' h hs
    refine ⟨h.step hs,?_⟩
    rw [sum_ticked,← Finset.sum_add_distrib]
    calc ∑ c ∈ cpus, ((if c ∈ threadTicked s action then 1 else 0) + s.owed c)
        ≤ ∑ c ∈ cpus, (threadTimeSlice * returnedOn s c action + s'.owed c) :=
          Finset.sum_le_sum fun c _ => owed_step h hs c
      _ = threadTimeSlice * ∑ c ∈ cpus, returnedOn s c action + ∑ c ∈ cpus, s'.owed c := by
          rw [Finset.sum_add_distrib,Finset.mul_sum]
      _ ≤ threadTimeSlice * (isrReturned s action).length + ∑ c ∈ cpus, s'.owed c := by
          gcongr
          exact sum_returnedOn cpus action
  have howed : ∑ c ∈ cpus, s'.owed c ≤ threadTimeSlice * cpus.card := by
    have hinv : s'.Inv := isrInv_of_reachable (Reachable.run h hrun)
    rw [Nat.mul_comm,← smul_eq_mul]
    apply Finset.sum_le_card_nsmul
    intro c _
    rw [IsrState.owed]
    split
    · exact Nat.zero_le _
    · exact (hinv c).slice
  have hpaced := observe_paced hstep (isrInv_of_reachable h) hrun
  rw [Nat.mul_add]
  omega

/-- A thread that is ready behind `k` others is returned to a CPU, after those in front of it,
before the CPUs of a set have completed more ticks than the time slices of `k` decisions and one
for each of them; on one CPU, before more than `k + 1` time slices have passed there. -/
theorem time_slices (h : (isrSystem data irqSpurious Cpu Thread).Reachable s)
    {actions : List (IsrAction Cpu Thread)}
    (hrun : (isrSystem data irqSpurious Cpu Thread).run s actions = some s') {k : Nat} {t : Thread}
    (hready : s.sched.readyThreadsList[k]? = some t) (cpus : Finset Cpu)
    (hticks : threadTimeSlice * (k + cpus.card) <
      ((isrSystem data irqSpurious Cpu Thread).observe
        (fun s action => (threadTicked s action).filter (· ∈ cpus)) s actions).length) :
    let returned := (isrSystem data irqSpurious Cpu Thread).observe isrReturned s actions
    returned[k]? = some t ∧ returned.take k = s.sched.readyThreadsList.take k := by
  intro returned
  have hpaced := ticks_paced h hrun cpus
  have hlength : k < returned.length := by
    have hlt := lt_of_lt_of_le hticks hpaced
    exact Nat.lt_of_add_lt_add_right (Nat.lt_of_mul_lt_mul_left hlt)
  have hturn := isrSystem_servesLine.run hrun hready
  obtain ⟨hk,_⟩ := List.getElem?_eq_some_iff.mp hready
  exact ⟨hturn.1 hlength,isrSystem_servesLine.take_eq hrun hk.le hlength.le⟩

/-- The CPU is interrupted by the system tick, and the thread is switched away from. -/
def tickAndSwitch : List (IsrAction (Fin 1) (Fin 3)) :=
  [.interrupt 0 64 true,.isrFunction 0 true,.isrReturn 0,.isrReturn 0,.isrReturn 0] ++
    List.replicate 9 (.sched (.run 0))

def threeTicks : List (IsrAction (Fin 1) (Fin 3)) :=
  List.replicate 6 (.sched (.run 0)) ++ tickAndSwitch ++ tickAndSwitch ++ tickAndSwitch

/-- Thread 0 waits behind thread 2, and is returned before the third tick is completed. -/
theorem time_slices_three : ∃ s : IsrState (Fin 1) (Fin 3),
    (isrSystem tickData 7 (Fin 1) (Fin 3)).Reachable s ∧ s.sched.readyThreadsList = [2,0] ∧
      ((isrSystem tickData 7 (Fin 1) (Fin 3)).observe isrReturned s threeTicks)[1]? = some 0 := by
  have hinit : (IsrState.start (fun _ : Fin 1 => (0 : Fin 3))).Initial :=
    IsrState.start_initial fun _ _ _ => Subsingleton.elim _ _
  obtain ⟨s,hreach,hs⟩ := TransitionSystem.exists_reachable (isrSystem tickData 7 (Fin 1) (Fin 3))
    (fun _ _ => True) (.start fun _ => 0) hinit ((oneCpu ++ createAndYield).map .sched)
    (fun s => decide (s.sched.readyThreadsList = [2,0]) &&
      ((isrSystem tickData 7 (Fin 1) (Fin 3)).run s threeTicks).isSome &&
      decide (threadTimeSlice * (1 + ({0} : Finset (Fin 1)).card) <
        ((isrSystem tickData 7 (Fin 1) (Fin 3)).observe
          (fun s action => (threadTicked s action).filter (· ∈ ({0} : Finset (Fin 1))))
          s threeTicks).length))
    (TransitionSystem.runSatisfies_of_forall (fun _ _ => trivial) _ _) (by decide +kernel)
  simp only [Bool.and_eq_true,decide_eq_true_eq] at hs
  obtain ⟨s',hrun⟩ := Option.isSome_iff_exists.mp hs.1.2
  have hready : s.sched.readyThreadsList[1]? = some 0 := by simp [hs.1.1]
  exact ⟨s,hreach,hs.1.1,(time_slices hreach hrun hready {0} hs.2).1⟩

end Hal9000
