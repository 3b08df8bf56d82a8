import Hal9000.Framework.WaitingLine
import Hal9000.Threads.ReadyList

/-!
# Round robin

Every CPU takes the next thread to run from one ready list, its idle thread only when the list is
empty. The CPUs together serve the list in its order, so that the number of scheduling decisions
that a ready thread waits for is the number of threads in front of it.
-/

namespace Hal9000

open TransitionSystem

variable {Cpu Thread : Type} [DecidableEq Cpu] [DecidableEq Thread] {s s' : SchedState Cpu Thread}

/-- The thread that `_ThreadGetReadyThread` returns at a step. -/
def readyThreadReturned (s : SchedState Cpu Thread) : SchedAction Cpu Thread → List Thread
  | .run c =>
    if s.pc c = .getReadyThread then
      match s.readyThreadsList with
      | [] => (s.idleThread c).toList
      | next :: _ => [next]
    else []
  | _ => []

omit [DecidableEq Cpu] in
private theorem serve_of_join {c : Cpu} (hpc : s.pc c ≠ .getReadyThread) (joined : List Thread)
    (hline : s'.readyThreadsList = s.readyThreadsList ++ joined) :
    ServeStep s.readyThreadsList s'.readyThreadsList (readyThreadReturned s (.run c)) := by
  apply ServeStep.join joined _ hline
  simp [readyThreadReturned,hpc]

omit [DecidableEq Cpu] in
private theorem serve_of_same {c : Cpu} (hpc : s.pc c ≠ .getReadyThread)
    (hline : s'.readyThreadsList = s.readyThreadsList) :
    ServeStep s.readyThreadsList s'.readyThreadsList (readyThreadReturned s (.run c)) := by
  apply serve_of_join hpc []
  rw [hline,List.append_nil]

theorem schedRun_serves {c : Cpu} (h : SchedRun s c s') :
    ServeStep s.readyThreadsList s'.readyThreadsList (readyThreadReturned s (.run c)) := by
  cases h with
  | keepIdle hpc hlist hidle =>
    apply ServeStep.serveOther (s.currentThread c)
    · simp [readyThreadReturned,hpc,hlist,hidle]
    · exact ⟨hlist,hlist⟩
  | pickIdle hpc hlist hidle hne =>
    rename_i next
    apply ServeStep.serveOther next
    · simp [readyThreadReturned,hpc,hlist,hidle]
    · exact ⟨hlist,hlist⟩
  | keep hpc hlist =>
    apply ServeStep.serveFirst (s.currentThread c) _ hlist
    simp [readyThreadReturned,hpc,hlist]
  | pick hpc hlist hne =>
    rename_i next rest
    apply ServeStep.serveFirst next _ hlist
    simp [readyThreadReturned,hpc,hlist]
  | yieldInsert hpc hidle => exact serve_of_join (by simp [hpc]) _ rfl
  | unblockInsert hpc => exact serve_of_join (by simp [hpc]) _ rfl
  | noPrevious hpc hprev =>
    apply serve_of_same _ rfl
    rcases hpc with hpc | hpc | hpc <;> simp [hpc]
  | _ => exact serve_of_same (by simp [*]) rfl

theorem schedCall_line (h : SchedCall s s') : s'.readyThreadsList = s.readyThreadsList := by
  cases h <;> rfl

theorem schedSystem_servesLine :
    (schedSystem Cpu Thread).ServesLine SchedState.readyThreadsList readyThreadReturned := by
  intro s a s' hstep
  rcases schedStep_cases hstep with ⟨c,rfl,hrun⟩ | ⟨hcall,h⟩
  · exact schedRun_serves hrun
  · apply ServeStep.join []
    · cases a with
      | run c => exact absurd rfl (hcall c)
      | _ => rfl
    · rw [schedCall_line h,List.append_nil]

/-- A thread that is ready behind `k` others is the one returned by the `k`-th scheduling decision
from then on, on whatever CPU. Before it come the threads in front of it, in their order, and no
idle thread; until then it is on the list, one place nearer for each decision. -/
theorem ready_thread_turn (h : (schedSystem Cpu Thread).Reachable s)
    {actions : List (SchedAction Cpu Thread)}
    (hrun : (schedSystem Cpu Thread).run s actions = some s') {k : Nat} {t : Thread}
    (hready : s.readyThreadsList[k]? = some t) :
    let returned := (schedSystem Cpu Thread).observe readyThreadReturned s actions
    returned.take k = (s.readyThreadsList.take k).take returned.length ∧
      t ∉ returned.take k ∧ (∀ c idle, s.idleThread c = some idle → idle ∉ returned.take k) ∧
      (k < returned.length → returned[k]? = some t) ∧
      (returned.length ≤ k → s'.readyThreadsList[k - returned.length]? = some t) := by
  intro returned
  have hplaced := ready_list_wellPlaced h
  have hturn := schedSystem_servesLine.run hrun hready
  obtain ⟨hk,ht⟩ := List.getElem?_eq_some_iff.mp hready
  have htake : returned.take k = (s.readyThreadsList.take k).take returned.length := by
    have hfront := schedSystem_servesLine.take_eq hrun (n := min k returned.length)
      (by omega) (Nat.min_le_right _ _)
    rw [List.take_take,Nat.min_comm returned.length,← hfront]
    simp [returned]
  have hsubset : ∀ u ∈ returned.take k, u ∈ s.readyThreadsList.take k := by
    intro u hu
    rw [htake] at hu
    exact List.mem_of_mem_take hu
  refine ⟨htake,?_,?_,hturn.1,hturn.2⟩
  · intro hmem
    obtain ⟨i,hi,hget⟩ := List.mem_take_iff_getElem.mp (hsubset t hmem)
    have heq := (hplaced.nodup.getElem_inj_iff).mp (hget.trans ht.symm)
    omega
  · intro c idle hidle hmem
    exact hplaced.idle c idle hidle (List.mem_of_mem_take (hsubset idle hmem))

/-- Thread 2 is switched to and yields in its turn. -/
def yieldBack : List (SchedAction (Fin 1) (Fin 3)) :=
  List.replicate 6 (.run 0) ++ .threadYield 0 :: List.replicate 4 (.run 0)

/-- Thread 0 waits behind thread 2, and is returned after it. -/
theorem ready_thread_turn_second : ∃ s : SchedState (Fin 1) (Fin 3),
    (schedSystem (Fin 1) (Fin 3)).Reachable s ∧ s.readyThreadsList = [2,0] ∧
      ((schedSystem (Fin 1) (Fin 3)).observe readyThreadReturned s yieldBack)[1]? = some 0 := by
  have hinit : (SchedState.start (fun _ : Fin 1 => (0 : Fin 3))).Initial :=
    SchedState.start_initial fun _ _ _ => Subsingleton.elim _ _
  obtain ⟨s,hreach,hs⟩ := TransitionSystem.exists_reachable (schedSystem (Fin 1) (Fin 3))
    (fun _ _ => True) (.start fun _ => 0) hinit (oneCpu ++ createAndYield)
    (fun s => decide (s.readyThreadsList = [2,0]) &&
      ((schedSystem (Fin 1) (Fin 3)).run s yieldBack).isSome &&
      decide (1 < ((schedSystem (Fin 1) (Fin 3)).observe readyThreadReturned s yieldBack).length))
    (TransitionSystem.runSatisfies_of_forall (fun _ _ => trivial) _ _) (by decide +kernel)
  simp only [Bool.and_eq_true,decide_eq_true_eq] at hs
  obtain ⟨s',hrun⟩ := Option.isSome_iff_exists.mp hs.1.2
  have hready : s.readyThreadsList[1]? = some 0 := by simp [hs.1.1]
  exact ⟨s,hreach,hs.1.1,(ready_thread_turn hreach hrun hready).2.2.2.1 hs.2⟩

end Hal9000
