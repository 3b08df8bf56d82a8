import Hal9000.Common.Machine
import Hal9000.Framework.PastTime
import Hal9000.Framework.TransitionSystem

/-!
# Timers

A thread that waits for a timer yields until the system time has reached the trigger time, or the
timer is stopped. The reload time of a periodic timer is stored, but no wait ever adds it to the
trigger time.
-/

namespace Hal9000

inductive ExTimerType
  | absolute
  | relativeOnce
  | relativePeriodic
  deriving DecidableEq

/-- The value of an `EX_TIMER_TYPE` that a caller passes. -/
def ExTimerType.ofValue : Nat → Option ExTimerType
  | 0 => some .absolute
  | 1 => some .relativeOnce
  | 2 => some .relativePeriodic
  | _ => none

structure ExTimer where
  triggerTimeUs : Nat
  reloadTimeUs : Nat
  type : ExTimerType
  timerStarted : Bool
  timerUninited : Bool
  deriving DecidableEq

inductive TimerStatus
  | invalidParameter2
  deriving DecidableEq

/-- `ExTimerInit` at the system time `now`. -/
def exTimerInit (type time now : Nat) : Except TimerStatus ExTimer :=
  match ExTimerType.ofValue type with
  | none => .error .invalidParameter2
  | some .absolute => .ok ⟨time,0,.absolute,false,false⟩
  | some relative => .ok ⟨(now + time) % qwordModulus,time,relative,false,false⟩

inductive TimerCall
  | exTimerStart
  | exTimerStop
  | exTimerWait
  | exTimerUninit

/-- Where a thread stands in a call. `ExTimerUninit` calls `ExTimerStop` first. -/
inductive TimerPc
  | outside
  | startCheck
  | startSet
  | stopCheck (uninit : Bool)
  | stopSet (uninit : Bool)
  | uninitSet
  | waitCheck
  | waitTime
  | waitStarted
  | waitYield
  deriving DecidableEq

structure TimerState (Thread : Type) where
  now : Nat
  timer : ExTimer
  pc : Thread → TimerPc

inductive TimerAction (Thread : Type)
  | clock (later : Nat)
  | call (t : Thread) (call : TimerCall)
  | run (t : Thread)

inductive TimerEvent (Thread : Type)
  /-- A wait begins, on a timer that runs or not. -/
  | called (t : Thread) (running : Bool)
  | returned (t : Thread) (now : Nat)
  | stopped
  | uninited
  deriving DecidableEq

section Timer

variable {Thread : Type} [DecidableEq Thread]

def ExTimer.running (timer : ExTimer) : Bool := timer.timerStarted && !timer.timerUninited

def TimerState.setPc (s : TimerState Thread) (t : Thread) (pc : TimerPc) : TimerState Thread :=
  { s with pc := Function.update s.pc t pc }

def TimerState.setTimer (s : TimerState Thread) (timer : ExTimer) : TimerState Thread :=
  { s with timer }

def TimerCall.entry : TimerCall → TimerPc
  | .exTimerStart => .startCheck
  | .exTimerStop => .stopCheck false
  | .exTimerWait => .waitCheck
  | .exTimerUninit => .stopCheck true

/-- `ExTimerStop` returns to its caller, or to `ExTimerUninit`. -/
def afterStop (uninit : Bool) : TimerPc := if uninit then .uninitSet else .outside

/-- What a thread does next in its call, with the flags that it writes. -/
def TimerPc.next (now : Nat) (timer : ExTimer) : TimerPc → Option (TimerPc × ExTimer)
  | .outside => none
  | .startCheck => some (if timer.timerUninited then .outside else .startSet,timer)
  | .startSet => some (.outside,{ timer with timerStarted := true })
  | .stopCheck uninit =>
    some (if timer.timerUninited then afterStop uninit else .stopSet uninit,timer)
  | .stopSet uninit => some (afterStop uninit,{ timer with timerStarted := false })
  | .uninitSet => some (.outside,{ timer with timerUninited := true })
  | .waitCheck => some (if timer.timerUninited then .outside else .waitTime,timer)
  | .waitTime => some (if now < timer.triggerTimeUs then .waitStarted else .outside,timer)
  | .waitStarted => some (if timer.timerStarted then .waitYield else .outside,timer)
  | .waitYield => some (.waitTime,timer)

/-- The system time never goes back. -/
def timerStep (s : TimerState Thread) : TimerAction Thread → Option (TimerState Thread)
  | .clock later => if s.now ≤ later then some { s with now := later } else none
  | .call t call => if s.pc t = .outside then some (s.setPc t call.entry) else none
  | .run t => ((s.pc t).next s.now s.timer).map fun next => (s.setPc t next.1).setTimer next.2

def TimerPc.waits : TimerPc → Bool
  | .waitCheck | .waitTime | .waitStarted | .waitYield => true
  | .outside | .startCheck | .startSet | .stopCheck _ | .stopSet _ | .uninitSet => false

/-- What a thread that moves on shows. -/
def TimerPc.events (t : Thread) (now : Nat) (timer : ExTimer) (pc : TimerPc) :
    List (TimerEvent Thread) :=
  match pc with
  | .stopSet _ => [.stopped]
  | .uninitSet => [.uninited]
  | .waitCheck => if timer.timerUninited then [.returned t now] else []
  | .waitTime => if now < timer.triggerTimeUs then [] else [.returned t now]
  | .waitStarted => if timer.timerStarted then [] else [.returned t now]
  | .outside | .startCheck | .startSet | .stopCheck _ | .waitYield => []

def timerEvents (s : TimerState Thread) : TimerAction Thread → List (TimerEvent Thread)
  | .clock _ => []
  | .call t .exTimerWait => [.called t s.timer.running]
  | .call _ .exTimerStart | .call _ .exTimerStop | .call _ .exTimerUninit => []
  | .run t => (s.pc t).events t s.now s.timer

/-- The runs of one timer, from its initialization on. -/
def exTimerSystem (type time : Nat) : TransitionSystem (TimerState Thread) (TimerAction Thread) where
  init s := exTimerInit type time s.now = .ok s.timer ∧ ∀ t, s.pc t = .outside
  step := timerStep

/-- The number of waits from which the thread has returned. -/
def completedWaits (t : Thread) (history : List (TimerEvent Thread)) : Nat :=
  history.countP fun
    | .returned other _ => other == t
    | .called _ _ | .stopped | .uninited => false

end Timer

section Property

variable {Thread : Type}

/-- The wait of the thread goes on, and nobody stops the timer. -/
def KeepsWaiting (t : Thread) : TimerEvent Thread → Prop
  | .called other _ | .returned other _ => other ≠ t
  | .stopped | .uninited => False

/-- The thread waits for a timer that was running and has been running since. -/
def WaitsOnRunning (t : Thread) : List (TimerEvent Thread) → Prop :=
  Since (KeepsWaiting t) (· = .called t true)

variable [DecidableEq Thread]

/-- A wait does not return before the trigger time. -/
def KeepsTrigger (timer : ExTimer) (history : List (TimerEvent Thread)) :
    TimerEvent Thread → Prop
  | .returned t now => WaitsOnRunning t history → timer.triggerTimeUs ≤ now
  | .called _ _ | .stopped | .uninited => True

/-- The `n`-th wait of a thread for a periodic timer does not return before the `n`-th trigger. -/
def KeepsPeriod (timer : ExTimer) (history : List (TimerEvent Thread)) : TimerEvent Thread → Prop
  | .returned t now => WaitsOnRunning t history → timer.type = .relativePeriodic →
      timer.triggerTimeUs + completedWaits t history * timer.reloadTimeUs ≤ now
  | .called _ _ | .stopped | .uninited => True

/-- A thread that has waited for a periodic timer does not wait again before its next period is
over. -/
def WaitsAfterPeriod (p : TimerState Thread × List (TimerEvent Thread)) :
    TimerAction Thread → Prop
  | .call t .exTimerWait => p.1.timer.type = .relativePeriodic → completedWaits t p.2 ≠ 0 →
      p.1.timer.triggerTimeUs + completedWaits t p.2 * p.1.timer.reloadTimeUs ≤ p.1.now
  | _ => True

end Property

section Invariant

variable {Thread : Type} [DecidableEq Thread]

/-- Only the waits of a run that is `paced` begin late enough. -/
structure TimerInv (paced : Prop) (s : TimerState Thread) (history : List (TimerEvent Thread)) :
    Prop where
  running : ∀ t, (s.pc t).waits = true → WaitsOnRunning t history → s.timer.running = true
  begun : paced → ∀ t, (s.pc t).waits = true → s.timer.type = .relativePeriodic →
    completedWaits t history ≠ 0 →
      s.timer.triggerTimeUs + completedWaits t history * s.timer.reloadTimeUs ≤ s.now
  trigger : Historically (KeepsTrigger s.timer) history
  period : paced → Historically (KeepsPeriod s.timer) history

variable {paced : Prop}
variable {s s' : TimerState Thread} {history : List (TimerEvent Thread)} {t : Thread}

@[simp] theorem setPc_timer (s : TimerState Thread) (t : Thread) (pc : TimerPc) :
    (s.setPc t pc).timer = s.timer := rfl

@[simp] theorem setPc_now (s : TimerState Thread) (t : Thread) (pc : TimerPc) :
    (s.setPc t pc).now = s.now := rfl

theorem setPc_pc_of_ne (s : TimerState Thread) {t other : Thread} (hother : other ≠ t)
    (pc : TimerPc) : (s.setPc t pc).pc other = s.pc other := by
  simp [TimerState.setPc,hother]

theorem waits_of_setPc {pc : TimerPc} (hwaits : pc.waits = true → (s.pc t).waits = true)
    {other : Thread} (hother : ((s.setPc t pc).pc other).waits = true) :
    (s.pc other).waits = true := by
  by_cases heq : other = t
  · subst heq
    apply hwaits
    simpa [TimerState.setPc] using hother
  · rwa [setPc_pc_of_ne s heq] at hother

theorem TimerInv.clock (h : TimerInv paced s history) {later : Nat} (hle : s.now ≤ later) :
    TimerInv paced { s with now := later } history := by
  refine ⟨h.running,?_,h.trigger,h.period⟩
  intro hpaced other hwaits hperiodic hcompleted
  exact (h.begun hpaced other hwaits hperiodic hcompleted).trans hle

theorem TimerInv.setPc (h : TimerInv paced s history) (pc : TimerPc)
    (hwaits : pc.waits = true → (s.pc t).waits = true) : TimerInv paced (s.setPc t pc) history := by
  refine ⟨?_,?_,h.trigger,h.period⟩
  · intro other hother
    exact h.running other (waits_of_setPc hwaits hother)
  · intro hpaced other hother
    exact h.begun hpaced other (waits_of_setPc hwaits hother)

theorem TimerInv.start (h : TimerInv paced s history) :
    TimerInv paced (s.setTimer { s.timer with timerStarted := true }) history := by
  refine ⟨?_,h.begun,h.trigger,h.period⟩
  intro other hwaits hongoing
  have hrunning := h.running other hwaits hongoing
  simp only [ExTimer.running,Bool.and_eq_true] at hrunning ⊢
  exact ⟨rfl,hrunning.2⟩

theorem TimerInv.disturb (h : TimerInv paced s history) {timer : ExTimer} {event : TimerEvent Thread}
    (hevent : event = .stopped ∨ event = .uninited)
    (htrigger : timer.triggerTimeUs = s.timer.triggerTimeUs)
    (hreload : timer.reloadTimeUs = s.timer.reloadTimeUs) (htype : timer.type = s.timer.type) :
    TimerInv paced (s.setTimer timer) (history ++ [event]) := by
  have hsame : ∀ t : Thread, completedWaits t (history ++ [event]) = completedWaits t history := by
    intro t
    rcases hevent with rfl | rfl <;> simp [completedWaits]
  have htriggers : (KeepsTrigger timer : List (TimerEvent Thread) → _) = KeepsTrigger s.timer := by
    funext before event
    cases event <;> simp only [KeepsTrigger,htrigger]
  have hperiods : (KeepsPeriod timer : List (TimerEvent Thread) → _) = KeepsPeriod s.timer := by
    funext before event
    cases event <;> simp only [KeepsPeriod,htrigger,hreload,htype]
  refine ⟨?_,?_,?_,?_⟩
  · intro other _ hongoing
    rw [WaitsOnRunning,since_append_singleton] at hongoing
    rcases hevent with rfl | rfl <;> simp [KeepsWaiting] at hongoing
  · intro hpaced other hwaits
    simp only [TimerState.setTimer,hsame,htrigger,hreload,htype]
    exact h.begun hpaced other hwaits
  · refine historically_append_singleton.mpr ⟨htriggers ▸ h.trigger,?_⟩
    rcases hevent with rfl | rfl <;> trivial
  · intro hpaced
    refine historically_append_singleton.mpr ⟨hperiods ▸ h.period hpaced,?_⟩
    rcases hevent with rfl | rfl <;> trivial

theorem TimerInv.callWait (h : TimerInv paced s history)
    (hbegun : paced → s.timer.type = .relativePeriodic → completedWaits t history ≠ 0 →
      s.timer.triggerTimeUs + completedWaits t history * s.timer.reloadTimeUs ≤ s.now) :
    TimerInv paced (s.setPc t .waitCheck) (history ++ [.called t s.timer.running]) := by
  have hsame : ∀ other : Thread, completedWaits other (history ++ [.called t s.timer.running]) =
      completedWaits other history := by
    intro other
    simp [completedWaits]
  refine ⟨?_,?_,historically_append_singleton.mpr ⟨h.trigger,trivial⟩,
    fun hpaced => historically_append_singleton.mpr ⟨h.period hpaced,trivial⟩⟩
  · intro other hwaits hongoing
    rw [WaitsOnRunning,since_append_singleton] at hongoing
    rcases hongoing with hcalled | ⟨hother,hongoing⟩
    · exact (TimerEvent.called.inj hcalled).2
    · rw [setPc_pc_of_ne s (Ne.symm hother)] at hwaits
      exact h.running other hwaits hongoing
  · intro hpaced other hwaits
    rw [hsame]
    by_cases heq : other = t
    · subst heq
      exact hbegun hpaced
    · rw [setPc_pc_of_ne s heq] at hwaits
      exact h.begun hpaced other hwaits

theorem TimerInv.returns (h : TimerInv paced s history) (hwaits : (s.pc t).waits = true)
    (htrigger : s.timer.running = true → s.timer.triggerTimeUs ≤ s.now) :
    TimerInv paced (s.setPc t .outside) (history ++ [.returned t s.now]) := by
  have hpc : ∀ other, ((s.setPc t .outside).pc other).waits = true →
      other ≠ t ∧ (s.pc other).waits = true := by
    intro other hother
    by_cases heq : other = t
    · subst heq
      simp [TimerState.setPc,TimerPc.waits] at hother
    · rw [setPc_pc_of_ne s heq] at hother
      exact ⟨heq,hother⟩
  refine ⟨?_,?_,historically_append_singleton.mpr ⟨h.trigger,?_⟩,
    fun hpaced => historically_append_singleton.mpr ⟨h.period hpaced,?_⟩⟩
  · intro other hother hongoing
    rw [WaitsOnRunning,since_append_singleton] at hongoing
    rcases hongoing with hcalled | ⟨_,hongoing⟩
    · cases hcalled
    · exact h.running other (hpc other hother).2 hongoing
  · intro hpaced other hother
    obtain ⟨hne,hother⟩ := hpc other hother
    have hsame : completedWaits other (history ++ [.returned t s.now]) =
        completedWaits other history := by
      simp [completedWaits,Ne.symm hne]
    rw [hsame]
    exact h.begun hpaced other hother
  · intro hongoing
    exact htrigger (h.running t hwaits hongoing)
  · intro hongoing hperiodic
    by_cases hfirst : completedWaits t history = 0
    · rw [hfirst,Nat.zero_mul,Nat.add_zero]
      exact htrigger (h.running t hwaits hongoing)
    · exact h.begun hpaced t hwaits hperiodic hfirst

theorem TimerInv.run (h : TimerInv paced s history)
    (hstep : timerStep s (.run t) = some s') :
    TimerInv paced s' (history ++ timerEvents s (.run t)) := by
  obtain ⟨⟨pc,timer⟩,hnext,rfl⟩ := Option.map_eq_some_iff.mp hstep
  simp only [timerEvents]
  have hback : (s.setPc t pc).setTimer s.timer = s.setPc t pc := rfl
  cases hpc : s.pc t with
  | outside =>
    rw [hpc] at hnext
    cases hnext
  | startCheck =>
    rw [hpc] at hnext
    cases hnext
    rw [TimerPc.events,List.append_nil]
    refine h.setPc _ ?_
    split <;> simp [TimerPc.waits]
  | startSet =>
    rw [hpc] at hnext
    cases hnext
    rw [TimerPc.events,List.append_nil]
    exact (h.setPc .outside (by simp [TimerPc.waits])).start
  | stopCheck uninit =>
    rw [hpc] at hnext
    cases hnext
    rw [TimerPc.events,List.append_nil]
    refine h.setPc _ ?_
    cases uninit <;> split <;> simp [TimerPc.waits,afterStop]
  | stopSet uninit =>
    rw [hpc] at hnext
    cases hnext
    refine (h.setPc (afterStop uninit) ?_).disturb (Or.inl rfl) rfl rfl rfl
    cases uninit <;> simp [TimerPc.waits,afterStop]
  | uninitSet =>
    rw [hpc] at hnext
    cases hnext
    exact (h.setPc .outside (by simp [TimerPc.waits])).disturb (Or.inr rfl) rfl rfl rfl
  | waitCheck =>
    have hwaits : (s.pc t).waits = true := by rw [hpc]; rfl
    rw [hpc] at hnext
    cases hnext
    by_cases huninited : s.timer.timerUninited = true
    · simp only [TimerPc.events,huninited,if_true]
      refine h.returns hwaits ?_
      simp [ExTimer.running,huninited]
    · simp only [TimerPc.events,huninited,Bool.false_eq_true,if_false,List.append_nil]
      exact h.setPc _ fun _ => hwaits
  | waitTime =>
    have hwaits : (s.pc t).waits = true := by rw [hpc]; rfl
    rw [hpc] at hnext
    cases hnext
    by_cases hbefore : s.now < s.timer.triggerTimeUs
    · simp only [TimerPc.events,hbefore,if_true,List.append_nil]
      exact h.setPc _ fun _ => hwaits
    · simp only [TimerPc.events,hbefore,if_false]
      exact h.returns hwaits fun _ => Nat.le_of_not_lt hbefore
  | waitStarted =>
    have hwaits : (s.pc t).waits = true := by rw [hpc]; rfl
    rw [hpc] at hnext
    cases hnext
    by_cases hstarted : s.timer.timerStarted = true
    · simp only [TimerPc.events,hstarted,if_true,List.append_nil]
      exact h.setPc _ fun _ => hwaits
    · simp only [TimerPc.events,hstarted,Bool.false_eq_true,if_false]
      refine h.returns hwaits ?_
      simp [ExTimer.running,hstarted]
  | waitYield =>
    have hwaits : (s.pc t).waits = true := by rw [hpc]; rfl
    rw [hpc] at hnext
    cases hnext
    rw [TimerPc.events,List.append_nil]
    exact h.setPc _ fun _ => hwaits

theorem TimerInv.step (h : TimerInv paced s history) {action : TimerAction Thread}
    (hafter : paced → WaitsAfterPeriod (s,history) action) (hstep : timerStep s action = some s') :
    TimerInv paced s' (history ++ timerEvents s action) := by
  cases action with
  | clock later =>
    simp only [timerStep] at hstep
    split at hstep
    · rename_i hle
      cases hstep
      rw [timerEvents,List.append_nil]
      exact h.clock hle
    · cases hstep
  | call t call =>
    simp only [timerStep] at hstep
    split at hstep
    · cases hstep
      cases call with
      | exTimerWait => exact h.callWait hafter
      | exTimerStart =>
        rw [timerEvents,List.append_nil]
        exact h.setPc _ (by simp [TimerCall.entry,TimerPc.waits])
      | exTimerStop =>
        rw [timerEvents,List.append_nil]
        exact h.setPc _ (by simp [TimerCall.entry,TimerPc.waits])
      | exTimerUninit =>
        rw [timerEvents,List.append_nil]
        exact h.setPc _ (by simp [TimerCall.entry,TimerPc.waits])
    · cases hstep
  | run t => exact h.run hstep

theorem TimerInv.init {type time : Nat} (h : TransitionSystem.init (exTimerSystem type time) s) :
    TimerInv paced s [] := by
  have hpc : ∀ t, (s.pc t).waits = false := by
    intro t
    rw [h.2 t]
    rfl
  refine ⟨?_,?_,historically_nil,fun _ => historically_nil⟩
  · intro t hwaits
    rw [hpc t] at hwaits
    cases hwaits
  · intro _ t hwaits
    rw [hpc t] at hwaits
    cases hwaits

end Invariant

section Results

variable {Thread : Type} [DecidableEq Thread] {type time : Nat}
variable {p : TimerState Thread × List (TimerEvent Thread)}

theorem waits_reach_trigger
    (h : ((exTimerSystem type time).recording timerEvents).Reachable p) :
    Historically (KeepsTrigger p.1.timer) p.2 := by
  have hinv : TimerInv False p.1 p.2 := by
    induction h with
    | init h =>
      rw [h.2]
      exact .init h.1
    | step _ _ hstep ih =>
      obtain ⟨hstep,hhistory⟩ := TransitionSystem.recording_step.mp hstep
      rw [hhistory]
      exact ih.step False.elim hstep
  exact hinv.trigger

/-- The period is kept in the runs in which no wait begins before its period is over. -/
theorem waits_keep_time
    (h : ((exTimerSystem type time).recording timerEvents).ReachableUnder WaitsAfterPeriod p) :
    Historically (KeepsTrigger p.1.timer) p.2 ∧ Historically (KeepsPeriod p.1.timer) p.2 := by
  have hinv : TimerInv True p.1 p.2 := by
    induction h with
    | init h =>
      rw [h.2]
      exact .init h.1
    | step _ hafter hstep ih =>
      obtain ⟨hstep,hhistory⟩ := TransitionSystem.recording_step.mp hstep
      rw [hhistory]
      exact ih.step (fun _ => hafter) hstep
  exact ⟨hinv.trigger,hinv.period trivial⟩

end Results

/-- A periodic timer of 100 microseconds, initialized at time 0. -/
def periodicTimer : TimerState Unit × List (TimerEvent Unit) :=
  (⟨0,⟨100,100,.relativePeriodic,false,false⟩,fun _ => .outside⟩,[])

def startTimer : List (TimerAction Unit) := [.call () .exTimerStart,.run (),.run ()]

/-- Once at the loop, the waiter finds the trigger time reached. -/
def waitOnce : List (TimerAction Unit) := [.call () .exTimerWait,.run (),.run ()]

instance (p : TimerState Unit × List (TimerEvent Unit)) :
    ∀ action, Decidable (WaitsAfterPeriod p action)
  | .call _ .exTimerWait => inferInstanceAs (Decidable (_ → _ → _))
  | .clock _ | .run _ | .call _ .exTimerStart | .call _ .exTimerStop | .call _ .exTimerUninit =>
    .isTrue trivial

theorem waits_keep_time_twice : ∃ p : TimerState Unit × List (TimerEvent Unit),
    ((exTimerSystem 2 100).recording timerEvents).ReachableUnder WaitsAfterPeriod p ∧
    p.2 = [.called () true,.returned () 100,.called () true,.returned () 200] ∧
      Historically (KeepsTrigger p.1.timer) p.2 ∧ Historically (KeepsPeriod p.1.timer) p.2 := by
  obtain ⟨p,hreach,hp⟩ := TransitionSystem.exists_reachable
    ((exTimerSystem 2 100).recording timerEvents) WaitsAfterPeriod periodicTimer
    ⟨⟨rfl,fun _ => rfl⟩,rfl⟩
    (startTimer ++ .clock 100 :: waitOnce ++ .clock 200 :: waitOnce)
    (fun p => p.2 == [.called () true,.returned () 100,.called () true,.returned () 200])
    (by decide +kernel) (by decide +kernel)
  exact ⟨p,hreach,beq_iff_eq.mp hp,waits_keep_time hreach⟩

/-- The second wait returns at the time of the first. -/
theorem period_not_kept : ∃ p : TimerState Unit × List (TimerEvent Unit),
    ((exTimerSystem 2 100).recording timerEvents).Reachable p ∧
      p.1.timer.type = .relativePeriodic ∧ ¬ Historically (KeepsPeriod p.1.timer) p.2 := by
  obtain ⟨p,hreach,hp⟩ := TransitionSystem.exists_reachable
    ((exTimerSystem 2 100).recording timerEvents) (fun _ _ => True) periodicTimer
    ⟨⟨rfl,fun _ => rfl⟩,rfl⟩ (startTimer ++ .clock 100 :: waitOnce ++ waitOnce)
    (fun p => p.1.timer == ⟨100,100,.relativePeriodic,true,false⟩ &&
      p.2 == [.called () true,.returned () 100,.called () true,.returned () 100])
    (TransitionSystem.runSatisfies_of_forall (fun _ _ => trivial) _ _) (by decide +kernel)
  rw [Bool.and_eq_true,beq_iff_eq,beq_iff_eq] at hp
  refine ⟨p,hreach,by rw [hp.1],?_⟩
  intro hkept
  have hlast := hkept [.called () true,.returned () 100,.called () true] (.returned () 100) []
    (by rw [hp.2]; rfl)
  have hongoing : WaitsOnRunning ()
      [TimerEvent.called () true,.returned () 100,.called () true] :=
    ⟨[.called () true,.returned () 100],_,[],rfl,rfl,by simp⟩
  rw [hp.1] at hlast
  exact absurd (hlast hongoing rfl) (by decide)

end Hal9000
