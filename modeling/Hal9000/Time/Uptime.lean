import Hal9000.Common.Machine
import Hal9000.Framework.PastTime
import Hal9000.Framework.TransitionSystem

/-!
# The system time

Seconds and microseconds share one 64-bit word. A scheduler tick adds to the upper half, an update
of the real-time clock exchanges the word for the next second, and a reader loads it once. The
microseconds that a reader adds are at most a second, so the next second is not less.
-/

namespace Hal9000

def secInUs : Nat := 10 ^ 6

/-- The lower half of `UPTIME`. -/
def uptimeSeconds (raw : Nat) : Nat := raw % 2 ^ 32

/-- The upper half. -/
def uptimeMicroseconds (raw : Nat) : Nat := raw / 2 ^ 32 % 2 ^ 32

/-- `_IomuUpdateSystemTime`: the interlocked addition to the upper half. -/
def iomuUpdateSystemTime (raw timeUpdatePerCpuUs : Nat) : Nat :=
  (uptimeMicroseconds raw + timeUpdatePerCpuUs) % 2 ^ 32 * 2 ^ 32 + uptimeSeconds raw

/-- `IomuGetSystemTimeUs`, of the word it loaded. -/
def iomuGetSystemTimeUs (raw : Nat) : Nat :=
  uptimeSeconds raw * secInUs +
    if uptimeMicroseconds raw ≥ secInUs then secInUs else uptimeMicroseconds raw

/-- Where a caller of `IomuGetSystemTimeUs` stands. -/
inductive TimeReader
  | idle
  | called
  | loaded (raw : Nat)

structure UptimeState (Caller : Type) where
  raw : Nat
  /-- `IomuCmosUpdateOccurred` has computed `newSecCount`. -/
  cmosUpdate : Option Nat
  reader : Caller → TimeReader

inductive UptimeAction (Caller : Type)
  | tick (timeUpdatePerCpuUs : Nat)
  | cmosRead
  | cmosExchange
  | call (caller : Caller)
  | load (caller : Caller)
  | ret (caller : Caller)

inductive TimeEvent (Caller : Type)
  | called (caller : Caller)
  | returned (caller : Caller) (systemTime : Nat)
  deriving DecidableEq

section Uptime

variable {Caller : Type} [DecidableEq Caller]

def UptimeState.setReader (s : UptimeState Caller) (caller : Caller) (reader : TimeReader) :
    UptimeState Caller :=
  { s with reader := Function.update s.reader caller reader }

/-- `IomuCmosUpdateOccurred` does not overlap itself. -/
def uptimeStep (s : UptimeState Caller) : UptimeAction Caller → Option (UptimeState Caller)
  | .tick timeUpdatePerCpuUs =>
    some { s with raw := iomuUpdateSystemTime s.raw timeUpdatePerCpuUs }
  | .cmosRead =>
    match s.cmosUpdate with
    | none => some { s with cmosUpdate := some (uptimeSeconds s.raw + 1) }
    | some _ => none
  | .cmosExchange =>
    match s.cmosUpdate with
    | none => none
    | some newSecCount => do
      assert (newSecCount ≤ maxDword)
      some { s with raw := newSecCount, cmosUpdate := none }
  | .call caller =>
    match s.reader caller with
    | .idle => some (s.setReader caller .called)
    | _ => none
  | .load caller =>
    match s.reader caller with
    | .called => some (s.setReader caller (.loaded s.raw))
    | _ => none
  | .ret caller =>
    match s.reader caller with
    | .loaded _ => some (s.setReader caller .idle)
    | _ => none

def timeEvents (s : UptimeState Caller) : UptimeAction Caller → List (TimeEvent Caller)
  | .call caller => [.called caller]
  | .ret caller =>
    match s.reader caller with
    | .loaded raw => [.returned caller (iomuGetSystemTimeUs raw)]
    | .idle | .called => []
  | .tick _ | .cmosRead | .cmosExchange | .load _ => []

def UptimeState.start : UptimeState Caller where
  raw := 0
  cmosUpdate := none
  reader _ := .idle

def uptimeSystem : TransitionSystem (UptimeState Caller) (UptimeAction Caller) where
  init s := s = .start
  step := uptimeStep

end Uptime

section Property

variable {Caller : Type}

/-- A tick is added while the microseconds since the last update of the clock still fit. -/
def AccumulatesLess (s : UptimeState Caller) : UptimeAction Caller → Prop
  | .tick timeUpdatePerCpuUs => uptimeMicroseconds s.raw + timeUpdatePerCpuUs < 2 ^ 32
  | _ => True

instance (s : UptimeState Caller) : ∀ action, Decidable (AccumulatesLess s action)
  | .tick _ => inferInstanceAs (Decidable (_ < _))
  | .cmosRead | .cmosExchange | .call _ | .load _ | .ret _ => .isTrue trivial

/-- The time had been returned when the caller made its latest call. -/
def ReturnedAtCall (caller : Caller) (systemTime : Nat) : List (TimeEvent Caller) → Prop :=
  AtLatest (· = .called caller) fun before => ∃ other, .returned other systemTime ∈ before

/-- A call returns no less than the calls that had returned before it was made. -/
def NotBeforeEarlier (history : List (TimeEvent Caller)) : TimeEvent Caller → Prop
  | .returned caller systemTime =>
    ∀ earlier, ReturnedAtCall caller earlier history → earlier ≤ systemTime
  | .called _ => True

end Property

theorem getSystemTimeUs_tick {raw timeUpdatePerCpuUs : Nat}
    (hless : uptimeMicroseconds raw + timeUpdatePerCpuUs < 2 ^ 32) :
    iomuGetSystemTimeUs raw ≤
      iomuGetSystemTimeUs (iomuUpdateSystemTime raw timeUpdatePerCpuUs) := by
  have hseconds : uptimeSeconds (iomuUpdateSystemTime raw timeUpdatePerCpuUs) =
      uptimeSeconds raw := by
    simp only [uptimeSeconds,iomuUpdateSystemTime]
    omega
  have hmicroseconds : uptimeMicroseconds (iomuUpdateSystemTime raw timeUpdatePerCpuUs) =
      uptimeMicroseconds raw + timeUpdatePerCpuUs := by
    rw [iomuUpdateSystemTime,Nat.mod_eq_of_lt hless,uptimeSeconds]
    simp only [uptimeMicroseconds] at hless ⊢
    omega
  rw [iomuGetSystemTimeUs,iomuGetSystemTimeUs,hseconds,hmicroseconds]
  split <;> split <;> omega

theorem getSystemTimeUs_exchange {raw : Nat} (hfits : uptimeSeconds raw + 1 ≤ maxDword) :
    iomuGetSystemTimeUs raw ≤ iomuGetSystemTimeUs (uptimeSeconds raw + 1) := by
  have hseconds : uptimeSeconds (uptimeSeconds raw + 1) = uptimeSeconds raw + 1 :=
    Nat.mod_eq_of_lt (Nat.lt_of_le_of_lt hfits (by decide))
  have hclamped : iomuGetSystemTimeUs raw ≤ uptimeSeconds raw * secInUs + secInUs := by
    rw [iomuGetSystemTimeUs]
    split <;> omega
  calc iomuGetSystemTimeUs raw
      ≤ uptimeSeconds raw * secInUs + secInUs := hclamped
    _ = (uptimeSeconds raw + 1) * secInUs := (Nat.succ_mul _ _).symm
    _ ≤ iomuGetSystemTimeUs (uptimeSeconds raw + 1) := by
      rw [iomuGetSystemTimeUs,hseconds]
      exact Nat.le_add_right _ _

section Invariant

variable {Caller : Type} [DecidableEq Caller]

structure UptimeInv (s : UptimeState Caller) (history : List (TimeEvent Caller)) : Prop where
  cmosUpdate : ∀ newSecCount ∈ s.cmosUpdate, newSecCount = uptimeSeconds s.raw + 1
  returned : ∀ caller systemTime, .returned caller systemTime ∈ history →
    systemTime ≤ iomuGetSystemTimeUs s.raw
  loaded : ∀ caller raw, s.reader caller = .loaded raw →
    iomuGetSystemTimeUs raw ≤ iomuGetSystemTimeUs s.raw ∧
      ∀ earlier, ReturnedAtCall caller earlier history → earlier ≤ iomuGetSystemTimeUs raw
  ordered : Historically NotBeforeEarlier history

variable {s s' : UptimeState Caller} {history : List (TimeEvent Caller)}

omit [DecidableEq Caller] in
theorem UptimeInv.setRaw (h : UptimeInv s history) {raw : Nat} {cmosUpdate : Option Nat}
    (hlater : iomuGetSystemTimeUs s.raw ≤ iomuGetSystemTimeUs raw)
    (hupdate : ∀ newSecCount ∈ cmosUpdate, newSecCount = uptimeSeconds raw + 1) :
    UptimeInv { s with raw, cmosUpdate } history := by
  refine ⟨hupdate,?_,?_,h.ordered⟩
  · intro caller systemTime hreturned
    exact (h.returned caller systemTime hreturned).trans hlater
  · intro caller loaded hloaded
    obtain ⟨hle,hearlier⟩ := h.loaded caller loaded hloaded
    exact ⟨hle.trans hlater,hearlier⟩

theorem UptimeInv.call (h : UptimeInv s history) (caller : Caller) :
    UptimeInv (s.setReader caller .called) (history ++ [.called caller]) := by
  refine ⟨h.cmosUpdate,?_,?_,historically_append_singleton.mpr ⟨h.ordered,trivial⟩⟩
  · intro other systemTime hreturned
    rw [List.mem_append] at hreturned
    rcases hreturned with hreturned | hreturned
    · exact h.returned other systemTime hreturned
    · simp at hreturned
  · intro other raw hloaded
    by_cases hother : other = caller
    · subst hother
      simp [UptimeState.setReader] at hloaded
    · simp only [UptimeState.setReader,Function.update_of_ne hother] at hloaded
      obtain ⟨hle,hearlier⟩ := h.loaded other raw hloaded
      refine ⟨hle,fun earlier hreturned => hearlier earlier ?_⟩
      rw [ReturnedAtCall,atLatest_append_singleton] at hreturned
      rcases hreturned with ⟨heq,_⟩ | ⟨_,hreturned⟩
      · exact absurd (TimeEvent.called.inj heq).symm hother
      · exact hreturned

theorem UptimeInv.load (h : UptimeInv s history) (caller : Caller) :
    UptimeInv (s.setReader caller (.loaded s.raw)) history := by
  refine ⟨h.cmosUpdate,h.returned,?_,h.ordered⟩
  intro other raw hloaded
  by_cases hother : other = caller
  · subst hother
    simp only [UptimeState.setReader,Function.update_self,TimeReader.loaded.injEq] at hloaded
    subst hloaded
    refine ⟨Nat.le_refl _,?_⟩
    rintro earlier ⟨before,_,after,rfl,_,_,reader,hreturned⟩
    exact h.returned reader earlier (List.mem_append_left _ hreturned)
  · simp only [UptimeState.setReader,Function.update_of_ne hother] at hloaded
    exact h.loaded other raw hloaded

theorem UptimeInv.ret (h : UptimeInv s history) {caller : Caller} {raw : Nat}
    (hreader : s.reader caller = .loaded raw) :
    UptimeInv (s.setReader caller .idle)
      (history ++ [.returned caller (iomuGetSystemTimeUs raw)]) := by
  obtain ⟨hle,hearlier⟩ := h.loaded caller raw hreader
  refine ⟨h.cmosUpdate,?_,?_,historically_append_singleton.mpr ⟨h.ordered,hearlier⟩⟩
  · intro other systemTime hreturned
    rw [List.mem_append] at hreturned
    rcases hreturned with hreturned | hreturned
    · exact h.returned other systemTime hreturned
    · rw [List.mem_singleton] at hreturned
      cases hreturned
      exact hle
  · intro other loaded hloaded
    by_cases hother : other = caller
    · subst hother
      simp [UptimeState.setReader] at hloaded
    · simp only [UptimeState.setReader,Function.update_of_ne hother] at hloaded
      obtain ⟨hle',hearlier'⟩ := h.loaded other loaded hloaded
      refine ⟨hle',fun earlier hreturned => hearlier' earlier ?_⟩
      rw [ReturnedAtCall,atLatest_append_singleton] at hreturned
      rcases hreturned with ⟨heq,_⟩ | ⟨_,hreturned⟩
      · cases heq
      · exact hreturned

theorem UptimeInv.step (h : UptimeInv s history) {action : UptimeAction Caller}
    (hless : AccumulatesLess s action) (hstep : uptimeStep s action = some s') :
    UptimeInv s' (history ++ timeEvents s action) := by
  cases action with
  | tick timeUpdatePerCpuUs =>
    cases hstep
    rw [timeEvents,List.append_nil]
    refine h.setRaw (getSystemTimeUs_tick hless) ?_
    intro newSecCount hupdate
    rw [h.cmosUpdate newSecCount hupdate]
    simp only [uptimeSeconds,iomuUpdateSystemTime]
    omega
  | cmosRead =>
    rw [timeEvents,List.append_nil]
    simp only [uptimeStep] at hstep
    split at hstep
    · cases hstep
      refine h.setRaw (Nat.le_refl _) ?_
      intro newSecCount hupdate
      exact (Option.some.inj hupdate).symm
    · cases hstep
  | cmosExchange =>
    rw [timeEvents,List.append_nil]
    simp only [uptimeStep] at hstep
    split at hstep
    · cases hstep
    · rename_i newSecCount hupdate
      obtain ⟨_,hfits,hstep⟩ := Option.bind_eq_some_iff.mp hstep
      rw [assert_eq_some,decide_eq_true_eq,h.cmosUpdate newSecCount hupdate] at hfits
      cases hstep
      refine h.setRaw ?_ (by simp)
      rw [h.cmosUpdate newSecCount hupdate]
      exact getSystemTimeUs_exchange hfits
  | call caller =>
    simp only [uptimeStep] at hstep
    split at hstep
    · cases hstep
      exact h.call caller
    · cases hstep
  | load caller =>
    rw [timeEvents,List.append_nil]
    simp only [uptimeStep] at hstep
    split at hstep
    · cases hstep
      exact h.load caller
    · cases hstep
  | ret caller =>
    simp only [uptimeStep] at hstep
    split at hstep
    · rename_i raw hreader
      cases hstep
      simp only [timeEvents,hreader]
      exact h.ret hreader
    · cases hstep

omit [DecidableEq Caller] in
theorem UptimeInv.start : UptimeInv (.start : UptimeState Caller) [] := by
  refine ⟨by simp [UptimeState.start],by simp,?_,historically_nil⟩
  intro caller raw hloaded
  cases hloaded

end Invariant

/-- The system time never goes back, whoever reads it. -/
theorem system_time_never_decreases {Caller : Type} [DecidableEq Caller]
    {p : UptimeState Caller × List (TimeEvent Caller)}
    (h : (uptimeSystem.recording timeEvents).ReachableUnder
      (fun p action => AccumulatesLess p.1 action) p) :
    Historically NotBeforeEarlier p.2 := by
  have hinv : UptimeInv p.1 p.2 := by
    induction h with
    | init h =>
      obtain ⟨hinit,hhistory⟩ := h
      rw [hhistory,hinit]
      exact UptimeInv.start
    | step _ hless hstep ih =>
      obtain ⟨hstep,hhistory⟩ := TransitionSystem.recording_step.mp hstep
      rw [hhistory]
      exact ih.step hless hstep
  exact hinv.ordered

/-- One caller reads between two ticks; the other calls after it has returned, and the clock is
updated before it loads the word. -/
def readTwice : List (UptimeAction Bool) :=
  [.tick 1500000,.call false,.load false,.cmosRead,.tick 40000,.ret false,.call true,
    .cmosExchange,.load true,.ret true]

theorem system_time_never_decreases_two :
    ∃ p : UptimeState Bool × List (TimeEvent Bool),
      (uptimeSystem.recording timeEvents).ReachableUnder
        (fun p action => AccumulatesLess p.1 action) p ∧
      p.2 = [.called false,.returned false 1000000,.called true,.returned true 1000000] ∧
        Historically NotBeforeEarlier p.2 := by
  obtain ⟨p,hreach,hp⟩ := TransitionSystem.exists_reachable
    (uptimeSystem.recording timeEvents)
    (fun p action => AccumulatesLess p.1 action) (.start,[]) ⟨rfl,rfl⟩ readTwice
    (fun p => p.2 == [.called false,.returned false 1000000,.called true,.returned true 1000000])
    (by decide +kernel) (by decide +kernel)
  exact ⟨p,hreach,beq_iff_eq.mp hp,system_time_never_decreases hreach⟩

end Hal9000
