import Mathlib.Logic.Function.Basic
import Mathlib.Data.List.Basic

/-!
# Dispatching from one ready queue

Processors that take the thread they run next from a queue they share, or run a thread of their
own when it is empty. The processor that has the lock of the queue dispatches: it may queue the
thread it runs, chooses the next one, and is still on the stack of the first until it switches.
-/

namespace Hal9000

namespace Dispatch

variable {Cpu Thread : Type*}

structure State (Cpu Thread : Type*) where
  /-- The thread whose stack a processor is on. -/
  running : Cpu → Thread
  /-- The thread it has chosen to switch to. -/
  chosen : Cpu → Option Thread
  dispatching : Cpu → Bool
  idle : Cpu → Option Thread
  queue : List Thread
  lock : Option Cpu

/-- The thread is in none of the places of a state. -/
structure Off (s : State Cpu Thread) (t : Thread) : Prop where
  running : ∀ c, s.running c ≠ t
  chosen : ∀ c, s.chosen c ≠ some t
  idle : ∀ c, s.idle c ≠ some t
  queue : t ∉ s.queue

variable [DecidableEq Cpu] [DecidableEq Thread]

def State.setDispatching (s : State Cpu Thread) (c : Cpu) (dispatching : Bool) :
    State Cpu Thread :=
  { s with dispatching := Function.update s.dispatching c dispatching }

def State.choose (s : State Cpu Thread) (c : Cpu) (t : Thread) : State Cpu Thread :=
  { s with chosen := Function.update s.chosen c (some t) }

inductive Step (s : State Cpu Thread) : State Cpu Thread → Prop
  | acquire {c : Cpu} (hlock : s.lock = none) : Step s { s with lock := some c }
  | acquireDispatching {c : Cpu} (hlock : s.lock = none) :
      Step s { s.setDispatching c true with lock := some c }
  | release {c : Cpu} (hlock : s.lock = some c) (hc : s.dispatching c = false) :
      Step s { s with lock := none }
  | begin {c : Cpu} (hlock : s.lock = some c) : Step s (s.setDispatching c true)
  | requeue {c : Cpu} (hlock : s.lock = some c) (hc : s.dispatching c = false)
      (hidle : s.idle c ≠ some (s.running c)) :
      Step s { s.setDispatching c true with queue := s.queue ++ [s.running c] }
  | enqueue {t : Thread} (ht : Off s t) : Step s { s with queue := s.queue ++ [t] }
  | keep {c : Cpu} {rest : List Thread} (hc : s.dispatching c = true) (hchosen : s.chosen c = none)
      (hqueue : s.queue = s.running c :: rest) :
      Step s { s.setDispatching c false with queue := rest }
  | pick {c : Cpu} {t : Thread} {rest : List Thread} (hc : s.dispatching c = true)
      (hqueue : s.queue = t :: rest) (hne : t ≠ s.running c) :
      Step s { s.choose c t with queue := rest }
  | keepIdle {c : Cpu} (hc : s.dispatching c = true) (hchosen : s.chosen c = none)
      (hqueue : s.queue = []) : Step s (s.setDispatching c false)
  | pickIdle {c : Cpu} {t : Thread} (hc : s.dispatching c = true) (hqueue : s.queue = [])
      (hidle : s.idle c = some t) (hne : t ≠ s.running c) : Step s (s.choose c t)
  | switch {c : Cpu} {t : Thread} (hchosen : s.chosen c = some t) :
      Step s { s.setDispatching c false with
        running := Function.update s.running c t
        chosen := Function.update s.chosen c none }
  | addIdle {c : Cpu} {t : Thread} (hidle : s.idle c = none) (ht : Off s t) :
      Step s { s with idle := Function.update s.idle c (some t) }

/-- No thread is in two places, except for one that its processor has queued before it
switches. -/
structure Invariant (s : State Cpu Thread) : Prop where
  lock : ∀ c, s.dispatching c = true → s.lock = some c
  dispatching : ∀ c t, s.chosen c = some t → s.dispatching c = true
  running : ∀ c c', s.running c = s.running c' → c = c'
  chosen : ∀ c t, s.chosen c = some t → (∀ c', s.running c' ≠ t) ∧ t ∉ s.queue
  listed : ∀ c, s.running c ∈ s.queue → s.dispatching c = true ∧ s.chosen c ≠ some (s.running c)
  nodup : s.queue.Nodup
  idle : ∀ c t, s.idle c = some t → t ∉ s.queue ∧
    ∀ c', s.running c' = t ∨ s.chosen c' = some t ∨ s.idle c' = some t → c' = c

variable {s s' : State Cpu Thread}

omit [DecidableEq Thread] in
private theorem Step.lock (h : Invariant s) (hs : Step s s') :
    ∀ c, s'.dispatching c = true → s'.lock = some c := by
  have hlock := h.lock
  cases hs <;> simp only [State.setDispatching,State.choose,Function.update_apply] <;> grind

omit [DecidableEq Thread] in
private theorem Step.dispatching (h : Invariant s) (hs : Step s s') :
    ∀ c t, s'.chosen c = some t → s'.dispatching c = true := by
  have hdispatching := h.dispatching
  cases hs <;> simp only [State.setDispatching,State.choose,Function.update_apply] <;> grind

omit [DecidableEq Thread] in
private theorem Step.running (h : Invariant s) (hs : Step s s') :
    ∀ c c', s'.running c = s'.running c' → c = c' := by
  have hrunning := h.running
  have hchosen := h.chosen
  cases hs with
  | switch hc =>
    simp only [Function.update_apply]
    grind
  | _ => exact hrunning

omit [DecidableEq Cpu] [DecidableEq Thread] in
private theorem Invariant.head_off (h : Invariant s) {c c' : Cpu} {t : Thread} {rest : List Thread}
    (hc : s.dispatching c = true) (hqueue : s.queue = t :: rest) (hne : t ≠ s.running c) :
    s.running c' ≠ t := by
  intro heq
  have hmem : s.running c' ∈ s.queue := by
    rw [heq,hqueue]
    exact List.mem_cons_self
  have hlock := h.lock c' (h.listed c' hmem).1
  rw [h.lock c hc,Option.some.injEq] at hlock
  rw [hlock,heq] at hne
  exact hne rfl

omit [DecidableEq Thread] in
private theorem Step.chosen (h : Invariant s) (hs : Step s s') :
    ∀ c t, s'.chosen c = some t → (∀ c', s'.running c' ≠ t) ∧ t ∉ s'.queue := by
  have hchosen := h.chosen
  have hlock := h.lock
  have hdispatching := h.dispatching
  have hnodup := h.nodup
  have hidle := h.idle
  have hrunning := h.running
  have hlisted := h.listed
  cases hs with
  | @pick c t rest hc hqueue hne =>
    have hoff : ∀ c', s.running c' ≠ t := fun c' => h.head_off hc hqueue hne
    simp only [State.choose,Function.update_apply]
    grind
  | @enqueue t ht =>
    have := ht.chosen
    grind
  | _ =>
    simp only [State.setDispatching,State.choose,Function.update_apply]
    grind

omit [DecidableEq Thread] in
private theorem Step.listed (h : Invariant s) (hs : Step s s') :
    ∀ c, s'.running c ∈ s'.queue →
      s'.dispatching c = true ∧ s'.chosen c ≠ some (s'.running c) := by
  have hlisted := h.listed
  have hchosen := h.chosen
  have hrunning := h.running
  have hnodup := h.nodup
  have hdispatching := h.dispatching
  cases hs with
  | @enqueue t ht =>
    have := ht.running
    grind
  | _ =>
    simp only [State.setDispatching,State.choose,Function.update_apply]
    grind

private theorem Step.nodup (h : Invariant s) (hs : Step s s') : s'.queue.Nodup := by
  have hnodup := h.nodup
  have hlisted := h.listed
  cases hs with
  | @requeue c hlock hc hidle =>
    simp only
    grind
  | @enqueue t ht =>
    have := ht.queue
    grind
  | keep hc hchosen hqueue | pick hc hqueue hne =>
    rw [hqueue] at hnodup
    exact hnodup.of_cons
  | _ => exact hnodup

omit [DecidableEq Thread] in
private theorem Step.idle (h : Invariant s) (hs : Step s s') :
    ∀ c t, s'.idle c = some t → t ∉ s'.queue ∧
      ∀ c', s'.running c' = t ∨ s'.chosen c' = some t ∨ s'.idle c' = some t → c' = c := by
  have hidle := h.idle
  cases hs with
  | @enqueue t ht =>
    have := ht.idle
    grind
  | @addIdle c t hnone ht =>
    obtain ⟨hrunning,hchosen,hothers,hqueue⟩ := ht
    simp only [Function.update_apply]
    grind
  | @switch c t hchosen =>
    intro c₁ t₁ hc₁
    obtain ⟨hqueue,hplaces⟩ := hidle c₁ t₁ hc₁
    refine ⟨hqueue,?_⟩
    intro c'
    by_cases hc' : c' = c
    · rw [hc']
      simp only [State.setDispatching,Function.update_self]
      have := hplaces c
      grind
    · simpa [State.setDispatching,hc'] using hplaces c'
  | _ =>
    simp only [State.setDispatching,State.choose,Function.update_apply]
    grind

theorem Invariant.step (h : Invariant s) (hs : Step s s') : Invariant s' where
  lock := hs.lock h
  dispatching := hs.dispatching h
  running := hs.running h
  chosen := hs.chosen h
  listed := hs.listed h
  nodup := hs.nodup h
  idle := hs.idle h

omit [DecidableEq Cpu] [DecidableEq Thread] in
theorem Invariant.init (hrunning : ∀ c c', s.running c = s.running c' → c = c')
    (hchosen : ∀ c, s.chosen c = none) (hdispatching : ∀ c, s.dispatching c = false)
    (hidle : ∀ c, s.idle c = none) (hqueue : s.queue = []) : Invariant s := by
  refine ⟨?_,?_,hrunning,?_,?_,?_,?_⟩ <;> simp [hchosen,hdispatching,hidle,hqueue]

end Dispatch

end Hal9000
