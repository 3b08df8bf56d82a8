import Mathlib.Logic.Function.Basic
import Mathlib.Data.List.Basic

/-!
# Locks that are handed over

A recursive lock that its holder hands to the first waiter: a waiter becomes the holder while it
still sleeps. The record of a run is the list of what its threads completed, so that the claims
on the lock are about the record.
-/

namespace Hal9000

namespace HandOff

variable {Thread : Type*}

/-- What a thread is doing with the lock. -/
inductive Stage
  | outside
  /-- Not the holder, it is about to look whether the lock is free. -/
  | seeking
  /-- It has found or made a holder, and is about to look whether that is itself. -/
  | deciding
  | queueing
  | waiting
  /-- The holder, about to look again or to return. -/
  | granted
  | releasing
  deriving DecidableEq

/-- The acquisition is under way and may have been granted. -/
def Stage.isEntering : Stage → Bool
  | .deciding | .waiting | .granted => true
  | _ => false

structure State (Thread : Type*) where
  stage : Thread → Stage
  holder : Option Thread
  depth : Nat
  queue : List Thread

inductive Event (Thread : Type*)
  | acquired (t : Thread)
  | released (t : Thread)
  | queued (t : Thread)
  | handed (t : Thread)
  deriving DecidableEq

def Event.queuedThread : Event Thread → Option Thread
  | .queued t => some t
  | _ => none

def Event.handedThread : Event Thread → Option Thread
  | .handed t => some t
  | _ => none

variable [DecidableEq Thread]

def State.setStage (s : State Thread) (t : Thread) (stage : Stage) : State Thread :=
  { s with stage := Function.update s.stage t stage }

/-- The steps, with what they add to the record. -/
inductive Step (s : State Thread) : List (Event Thread) → State Thread → Prop
  | seek {t : Thread} (ht : s.stage t = .outside) (hholder : s.holder ≠ some t) :
      Step s [] (s.setStage t .seeking)
  | take {t : Thread} (ht : s.stage t = .seeking) (hholder : s.holder = none) :
      Step s [] { s.setStage t .deciding with holder := some t, depth := 1 }
  | meet {t : Thread} (ht : s.stage t = .seeking) (hholder : s.holder ≠ none) :
      Step s [] (s.setStage t .deciding)
  | grant {t : Thread} (ht : s.stage t = .deciding) (hholder : s.holder = some t) :
      Step s [] (s.setStage t .granted)
  | refuse {t : Thread} (ht : s.stage t = .deciding) (hholder : s.holder ≠ some t) :
      Step s [] (s.setStage t .queueing)
  | enqueue {t : Thread} (ht : s.stage t = .queueing) :
      Step s [.queued t] { s.setStage t .waiting with queue := s.queue ++ [t] }
  | wake {t : Thread} (ht : s.stage t = .waiting) (hqueue : t ∉ s.queue) :
      Step s [] (s.setStage t .granted)
  | lookAgain {t : Thread} (ht : s.stage t = .granted) : Step s [] (s.setStage t .deciding)
  | finish {t : Thread} (ht : s.stage t = .granted) :
      Step s [.acquired t] (s.setStage t .outside)
  | nest {t : Thread} (ht : s.stage t = .outside) (hholder : s.holder = some t) :
      Step s [.acquired t] { s with depth := s.depth + 1 }
  | unnest {t : Thread} (ht : s.stage t = .outside) (hholder : s.holder = some t)
      (hdepth : 1 < s.depth) : Step s [.released t] { s with depth := s.depth - 1 }
  | release {t : Thread} (ht : s.stage t = .outside) (hholder : s.holder = some t)
      (hdepth : s.depth ≤ 1) : Step s [] (s.setStage t .releasing)
  | free {t : Thread} (ht : s.stage t = .releasing) (hqueue : s.queue = [])
      (halone : ∀ u, s.stage u ≠ .deciding ∧ s.stage u ≠ .queueing) :
      Step s [.released t] { s.setStage t .outside with holder := none }
  | hand {t t' : Thread} {rest : List Thread} (ht : s.stage t = .releasing)
      (hqueue : s.queue = t' :: rest) : Step s [.released t,.handed t']
        { s.setStage t .outside with holder := some t', depth := 1, queue := rest }

/-- The accounts of the lock, with its record. -/
structure Invariant (s : State Thread) (record : List (Event Thread)) : Prop where
  seeks : ∀ t, s.stage t = .seeking → s.holder ≠ some t
  decides : ∀ t, s.stage t = .deciding → s.holder ≠ none
  queues : ∀ t, s.stage t = .queueing → s.holder ≠ none ∧ s.holder ≠ some t
  waits : ∀ t, s.stage t = .waiting → t ∈ s.queue ∨ s.holder = some t
  grants : ∀ t, s.stage t = .granted → s.holder = some t
  releases : ∀ t, s.stage t = .releasing → s.holder = some t ∧ s.depth ≤ 1
  queued : ∀ t, t ∈ s.queue → s.stage t = .waiting
  nodup : s.queue.Nodup
  held : s.queue ≠ [] → s.holder ≠ none
  owns : ∀ t, s.holder = some t →
    record.count (.acquired t) + (s.stage t).isEntering.toNat =
      record.count (.released t) + s.depth ∧ 1 ≤ s.depth
  balanced : ∀ t, s.holder ≠ some t →
    record.count (.acquired t) = record.count (.released t)
  order : record.filterMap Event.queuedThread = record.filterMap Event.handedThread ++ s.queue

variable {s s' : State Thread} {record events : List (Event Thread)}

private theorem Step.seeks (h : Invariant s record) (hs : Step s events s') :
    ∀ t, s'.stage t = .seeking → s'.holder ≠ some t := by
  have hseeks := h.seeks
  have hqueued := h.queued
  cases hs <;> simp only [State.setStage,Function.update_apply] <;> grind

private theorem Step.decides (h : Invariant s record) (hs : Step s events s') :
    ∀ t, s'.stage t = .deciding → s'.holder ≠ none := by
  have hdecides := h.decides
  have hgrants := h.grants
  cases hs <;> simp only [State.setStage,Function.update_apply] <;> grind

private theorem Step.queues (h : Invariant s record) (hs : Step s events s') :
    ∀ t, s'.stage t = .queueing → s'.holder ≠ none ∧ s'.holder ≠ some t := by
  have hqueues := h.queues
  have hdecides := h.decides
  have hqueued := h.queued
  cases hs <;> simp only [State.setStage,Function.update_apply] <;> grind

private theorem Step.waits (h : Invariant s record) (hs : Step s events s') :
    ∀ t, s'.stage t = .waiting → t ∈ s'.queue ∨ s'.holder = some t := by
  have hwaits := h.waits
  have hreleases := h.releases
  cases hs <;> simp only [State.setStage,Function.update_apply] <;> grind

private theorem Step.grants (h : Invariant s record) (hs : Step s events s') :
    ∀ t, s'.stage t = .granted → s'.holder = some t := by
  have hgrants := h.grants
  have hwaits := h.waits
  have hreleases := h.releases
  cases hs <;> simp only [State.setStage,Function.update_apply] <;> grind

private theorem Step.releases (h : Invariant s record) (hs : Step s events s') :
    ∀ t, s'.stage t = .releasing → s'.holder = some t ∧ s'.depth ≤ 1 := by
  have hreleases := h.releases
  cases hs <;> simp only [State.setStage,Function.update_apply] <;> grind

private theorem Step.queued (h : Invariant s record) (hs : Step s events s') :
    ∀ t, t ∈ s'.queue → s'.stage t = .waiting := by
  have hqueued := h.queued
  cases hs <;> simp only [State.setStage,Function.update_apply] <;> grind

private theorem Step.nodup (h : Invariant s record) (hs : Step s events s') : s'.queue.Nodup := by
  have hnodup := h.nodup
  have hqueued := h.queued
  cases hs with
  | @enqueue t ht =>
    have hnew : t ∉ s.queue := by
      intro hmem
      rw [hqueued t hmem] at ht
      cases ht
    exact List.nodup_append.mpr ⟨hnodup,by simp,by grind⟩
  | hand ht hqueue =>
    rw [hqueue] at hnodup
    exact hnodup.of_cons
  | _ => exact hnodup

private theorem Step.held (h : Invariant s record) (hs : Step s events s') :
    s'.queue ≠ [] → s'.holder ≠ none := by
  have hheld := h.held
  have hqueues := h.queues
  cases hs <;> simp only [State.setStage] <;> grind

private theorem Step.owns (h : Invariant s record) (hs : Step s events s') :
    ∀ t, s'.holder = some t →
      (record ++ events).count (.acquired t) + (s'.stage t).isEntering.toNat =
        (record ++ events).count (.released t) + s'.depth ∧ 1 ≤ s'.depth := by
  have howns := h.owns
  have hbalanced := h.balanced
  have hseeks := h.seeks
  have hqueues := h.queues
  intro u hu
  cases hs with
  | @hand t t' rest ht hqueue =>
    obtain rfl := Option.some.inj hu
    have hwaiting : s.stage t' = .waiting := h.queued t' (by rw [hqueue]; exact List.mem_cons_self)
    have hne : t' ≠ t := by
      intro heq
      rw [heq,ht] at hwaiting
      cases hwaiting
    have hholder := (h.releases t ht).1
    have heven := hbalanced t' (by rw [hholder]; simpa using Ne.symm hne)
    simp [State.setStage,hne,Ne.symm hne,hwaiting,Stage.isEntering,heven]
  | _ =>
    simp only [State.setStage,Function.update_apply,List.count_append] at hu ⊢
    grind [Stage.isEntering]

private theorem Step.balanced (h : Invariant s record) (hs : Step s events s') :
    ∀ t, s'.holder ≠ some t →
      (record ++ events).count (.acquired t) = (record ++ events).count (.released t) := by
  have hbalanced := h.balanced
  have hgrants := h.grants
  intro u hu
  cases hs with
  | @free t ht | @hand t t' rest ht hqueue =>
    by_cases heq : u = t
    · -- the holder releases the depth it has left, which is one
      obtain ⟨hholder,hdepth⟩ := h.releases t ht
      obtain ⟨hcount,hpos⟩ := h.owns t hholder
      rw [ht,show Stage.releasing.isEntering.toNat = 0 from rfl] at hcount
      simp [heq]
      omega
    · have heven := hbalanced u (by rw [(h.releases t ht).1]; simpa using Ne.symm heq)
      simp [heven,Ne.symm heq]
  | _ =>
    simp only [State.setStage,List.count_append] at hu ⊢
    grind

private theorem Step.order (h : Invariant s record) (hs : Step s events s') :
    (record ++ events).filterMap Event.queuedThread =
      (record ++ events).filterMap Event.handedThread ++ s'.queue := by
  have horder := h.order
  cases hs with
  | enqueue =>
    simp [horder,List.filterMap_cons,Event.queuedThread,Event.handedThread]
  | hand ht hqueue =>
    simp [horder,hqueue,List.filterMap_cons,Event.queuedThread,Event.handedThread]
  | _ =>
    simpa [State.setStage,List.filterMap_cons,Event.queuedThread,Event.handedThread] using horder

theorem Invariant.step (h : Invariant s record) (hs : Step s events s') :
    Invariant s' (record ++ events) where
  seeks := hs.seeks h
  decides := hs.decides h
  queues := hs.queues h
  waits := hs.waits h
  grants := hs.grants h
  releases := hs.releases h
  queued := hs.queued h
  nodup := hs.nodup h
  held := hs.held h
  owns := hs.owns h
  balanced := hs.balanced h
  order := hs.order h

theorem Invariant.init (hstage : ∀ t, s.stage t = .outside)
    (hholder : s.holder = none) (hqueue : s.queue = []) : Invariant s [] := by
  refine ⟨?_,?_,?_,?_,?_,?_,?_,?_,?_,?_,?_,?_⟩ <;> simp [hstage,hholder,hqueue]

theorem Invariant.holder_of_acquired (h : Invariant s record) {t : Thread}
    (ht : record.count (.released t) < record.count (.acquired t)) : s.holder = some t := by
  by_contra hne
  have := h.balanced t hne
  omega

end HandOff

end Hal9000
