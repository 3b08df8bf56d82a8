import Mathlib.Logic.Function.Basic
import Mathlib.Data.List.Basic

/-!
# Wait queues

Threads that put themselves to sleep on queued objects and threads that wake them. Each object
has a lock and a queue; each thread has a sleep lock, which it takes before it releases the lock
of the object, and which is released once it is off its processor. A waker takes the first
thread off the queue and then waits for its sleep lock.

A sleeper may also leave instead of sleeping. It then stays on the queue, so the steps are
relative to whether that may happen.
-/

namespace Hal9000

namespace WaitQueue

variable {Thread Object : Type*}

/-- What a thread is doing with the queues. -/
inductive Place (Thread Object : Type*)
  | free
  | holding (w : Object)
  /-- On the queue, with the lock of the object. -/
  | queued (w : Object)
  /-- On the queue, with the lock of the object and its own sleep lock. -/
  | sealed (w : Object)
  /-- About to sleep or to leave, with its own sleep lock. -/
  | deciding (w : Object)
  /-- On its way to sleep, with its own sleep lock. -/
  | falling (w : Object)
  | asleep (w : Object)
  /-- The thread `t` is off the queue and not awake yet. -/
  | waking (w : Object) (t : Thread)
  | wakingLocked (w : Object) (t : Thread)
  /-- The thread `t` is awake and its sleep lock still held. -/
  | woke (w : Object) (t : Thread)
  /-- Instead of falling asleep, with its own sleep lock. -/
  | leaving

/-- The object whose lock a thread holds. -/
def Place.lock : Place Thread Object → Option Object
  | .holding w | .queued w | .sealed w | .waking w _ | .wakingLocked w _ | .woke w _ => some w
  | _ => none

/-- The thread `u` itself and the threads it wakes: those whose sleep lock `u` holds. -/
def Place.sleepLock (u : Thread) : Place Thread Object → Option Thread
  | .sealed _ | .deciding _ | .falling _ | .leaving => some u
  | .wakingLocked _ t | .woke _ t => some t
  | _ => none

def Place.waits : Place Thread Object → Option Object
  | .queued w | .sealed w | .deciding w | .falling w | .asleep w => some w
  | _ => none

def Place.maySleep : Place Thread Object → Bool
  | .falling _ | .asleep _ => true
  | _ => false

def Place.wakes : Place Thread Object → Option (Object × Thread)
  | .waking w t | .wakingLocked w t => some (w,t)
  | _ => none

structure State (Thread Object : Type*) where
  place : Thread → Place Thread Object
  queue : Object → List Thread
  lock : Object → Option Thread
  sleepLock : Thread → Option Thread
  sleeps : Thread → Bool
  gone : Thread → Bool

variable [DecidableEq Thread] [DecidableEq Object]

def State.setPlace (s : State Thread Object) (t : Thread) (place : Place Thread Object) :
    State Thread Object :=
  { s with place := Function.update s.place t place }

def State.setLock (s : State Thread Object) (w : Object) (owner : Option Thread) :
    State Thread Object :=
  { s with lock := Function.update s.lock w owner }

def State.setSleepLock (s : State Thread Object) (t : Thread) (owner : Option Thread) :
    State Thread Object :=
  { s with sleepLock := Function.update s.sleepLock t owner }

def State.setQueue (s : State Thread Object) (w : Object) (queue : List Thread) :
    State Thread Object :=
  { s with queue := Function.update s.queue w queue }

def State.setSleeps (s : State Thread Object) (t : Thread) (sleeps : Bool) :
    State Thread Object :=
  { s with sleeps := Function.update s.sleeps t sleeps }

def State.setGone (s : State Thread Object) (t : Thread) : State Thread Object :=
  { s with gone := Function.update s.gone t true }

/-- The steps; `mayLeave` says whether a thread may leave instead of falling asleep. -/
inductive Step (mayLeave : Prop) (s : State Thread Object) : State Thread Object → Prop
  | acquire {t : Thread} {w : Object} (ht : s.place t = .free) (hw : s.lock w = none) :
      Step mayLeave s ((s.setPlace t (.holding w)).setLock w (some t))
  | release {t : Thread} {w : Object} (ht : s.place t = .holding w) :
      Step mayLeave s ((s.setPlace t .free).setLock w none)
  | enqueue {t : Thread} {w : Object} (ht : s.place t = .holding w) (hgone : s.gone t = false) :
      Step mayLeave s ((s.setPlace t (.queued w)).setQueue w (s.queue w ++ [t]))
  | lockSelf {t : Thread} {w : Object} (ht : s.place t = .queued w) (hfree : s.sleepLock t = none) :
      Step mayLeave s ((s.setPlace t (.sealed w)).setSleepLock t (some t))
  | unlock {t : Thread} {w : Object} (ht : s.place t = .sealed w) :
      Step mayLeave s ((s.setPlace t (.deciding w)).setLock w none)
  | fall {t : Thread} {w : Object} (ht : s.place t = .deciding w) :
      Step mayLeave s ((s.setPlace t (.falling w)).setSleeps t true)
  | deschedule {t : Thread} {w : Object} (ht : s.place t = .falling w) :
      Step mayLeave s ((s.setPlace t (.asleep w)).setSleepLock t none)
  | resume {t : Thread} {w : Object} (ht : s.place t = .asleep w) (hs : s.sleeps t = false) :
      Step mayLeave s (s.setPlace t .free)
  | pop {u t : Thread} {w : Object} {rest : List Thread} (hu : s.place u = .holding w)
      (hqueue : s.queue w = t :: rest) :
      Step mayLeave s ((s.setPlace u (.waking w t)).setQueue w rest)
  | lockTarget {u t : Thread} {w : Object} (hu : s.place u = .waking w t)
      (hfree : s.sleepLock t = none) :
      Step mayLeave s ((s.setPlace u (.wakingLocked w t)).setSleepLock t (some u))
  | wake {u t : Thread} {w : Object} (hu : s.place u = .wakingLocked w t)
      (hs : s.sleeps t = true) :
      Step mayLeave s ((s.setPlace u (.woke w t)).setSleeps t false)
  | unlockTarget {u t : Thread} {w : Object} (hu : s.place u = .woke w t) :
      Step mayLeave s ((s.setPlace u (.holding w)).setSleepLock t none)
  | leave {t : Thread} {w : Object} (ht : s.place t = .deciding w) (hleave : mayLeave) :
      Step mayLeave s ((s.setPlace t .leaving).setGone t)
  | left {t : Thread} (ht : s.place t = .leaving) :
      Step mayLeave s ((s.setPlace t .free).setSleepLock t none)
  | exit {t : Thread} (ht : s.place t = .free) : Step mayLeave s (s.setGone t)

theorem Step.mono {mayLeave mayLeave' : Prop} {s s' : State Thread Object}
    (h : Step mayLeave s s') (himp : mayLeave → mayLeave') : Step mayLeave' s s' := by
  cases h with
  | leave ht hleave => exact .leave ht (himp hleave)
  | acquire ht hw => exact .acquire ht hw
  | release ht => exact .release ht
  | enqueue ht hgone => exact .enqueue ht hgone
  | lockSelf ht hfree => exact .lockSelf ht hfree
  | unlock ht => exact .unlock ht
  | fall ht => exact .fall ht
  | deschedule ht => exact .deschedule ht
  | resume ht hs => exact .resume ht hs
  | pop hu hqueue => exact .pop hu hqueue
  | lockTarget hu hfree => exact .lockTarget hu hfree
  | wake hu hs => exact .wake hu hs
  | unlockTarget hu => exact .unlockTarget hu
  | left ht => exact .left ht
  | exit ht => exact .exit ht

/-- The owner of each lock and the lock of each owner are the same facts. -/
def Owned {Key Owner : Type*} (owner : Key → Option Owner) (holds : Owner → Option Key) : Prop :=
  ∀ k t, owner k = some t ↔ holds t = some k

/-- The accounts of the queues, the locks and the sleepers. -/
structure Invariant (s : State Thread Object) : Prop where
  lock : Owned s.lock fun u => (s.place u).lock
  sleepLock : Owned s.sleepLock fun u => (s.place u).sleepLock u
  nodup : ∀ w, (s.queue w).Nodup
  one_queue : ∀ t w w', t ∈ s.queue w → t ∈ s.queue w' → w = w'
  queued : ∀ w t, t ∈ s.queue w → (s.place t).waits = some w ∨ s.gone t = true
  wakes : ∀ u w t, (s.place u).wakes = some (w,t) → (∀ w', t ∉ s.queue w') ∧
    ((s.place t).waits = some w ∨ s.gone t = true) ∧
    ∀ u' w', (s.place u').wakes = some (w',t) → u' = u
  awake : ∀ t w, s.place t = .asleep w → s.sleeps t = false →
    (∀ w', t ∉ s.queue w') ∧ ∀ u w', (s.place u).wakes ≠ some (w',t)
  falls : ∀ t w, s.place t = .falling w → s.sleeps t = true
  sleeps : ∀ t, s.sleeps t = true → (s.place t).maySleep = true
  gone : ∀ t, s.gone t = true → (s.place t).waits = none

section Owned

variable {Key Owner : Type*} [DecidableEq Key] [DecidableEq Owner] {owner : Key → Option Owner}
  {holds : Owner → Option Key} {k : Key} {t : Owner}

theorem Owned.acquire (h : Owned owner holds) (hk : owner k = none) (ht : holds t = none) :
    Owned (Function.update owner k (some t)) (Function.update holds t (some k)) := by
  intro k' t'
  by_cases hk' : k' = k
  · by_cases ht' : t' = t
    · simp [hk',ht']
    · have := (h k t').not.mp (by simp [hk])
      simpa [hk',ht',Ne.symm ht'] using this
  · by_cases ht' : t' = t
    · have := (h k' t).not.mpr (by simp [ht])
      simpa [hk',ht',Ne.symm hk'] using this
    · simpa [hk',ht'] using h k' t'

theorem Owned.release (h : Owned owner holds) (ht : holds t = some k) :
    Owned (Function.update owner k none) (Function.update holds t none) := by
  intro k' t'
  have hk := (h k t).mpr ht
  by_cases hk' : k' = k
  · by_cases ht' : t' = t
    · simp [hk',ht']
    · have := (h k t').not.mp (by simp [hk,Ne.symm ht'])
      simpa [hk',ht'] using this
  · by_cases ht' : t' = t
    · have := (h k' t).not.mpr (by simp [ht,Ne.symm hk'])
      simpa [hk',ht'] using this
    · simpa [hk',ht'] using h k' t'

omit [DecidableEq Key] in
theorem Owned.same (h : Owned owner holds) {held : Option Key} (ht : holds t = held) :
    Owned owner (Function.update holds t held) := by
  rw [← ht,Function.update_eq_self]
  exact h

end Owned

variable {s s' : State Thread Object} {mayLeave : Prop}

omit [DecidableEq Object] in
private theorem lock_update (t : Thread) (place : Place Thread Object) :
    (fun u => (Function.update s.place t place u).lock) =
      Function.update (fun u => (s.place u).lock) t place.lock := by
  funext u
  by_cases hu : u = t
  · simp [hu]
  · simp [hu]

omit [DecidableEq Object] in
private theorem sleepLock_update (t : Thread) (place : Place Thread Object) :
    (fun u => (Function.update s.place t place u).sleepLock u) =
      Function.update (fun u => (s.place u).sleepLock u) t (place.sleepLock t) := by
  funext u
  by_cases hu : u = t
  · simp [hu]
  · simp [hu]

private theorem Step.lock (h : Invariant s) (hs : Step mayLeave s s') :
    Owned s'.lock fun u => (s'.place u).lock := by
  cases hs with
  | acquire ht hw =>
    simp only [State.setPlace,State.setLock,lock_update]
    exact h.lock.acquire hw (by rw [ht]; rfl)
  | release ht =>
    simp only [State.setPlace,State.setLock,lock_update]
    exact h.lock.release (by rw [ht]; rfl)
  | unlock ht =>
    simp only [State.setPlace,State.setLock,lock_update]
    exact h.lock.release (by rw [ht]; rfl)
  | exit => exact h.lock
  | fall ht | enqueue ht | lockSelf ht | deschedule ht | resume ht | pop ht | lockTarget ht | wake ht
  | unlockTarget ht | leave ht | left ht =>
    simp only [State.setPlace,State.setSleepLock,State.setQueue,State.setSleeps,State.setGone,
      lock_update]
    exact h.lock.same (by rw [ht]; rfl)

private theorem Step.sleepLock (h : Invariant s) (hs : Step mayLeave s s') :
    Owned s'.sleepLock fun u => (s'.place u).sleepLock u := by
  cases hs with
  | lockSelf ht hfree =>
    simp only [State.setPlace,State.setSleepLock,sleepLock_update]
    exact h.sleepLock.acquire hfree (by rw [ht]; rfl)
  | lockTarget hu hfree =>
    simp only [State.setPlace,State.setSleepLock,sleepLock_update]
    exact h.sleepLock.acquire hfree (by rw [hu]; rfl)
  | deschedule ht | unlockTarget ht | left ht =>
    simp only [State.setPlace,State.setSleepLock,sleepLock_update]
    exact h.sleepLock.release (by rw [ht]; rfl)
  | exit => exact h.sleepLock
  | fall ht | acquire ht | release ht | enqueue ht | unlock ht | resume ht | pop ht | wake ht | leave ht =>
    simp only [State.setPlace,State.setLock,State.setQueue,State.setSleeps,State.setGone,
      sleepLock_update]
    exact h.sleepLock.same (by rw [ht]; rfl)

omit [DecidableEq Thread] [DecidableEq Object] in
theorem Invariant.not_queued (h : Invariant s) {t : Thread} (ht : (s.place t).waits = none)
    (hgone : s.gone t = false) (w : Object) : t ∉ s.queue w := by
  intro hmem
  rcases h.queued w t hmem with hwaits | hgone'
  · rw [ht] at hwaits
    cases hwaits
  · rw [hgone] at hgone'
    cases hgone'

omit [DecidableEq Thread] [DecidableEq Object] in
theorem Invariant.head_unqueued (h : Invariant s) {t : Thread} {w : Object} {rest : List Thread}
    (hqueue : s.queue w = t :: rest) : t ∉ rest ∧ ∀ w', w' ≠ w → t ∉ s.queue w' := by
  have hnodup := h.nodup w
  rw [hqueue] at hnodup
  refine ⟨(List.nodup_cons.mp hnodup).1,?_⟩
  intro w' hne hmem
  exact hne (h.one_queue t w' w hmem (by rw [hqueue]; exact List.mem_cons_self))

private theorem Step.nodup (h : Invariant s) (hs : Step mayLeave s s') :
    ∀ w, (s'.queue w).Nodup := by
  intro w'
  cases hs with
  | @enqueue t w ht hgone =>
    by_cases hw : w' = w
    · have hnotin := h.not_queued (by rw [ht]; rfl) hgone w
      simp only [State.setPlace,State.setQueue,hw,Function.update_self]
      refine List.nodup_append.mpr ⟨h.nodup w,by simp,?_⟩
      intro t' ht' t'' ht'' heq
      rw [heq,List.mem_singleton.mp ht''] at ht'
      exact hnotin ht'
    · simp only [State.setPlace,State.setQueue,Function.update_of_ne hw]
      exact h.nodup w'
  | @pop u t w rest hu hqueue =>
    by_cases hw : w' = w
    · have hnodup := h.nodup w
      rw [hqueue] at hnodup
      simp only [State.setPlace,State.setQueue,hw,Function.update_self]
      exact hnodup.of_cons
    · simp only [State.setPlace,State.setQueue,Function.update_of_ne hw]
      exact h.nodup w'
  | _ => exact h.nodup w'

private theorem Step.mem_queue (hs : Step mayLeave s s') {t : Thread} {w : Object}
    (hmem : t ∈ s'.queue w) : t ∈ s.queue w ∨ s.place t = .holding w ∧ s.gone t = false ∧
      s'.place t = .queued w := by
  cases hs with
  | @enqueue t₀ w₀ ht hgone =>
    by_cases hw : w = w₀
    · rw [hw] at hmem ⊢
      simp only [State.setPlace,State.setQueue,Function.update_self,List.mem_append,
        List.mem_singleton] at hmem ⊢
      rcases hmem with hmem | heq
      · exact Or.inl hmem
      · rw [heq]
        exact Or.inr ⟨ht,hgone,Function.update_self _ _ _⟩
    · simp only [State.setPlace,State.setQueue,Function.update_of_ne hw] at hmem
      exact Or.inl hmem
  | @pop u t₀ w₀ rest hu hqueue =>
    by_cases hw : w = w₀
    · rw [hw] at hmem ⊢
      simp only [State.setPlace,State.setQueue,Function.update_self] at hmem
      rw [hqueue]
      exact Or.inl (List.mem_cons_of_mem _ hmem)
    · simp only [State.setPlace,State.setQueue,Function.update_of_ne hw] at hmem
      exact Or.inl hmem
  | _ => exact Or.inl hmem

private theorem Step.one_queue (h : Invariant s) (hs : Step mayLeave s s') :
    ∀ t w w', t ∈ s'.queue w → t ∈ s'.queue w' → w = w' := by
  intro t w w' hmem hmem'
  have hnew : ∀ w₀ w₁, t ∈ s.queue w₀ → s.place t = .holding w₁ → s.gone t = false → False := by
    intro w₀ w₁ hold hplace hgone
    exact h.not_queued (by rw [hplace]; rfl) hgone w₀ hold
  rcases hs.mem_queue hmem with hold | ⟨hplace,hgone,_⟩
  · rcases hs.mem_queue hmem' with hold' | ⟨hplace',hgone',_⟩
    · exact h.one_queue t w w' hold hold'
    · exact (hnew w w' hold hplace' hgone').elim
  · rcases hs.mem_queue hmem' with hold' | ⟨hplace',_,_⟩
    · exact (hnew w' w hold' hplace hgone).elim
    · rw [hplace] at hplace'
      exact Place.holding.inj hplace'

private theorem Step.waits (hs : Step mayLeave s s') {t : Thread} {w : Object}
    (ht : (s.place t).waits = some w) : (s'.place t).waits = some w ∨ s'.gone t = true ∨
      s.place t = .asleep w ∧ s.sleeps t = false := by
  cases hs <;>
    simp only [State.setPlace,State.setLock,State.setSleepLock,State.setQueue,State.setSleeps,
      State.setGone,Function.update_apply] <;>
    grind [Place.waits]

theorem Step.gone_mono (hs : Step mayLeave s s') {t : Thread} (ht : s.gone t = true) :
    s'.gone t = true := by
  cases hs with
  | @leave t' _ _ _ | @exit t' _ =>
    simp only [State.setPlace,State.setGone,Function.update_apply]
    split
    · rfl
    · exact ht
  | _ => exact ht

private theorem Step.queued (h : Invariant s) (hs : Step mayLeave s s') :
    ∀ w t, t ∈ s'.queue w → (s'.place t).waits = some w ∨ s'.gone t = true := by
  intro w t hmem
  rcases hs.mem_queue hmem with hold | ⟨_,_,hplace⟩
  · rcases h.queued w t hold with hwaits | hgone
    · rcases hs.waits hwaits with hwaits' | hgone' | ⟨hasleep,hawake⟩
      · exact Or.inl hwaits'
      · exact Or.inr hgone'
      · exact absurd hold ((h.awake t w hasleep hawake).1 w)
    · exact Or.inr (hs.gone_mono hgone)
  · rw [hplace]
    exact Or.inl rfl

private theorem Step.wakes_cases (hs : Step mayLeave s s') {u t : Thread} {w : Object}
    (hu : (s'.place u).wakes = some (w,t)) : (s.place u).wakes = some (w,t) ∨
      s.place u = .holding w ∧ ∃ rest, s.queue w = t :: rest ∧
        s' = (s.setPlace u (.waking w t)).setQueue w rest := by
  cases hs with
  | @pop u' t' w' rest hholding hqueue =>
    by_cases heq : u = u'
    · rw [heq] at hu ⊢
      simp only [State.setPlace,State.setQueue,Function.update_self,Place.wakes,Option.some.injEq,
        Prod.mk.injEq] at hu
      obtain ⟨hw,ht⟩ := hu
      rw [hw] at hholding hqueue ⊢
      rw [ht] at hqueue ⊢
      exact Or.inr ⟨hholding,rest,hqueue,rfl⟩
    · simp only [State.setPlace,State.setQueue,Function.update_of_ne heq] at hu
      exact Or.inl hu
  | exit => exact Or.inl hu
  | @lockTarget u' t' w' hwaking =>
    by_cases heq : u = u'
    · simp only [State.setPlace,State.setSleepLock,heq,Function.update_self] at hu
      rw [heq,hwaking]
      exact Or.inl hu
    · simp only [State.setPlace,State.setSleepLock,Function.update_of_ne heq] at hu
      exact Or.inl hu
  | @acquire u' | @release u' | @enqueue u' | @lockSelf u' | @unlock u' | @fall u' | @deschedule u'
  | @resume u' | @wake u' | @unlockTarget u' | @leave u' | @left u' =>
    by_cases heq : u = u'
    · simp [State.setPlace,State.setLock,State.setSleepLock,State.setQueue,State.setSleeps,
        State.setGone,heq,Place.wakes] at hu
    · simp only [State.setPlace,State.setLock,State.setSleepLock,State.setQueue,State.setSleeps,
        State.setGone,Function.update_of_ne heq] at hu
      exact Or.inl hu

private theorem Step.wakes (h : Invariant s) (hs : Step mayLeave s s') :
    ∀ u w t, (s'.place u).wakes = some (w,t) → (∀ w', t ∉ s'.queue w') ∧
      ((s'.place t).waits = some w ∨ s'.gone t = true) ∧
      ∀ u' w', (s'.place u').wakes = some (w',t) → u' = u := by
  intro u w t hu
  rcases hs.wakes_cases hu with hold | ⟨hholding,rest,hqueue,rfl⟩
  · obtain ⟨hunqueued,hwaits,honly⟩ := h.wakes u w t hold
    refine ⟨?_,?_,?_⟩
    · intro w' hmem
      rcases hs.mem_queue hmem with hmem | ⟨hplace,hgone,_⟩
      · exact hunqueued w' hmem
      · rw [hplace,hgone] at hwaits
        rcases hwaits with hwaits | hwaits <;> cases hwaits
    · rcases hwaits with hwaits | hgone
      · rcases hs.waits hwaits with hwaits' | hgone' | ⟨hasleep,hawake⟩
        · exact Or.inl hwaits'
        · exact Or.inr hgone'
        · exact absurd hold ((h.awake t w hasleep hawake).2 u w)
      · exact Or.inr (hs.gone_mono hgone)
    · intro u' w' hu'
      rcases hs.wakes_cases hu' with hold' | ⟨_,rest,hqueue,_⟩
      · exact honly u' w' hold'
      · exact absurd (by rw [hqueue]; exact List.mem_cons_self) (hunqueued w')
  · obtain ⟨hrest,hothers⟩ := h.head_unqueued hqueue
    have hmem : t ∈ s.queue w := by
      rw [hqueue]
      exact List.mem_cons_self
    refine ⟨?_,?_,?_⟩
    · intro w'
      by_cases hw : w' = w
      · simpa [State.setPlace,State.setQueue,hw] using hrest
      · simpa [State.setPlace,State.setQueue,hw] using hothers w' hw
    · rcases h.queued w t hmem with hwaits | hgone
      · have hne : t ≠ u := by
          intro heq
          rw [heq,hholding] at hwaits
          cases hwaits
        left
        simpa [State.setPlace,State.setQueue,hne] using hwaits
      · exact Or.inr hgone
    · intro u' w' hu'
      by_contra hne
      simp only [State.setPlace,State.setQueue,Function.update_of_ne hne] at hu'
      exact (h.wakes u' w' t hu').1 w hmem

private theorem Step.asleep_cases (h : Invariant s) (hs : Step mayLeave s s') {t : Thread} {w : Object}
    (ht : s'.place t = .asleep w) (hawake : s'.sleeps t = false) :
    s.place t = .asleep w ∧ s.sleeps t = false ∨
      ∃ u w', s.place u = .wakingLocked w' t ∧ s'.place = Function.update s.place u (.woke w' t) ∧
        s'.queue = s.queue := by
  cases hs with
  | @wake u t' w' hu hsleeps =>
    by_cases heq : t = t'
    · exact Or.inr ⟨u,w',by rw [heq]; exact hu,by rw [heq]; rfl,rfl⟩
    · have hne : t ≠ u := by
        intro htu
        simp [State.setPlace,State.setSleeps,htu] at ht
      simp only [State.setPlace,State.setSleeps,Function.update_of_ne heq,
        Function.update_of_ne hne] at ht hawake
      exact Or.inl ⟨ht,hawake⟩
  | exit => exact Or.inl ⟨ht,hawake⟩
  | @fall t' =>
    by_cases heq : t = t'
    · simp [State.setPlace,State.setSleeps,heq] at hawake
    · simp only [State.setPlace,State.setSleeps,Function.update_of_ne heq] at ht hawake
      exact Or.inl ⟨ht,hawake⟩
  | @deschedule t' w' hfalling =>
    by_cases heq : t = t'
    · rw [heq] at hawake
      have hsleeps := h.falls t' w' hfalling
      rw [show s.sleeps t' = false from hawake] at hsleeps
      cases hsleeps
    · simp only [State.setPlace,State.setSleepLock,Function.update_of_ne heq] at ht
      exact Or.inl ⟨ht,hawake⟩
  | @acquire u' | @release u' | @enqueue u' | @lockSelf u' | @unlock u' | @pop u' | @lockTarget u'
  | @resume u' | @unlockTarget u' | @leave u' | @left u' =>
    by_cases heq : t = u'
    · simp [State.setPlace,State.setLock,State.setSleepLock,State.setQueue,State.setGone,
        heq] at ht
    · simp only [State.setPlace,State.setLock,State.setSleepLock,State.setQueue,State.setGone,
        Function.update_of_ne heq] at ht
      exact Or.inl ⟨ht,hawake⟩

private theorem Step.awake (h : Invariant s) (hs : Step mayLeave s s') :
    ∀ t w, s'.place t = .asleep w → s'.sleeps t = false →
      (∀ w', t ∉ s'.queue w') ∧ ∀ u w', (s'.place u).wakes ≠ some (w',t) := by
  intro t w ht hawake
  rcases hs.asleep_cases h ht hawake with ⟨hasleep,hold⟩ | ⟨u,w',hu,hplace,hqueue⟩
  · obtain ⟨hunqueued,hunwoken⟩ := h.awake t w hasleep hold
    refine ⟨?_,?_⟩
    · intro w' hmem
      rcases hs.mem_queue hmem with hmem | ⟨hholding,_,_⟩
      · exact hunqueued w' hmem
      · rw [hasleep] at hholding
        cases hholding
    · intro u w' hu
      rcases hs.wakes_cases hu with hu | ⟨_,rest,hqueue,_⟩
      · exact hunwoken u w' hu
      · exact absurd (by rw [hqueue]; exact List.mem_cons_self) (hunqueued w')
  · obtain ⟨hunqueued,_,honly⟩ := h.wakes u w' t (by rw [hu]; rfl)
    refine ⟨?_,?_⟩
    · intro w₁
      rw [hqueue]
      exact hunqueued w₁
    · intro u₁ w₁ hu₁
      rw [hplace] at hu₁
      by_cases heq : u₁ = u
      · rw [heq,Function.update_self] at hu₁
        cases hu₁
      · rw [Function.update_of_ne heq] at hu₁
        exact heq (honly u₁ w₁ hu₁)

private theorem Step.falls (h : Invariant s) (hs : Step mayLeave s s') :
    ∀ t w, s'.place t = .falling w → s'.sleeps t = true := by
  intro t w ht
  cases hs with
  | @wake u t' w' hu =>
    have htu : t ≠ u := by
      intro heq
      simp [State.setPlace,State.setSleeps,heq] at ht
    simp only [State.setPlace,State.setSleeps,Function.update_of_ne htu] at ht ⊢
    have htt' : t ≠ t' := by
      intro heq
      rw [heq] at ht
      have hown := (h.sleepLock t' t').mpr (by simp [ht,Place.sleepLock])
      have hwaker := (h.sleepLock t' u).mpr (by simp [hu,Place.sleepLock])
      rw [hown,Option.some.injEq] at hwaker
      exact htu (heq.trans hwaker)
    rw [Function.update_of_ne htt']
    exact h.falls t w ht
  | @fall t' =>
    by_cases heq : t = t'
    · simp [State.setPlace,State.setSleeps,heq]
    · simp only [State.setPlace,State.setSleeps,Function.update_of_ne heq] at ht ⊢
      exact h.falls t w ht
  | exit => exact h.falls t w ht
  | @acquire u' | @release u' | @enqueue u' | @lockSelf u' | @unlock u' | @deschedule u' | @pop u'
  | @lockTarget u' | @resume u' | @unlockTarget u' | @leave u' | @left u' =>
    by_cases heq : t = u'
    · simp [State.setPlace,State.setLock,State.setSleepLock,State.setQueue,State.setGone,
        heq] at ht
    · simp only [State.setPlace,State.setLock,State.setSleepLock,State.setQueue,State.setGone,
        Function.update_of_ne heq] at ht
      exact h.falls t w ht

private theorem Step.sleeps (h : Invariant s) (hs : Step mayLeave s s') :
    ∀ t, s'.sleeps t = true → (s'.place t).maySleep = true := by
  have hsleeps := h.sleeps
  cases hs <;>
    simp only [State.setPlace,State.setLock,State.setSleepLock,State.setQueue,State.setSleeps,
      State.setGone,Function.update_apply] <;>
    grind [Place.maySleep]

private theorem Step.gone (h : Invariant s) (hs : Step mayLeave s s') :
    ∀ t, s'.gone t = true → (s'.place t).waits = none := by
  have hgone := h.gone
  cases hs <;>
    simp only [State.setPlace,State.setLock,State.setSleepLock,State.setQueue,State.setSleeps,
      State.setGone,Function.update_apply] <;>
    grind [Place.waits]

theorem Invariant.step (h : Invariant s) (hs : Step mayLeave s s') : Invariant s' where
  lock := hs.lock h
  sleepLock := hs.sleepLock h
  nodup := hs.nodup h
  one_queue := hs.one_queue h
  queued := hs.queued h
  wakes := hs.wakes h
  awake := hs.awake h
  falls := hs.falls h
  sleeps := hs.sleeps h
  gone := hs.gone h

omit [DecidableEq Thread] [DecidableEq Object] in
theorem Invariant.target_asleep (h : Invariant s) {u t : Thread} {w : Object}
    (hu : s.place u = .wakingLocked w t) (hgone : s.gone t = false) :
    s.place t = .asleep w ∧ s.sleeps t = true := by
  have hwaits : (s.place t).waits = some w := by
    rcases (h.wakes u w t (by rw [hu]; rfl)).2.1 with hwaits | hgone'
    · exact hwaits
    · rw [hgone] at hgone'
      cases hgone'
  have hlock : s.lock w = some u := (h.lock w u).mpr (by simp [hu,Place.lock])
  have hsleepLock : s.sleepLock t = some u := (h.sleepLock t u).mpr (by simp [hu,Place.sleepLock])
  have hne : t ≠ u := by
    intro heq
    rw [heq,hu] at hwaits
    cases hwaits
  cases hplace : s.place t with
  | queued w' | sealed w' =>
    rw [hplace] at hwaits
    have := (h.lock w t).mpr (by simpa [hplace,Place.lock,Place.waits] using hwaits)
    rw [hlock,Option.some.injEq] at this
    exact absurd this.symm hne
  | deciding w' | falling w' =>
    have := (h.sleepLock t t).mpr (by simp [hplace,Place.sleepLock])
    rw [hsleepLock,Option.some.injEq] at this
    exact absurd this.symm hne
  | asleep w' =>
    rw [hplace] at hwaits
    refine ⟨by rw [Option.some.inj hwaits],?_⟩
    by_contra hawake
    exact (h.awake t w' hplace (by simpa using hawake)).2 u w (by rw [hu]; rfl)
  | free | holding | waking | wakingLocked | woke | leaving =>
    rw [hplace] at hwaits
    cases hwaits

omit [DecidableEq Thread] [DecidableEq Object] in
theorem Invariant.not_sleeps (h : Invariant s) {t : Thread} (ht : (s.place t).maySleep = false) :
    s.sleeps t = false := by
  by_contra hsleeps
  have hmay := h.sleeps t (by simpa using hsleeps)
  rw [ht] at hmay
  cases hmay

omit [DecidableEq Thread] [DecidableEq Object] in
theorem Invariant.live_of_sleeps (h : Invariant s) {t : Thread} (ht : s.sleeps t = true) :
    s.gone t = false := by
  by_contra hgone
  have hwaits := h.gone t (by simpa using hgone)
  have hsleep := h.sleeps t ht
  cases hplace : s.place t <;> rw [hplace] at hwaits hsleep
  case falling | asleep => cases hwaits
  all_goals cases hsleep

private theorem Step.gone_cases (hs : Step mayLeave s s') {t : Thread} (ht : s'.gone t = true) :
    s.gone t = true ∨ mayLeave ∨ s.place t = .free := by
  cases hs with
  | @leave _ _ _ hleave => exact Or.inr (Or.inl hleave)
  | @exit t' hfree =>
    by_cases heq : t = t'
    · rw [heq]
      exact Or.inr (Or.inr hfree)
    · simp only [State.setGone,Function.update_of_ne heq] at ht
      exact Or.inl ht
  | _ => exact Or.inl ht

/-- No thread that is on a queue, or about to be woken, is gone. -/
structure Live (s : State Thread Object) : Prop where
  queued : ∀ w t, t ∈ s.queue w → s.gone t = false
  woken : ∀ u w t, (s.place u).wakes = some (w,t) → s.gone t = false

theorem Step.live (h : Invariant s) (hs : Step False s s') (hlive : Live s) : Live s' where
  queued := by
    intro w t hmem
    by_contra hgone
    rcases hs.gone_cases (by simpa using hgone) with hgone' | hfalse | hfree
    · rcases hs.mem_queue hmem with hold | ⟨_,hnew,_⟩
      · rw [hlive.queued w t hold] at hgone'
        cases hgone'
      · rw [hnew] at hgone'
        cases hgone'
    · exact hfalse
    · rcases hs.mem_queue hmem with hold | ⟨hholding,_,_⟩
      · exact h.not_queued (by rw [hfree]; rfl) (hlive.queued w t hold) w hold
      · rw [hfree] at hholding
        cases hholding
  woken := by
    intro u w t hwakes
    have hbefore : s.gone t = false ∧ (s.place t).waits = some w := by
      rcases hs.wakes_cases hwakes with hold | ⟨_,rest,hqueue,_⟩
      · have hgone := hlive.woken u w t hold
        simpa [hgone] using (h.wakes u w t hold).2.1
      · have hmem : t ∈ s.queue w := by
          rw [hqueue]
          exact List.mem_cons_self
        have hgone := hlive.queued w t hmem
        simpa [hgone] using h.queued w t hmem
    by_contra hgone
    rcases hs.gone_cases (by simpa using hgone) with hgone' | hfalse | hfree
    · rw [hbefore.1] at hgone'
      cases hgone'
    · exact hfalse
    · rw [hfree] at hbefore
      cases hbefore.2

end WaitQueue

end Hal9000
