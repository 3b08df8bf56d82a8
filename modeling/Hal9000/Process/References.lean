import Hal9000.Process.Lifetime

/-!
# The references of a process

What each step of the threads and of `ProcessCreate` does to the reference count, in terms of
the place a thread has in the list of the process: outside it, in it, or in one of the two
sections under `ThreadListLock`.
-/

namespace Hal9000

section References

variable {Thread : Type}

/-- What a thread means for the process: whether it is listed, and which of the two locked
sections of the list it is in. -/
inductive Place
  | absent
  | inserting
  | listed
  | removing (remainingThreads : Nat)
  | unlisted (remainingThreads : Nat)
  | gone (remainingThreads : Nat)

def ThreadPc.place : ThreadPc Thread → Place
  | .unused => .absent
  | .inserting => .inserting
  | .suspended | .live | .creating _ | .exited | .released | .remove => .listed
  | .removeDereference remaining => .removing remaining
  | .removeLast remaining => .unlisted remaining
  | .removed remaining => .gone remaining

def Place.isListed : Place → Bool
  | .inserting | .listed => true
  | _ => false

def Place.holdsLock : Place → Bool
  | .inserting | .removing _ => true
  | _ => false

/-- References counted but not taken yet, or taken but not counted any more. -/
def Place.pending : Place → ℤ
  | .inserting => -1
  | .removing _ => 1
  | _ => 0

def Place.remaining : Place → Option Nat
  | .removing remaining | .unlisted remaining | .gone remaining => some remaining
  | _ => none

/-- The states of `ProcessCreate` in which threads may run. -/
def CreatorPc.threadsRun : CreatorPc Thread → Bool
  | .closeThread _ | .destroyThread _ | .referenceProcess | .returned | .closed => true
  | _ => false

def LifetimeState.place (s : LifetimeState Thread) (t : Thread) : Place := (s.pc t).place

/-- The initial reference goes with a failed creation, or with the last thread. -/
def LifetimeState.InitialDropped (s : LifetimeState Thread) : Prop :=
  s.creator = .failed ∨ ∃ t, s.place t = .gone 0

open Classical in
noncomputable def LifetimeState.initialReferences (s : LifetimeState Thread) : ℤ :=
  if s.InitialDropped then 0 else 1

def LifetimeState.handleReferences (s : LifetimeState Thread) : ℤ :=
  match s.creator with
  | .returned => 1
  | _ => 0

def LifetimeState.pendingReferences (s : LifetimeState Thread) : ℤ :=
  match s.threadListLock with
  | some t => (s.place t).pending
  | none => 0

structure ListInv (s : LifetimeState Thread) : Prop where
  count : s.numberOfThreads = s.threadList.length
  nodup : s.threadList.Nodup
  listed : ∀ t, t ∈ s.threadList ↔ (s.place t).isListed = true
  lock : ∀ t, s.threadListLock = some t ↔ (s.place t).holdsLock = true
  counted : ∀ t remaining, s.place t = .removing remaining → s.numberOfThreads = remaining

structure ProcessInv (s : LifetimeState Thread) : Prop extends ListInv s where
  references : (s.refCnt : ℤ) = s.initialReferences + s.threadList.length + s.handleReferences +
    s.pendingReferences
  destroyed : s.destroyed = if s.refCnt = 0 then 1 else 0
  emptied : ∀ t, (s.place t).remaining = some 0 → s.threadList = [] ∧
    s.creator.threadsRun = true ∧ ∀ t', (s.place t').remaining = some 0 → t' = t
  kept : ∀ t, s.place t = .gone 0 → s.creator = .returned ∨ s.creator = .closed

variable {s s' : LifetimeState Thread} {t : Thread}

theorem initialReferences_of_dropped (h : s.InitialDropped) : s.initialReferences = 0 :=
  if_pos h

theorem initialReferences_of_not (h : ¬ s.InitialDropped) : s.initialReferences = 1 :=
  if_neg h

theorem initialReferences_congr (h : s'.InitialDropped ↔ s.InitialDropped) :
    s'.initialReferences = s.initialReferences := by
  by_cases hs : s.InitialDropped
  · rw [initialReferences_of_dropped hs,initialReferences_of_dropped (h.mpr hs)]
  · rw [initialReferences_of_not hs,initialReferences_of_not (fun hs' => hs (h.mp hs'))]

theorem handleReferences_congr (h : s'.creator = .returned ↔ s.creator = .returned) :
    s'.handleReferences = s.handleReferences := by
  unfold LifetimeState.handleReferences
  cases hs : s.creator <;> cases hs' : s'.creator <;> simp_all

/-- Progress of `ProcessCreate` that takes and drops no reference of the process. -/
structure SameStage (c c' : CreatorPc Thread) : Prop where
  failed : c' = .failed ↔ c = .failed
  returned : c' = .returned ↔ c = .returned
  closed : c' = .closed ↔ c = .closed
  threadsRun : c.threadsRun = true → c'.threadsRun = true

theorem SameStage.rfl {c : CreatorPc Thread} : SameStage c c :=
  ⟨Iff.rfl,Iff.rfl,Iff.rfl,id⟩

theorem ProcessInv.creator (h : ProcessInv s) (creator : CreatorPc Thread)
    (hplace : s'.place = s.place) (hcreator : s'.creator = creator)
    (hlist : s'.numberOfThreads = s.numberOfThreads ∧ s'.threadList = s.threadList ∧
      s'.threadListLock = s.threadListLock)
    (hruns : s.creator.threadsRun = true → creator.threadsRun = true)
    (hreferences : (s'.refCnt : ℤ) - s'.initialReferences - s'.handleReferences =
      s.refCnt - s.initialReferences - s.handleReferences)
    (hdestroyed : s'.destroyed = if s'.refCnt = 0 then 1 else 0)
    (hkept : ∀ t, s.place t = .gone 0 → creator = .returned ∨ creator = .closed) :
    ProcessInv s' := by
  obtain ⟨hcount,hlist,hlock⟩ := hlist
  have hpending : s'.pendingReferences = s.pendingReferences := by
    simp only [LifetimeState.pendingReferences,hplace,hlock]
  refine ⟨⟨?_,?_,?_,?_,?_⟩,?_,hdestroyed,?_,?_⟩
  · rw [hcount,hlist]
    exact h.count
  · rw [hlist]
    exact h.nodup
  · rw [hlist,hplace]
    exact h.listed
  · rw [hlock,hplace]
    exact h.lock
  · rw [hcount,hplace]
    exact h.counted
  · have := h.references
    rw [hpending,hlist]
    omega
  · intro t ht
    rw [hplace] at ht ⊢
    rw [hlist,hcreator]
    have := h.emptied t ht
    exact ⟨this.1,hruns this.2.1,this.2.2⟩
  · intro t ht
    rw [hplace] at ht
    rw [hcreator]
    exact hkept t ht

theorem ProcessInv.frame (h : ProcessInv s) (hplace : s'.place = s.place)
    (hstage : SameStage s.creator s'.creator)
    (hlist : s'.numberOfThreads = s.numberOfThreads ∧ s'.threadList = s.threadList ∧
      s'.threadListLock = s.threadListLock)
    (hrefs : s'.refCnt = s.refCnt ∧ s'.destroyed = s.destroyed) : ProcessInv s' := by
  apply h.creator s'.creator hplace rfl hlist hstage.threadsRun
  · have hinitial : s'.initialReferences = s.initialReferences := by
      apply initialReferences_congr
      simp only [LifetimeState.InitialDropped,hplace,hstage.failed]
    rw [hrefs.1,hinitial,handleReferences_congr hstage.returned]
  · rw [hrefs.1,hrefs.2]
    exact h.destroyed
  · intro t ht
    rw [hstage.returned,hstage.closed]
    exact h.kept t ht

theorem handleReferences_nonneg : 0 ≤ s.handleReferences := by
  unfold LifetimeState.handleReferences
  split <;> simp

theorem initialReferences_nonneg : 0 ≤ s.initialReferences := by
  by_cases hdropped : s.InitialDropped
  · rw [initialReferences_of_dropped hdropped]
  · rw [initialReferences_of_not hdropped]
    decide

theorem ListInv.length_pending (h : ListInv s) :
    0 ≤ (s.threadList.length : ℤ) + s.pendingReferences := by
  unfold LifetimeState.pendingReferences
  cases hlock : s.threadListLock with
  | none => simp
  | some t =>
    cases hplace : s.place t with
    | inserting =>
      have hmem : t ∈ s.threadList := by
        rw [h.listed,hplace]
        rfl
      have := List.length_pos_of_mem hmem
      simp only [hplace,Place.pending]
      omega
    | removing =>
      simp only [hplace,Place.pending]
      omega
    | absent => simp [hplace,Place.pending]
    | listed => simp [hplace,Place.pending]
    | unlisted => simp [hplace,Place.pending]
    | gone => simp [hplace,Place.pending]

theorem ProcessInv.not_dropped (h : ProcessInv s) (hlist : s.threadList ≠ [])
    (hfailed : s.creator ≠ .failed) : ¬ s.InitialDropped := by
  intro hdropped
  rcases hdropped with hdropped | ⟨t,ht⟩
  · exact hfailed hdropped
  · exact hlist (h.emptied t (by rw [ht]; rfl)).1

theorem destroyed_of_dereference (hdestroyed : s.destroyed = if s.refCnt = 0 then 1 else 0)
    (hpos : 0 < s.refCnt) : (processDereference s).destroyed =
      if (processDereference s).refCnt = 0 then 1 else 0 := by
  rw [if_neg (by omega)] at hdestroyed
  by_cases hlast : s.refCnt = 1
  · simp [processDereference,hlast,hdestroyed]
  · have : s.refCnt - 1 ≠ 0 := by omega
    simp [processDereference,hlast,this,hdestroyed]

variable [DecidableEq Thread]

@[simp] theorem place_setPc (pc : ThreadPc Thread) :
    (s.setPc t pc).place = Function.update s.place t pc.place := by
  funext t'
  by_cases ht : t' = t
  · simp [LifetimeState.place,LifetimeState.setPc,ht]
  · simp [LifetimeState.place,LifetimeState.setPc,ht]

theorem ListInv.move (h : ListInv s) {place : Place}
    (hplace : s'.place = Function.update s.place t place)
    (hcount : s'.numberOfThreads = s'.threadList.length) (hnodup : s'.threadList.Nodup)
    (hlist : ∀ t', t' ≠ t → (t' ∈ s'.threadList ↔ t' ∈ s.threadList))
    (hlistSelf : t ∈ s'.threadList ↔ place.isListed = true)
    (hlock : ∀ t', t' ≠ t → (s'.threadListLock = some t' ↔ s.threadListLock = some t'))
    (hlockSelf : s'.threadListLock = some t ↔ place.holdsLock = true)
    (hcounted : ∀ remaining, place = .removing remaining → s'.numberOfThreads = remaining)
    (hexcluded : s'.numberOfThreads = s.numberOfThreads ∨ s.threadListLock = none) :
    ListInv s' := by
  refine ⟨hcount,hnodup,?_,?_,?_⟩
  · intro t'
    by_cases ht : t' = t
    · rw [ht,hlistSelf,hplace,Function.update_self]
    · rw [hlist t' ht,hplace,Function.update_of_ne ht]
      exact h.listed t'
  · intro t'
    by_cases ht : t' = t
    · rw [ht,hlockSelf,hplace,Function.update_self]
    · rw [hlock t' ht,hplace,Function.update_of_ne ht]
      exact h.lock t'
  · intro t' remaining ht'
    by_cases ht : t' = t
    · rw [ht,hplace,Function.update_self] at ht'
      exact hcounted remaining ht'
    · rw [hplace,Function.update_of_ne ht] at ht'
      rcases hexcluded with hsame | hfree
      · rw [hsame]
        exact h.counted t' remaining ht'
      · have := (h.lock t').mpr (by rw [ht']; rfl)
        rw [hfree] at this
        cases this

theorem remaining_move {place : Place}
    (hplace : s'.place = Function.update s.place t place)
    (hself : place.remaining ≠ some 0) (h : ∀ t', (s.place t').remaining ≠ some 0) :
    ∀ t', (s'.place t').remaining ≠ some 0 := by
  intro t'
  by_cases ht : t' = t
  · rw [ht,hplace,Function.update_self]
    exact hself
  · rw [hplace,Function.update_of_ne ht]
    exact h t'

omit [DecidableEq Thread] in
theorem dropped_of_remaining (h : ∀ t, (s.place t).remaining ≠ some 0) :
    s.InitialDropped ↔ s.creator = .failed := by
  have hgone : ∀ t, s.place t ≠ .gone 0 := by
    intro t ht
    exact h t (by rw [ht]; rfl)
  simp [LifetimeState.InitialDropped,hgone]

theorem ProcessInv.insertThread (h : ProcessInv s) (ht : s.place t = .absent)
    (hlock : s.threadListLock = none) (hcount : s'.numberOfThreads = s.numberOfThreads + 1)
    (hlist : s'.threadList = s.threadList ++ [t]) (hlock' : s'.threadListLock = some t)
    (hplace : s'.place = Function.update s.place t .inserting)
    (hrest : s'.refCnt = s.refCnt ∧ s'.destroyed = s.destroyed)
    (hstage : SameStage s.creator s'.creator)
    (hremaining : ∀ t, (s.place t).remaining ≠ some 0) : ProcessInv s' := by
  have hself : s'.place t = .inserting := by rw [hplace,Function.update_self]
  have hnotin : t ∉ s.threadList := by simp [h.listed,ht,Place.isListed]
  have hremaining' := remaining_move hplace (by simp [Place.remaining]) hremaining
  have hinitial : s'.initialReferences = s.initialReferences := by
    apply initialReferences_congr
    rw [dropped_of_remaining hremaining',dropped_of_remaining hremaining]
    exact hstage.failed
  refine ⟨h.toListInv.move hplace ?_ ?_ ?_ ?_ ?_ ?_ ?_ ?_,?_,?_,?_,?_⟩
  · simp [hcount,hlist,h.count]
  · rw [hlist]
    refine List.nodup_append.mpr ⟨h.nodup,by simp,?_⟩
    intro t' ht' t'' ht'' heq
    rw [heq,List.mem_singleton.mp ht''] at ht'
    exact hnotin ht'
  · intro t' hne
    simp [hlist,hne]
  · simp [hlist,Place.isListed]
  · intro t' hne
    simp [hlock,hlock',Ne.symm hne]
  · simp [hlock',Place.holdsLock]
  · nofun
  · exact Or.inr hlock
  · have := h.references
    simp only [LifetimeState.pendingReferences,hlock] at this
    rw [hrest.1,this,hinitial,handleReferences_congr hstage.returned,hlist]
    simp only [LifetimeState.pendingReferences,hlock',hself,Place.pending,List.length_append,
      List.length_singleton]
    omega
  · rw [hrest.1,hrest.2]
    exact h.destroyed
  · intro t' ht'
    exact absurd ht' (hremaining' t')
  · intro t' ht'
    exact absurd (by rw [ht']; rfl) (hremaining' t')

theorem ProcessInv.insertReference (h : ProcessInv s) (ht : s.place t = .inserting)
    (hfailed : s.creator ≠ .failed)
    (hplace : s'.place = Function.update s.place t .listed) (hlock : s'.threadListLock = none)
    (hrefs : s'.refCnt = s.refCnt + 1)
    (hrest : s'.numberOfThreads = s.numberOfThreads ∧ s'.threadList = s.threadList ∧
      s'.destroyed = s.destroyed ∧ s'.creator = s.creator) : ProcessInv s' := by
  obtain ⟨hcount,hlist,hdestroyed,hcreator⟩ := hrest
  have hmem : t ∈ s.threadList := by simp [h.listed,ht,Place.isListed]
  have hheld : s.threadListLock = some t := (h.lock t).mpr (by rw [ht]; rfl)
  have hne : s.threadList ≠ [] := List.ne_nil_of_mem hmem
  have hremaining : ∀ t', (s.place t').remaining ≠ some 0 := by
    intro t' ht'
    exact hne (h.emptied t' ht').1
  have hremaining' := remaining_move hplace (by simp [Place.remaining]) hremaining
  have hpos : 0 < s.threadList.length := List.length_pos_of_mem hmem
  have hrefcnt := h.references
  simp only [LifetimeState.pendingReferences,hheld,ht,Place.pending,
    initialReferences_of_not (h.not_dropped hne hfailed)] at hrefcnt
  have hhandle_nonneg := handleReferences_nonneg (s := s)
  refine ⟨h.toListInv.move hplace ?_ ?_ ?_ ?_ ?_ ?_ ?_ ?_,?_,?_,?_,?_⟩
  · rw [hcount,hlist]
    exact h.count
  · rw [hlist]
    exact h.nodup
  · intro t' _
    rw [hlist]
  · simp [hlist,hmem,Place.isListed]
  · intro t' ht'
    simp [hlock,hheld,Ne.symm ht']
  · simp [hlock,Place.holdsLock]
  · nofun
  · exact Or.inl hcount
  · have hinitial : s'.initialReferences = 1 := by
      apply initialReferences_of_not
      rw [dropped_of_remaining hremaining',hcreator]
      exact hfailed
    have hhandle' : s'.handleReferences = s.handleReferences :=
      handleReferences_congr (by rw [hcreator])
    rw [hrefs,hinitial,hhandle',hlist]
    simp only [LifetimeState.pendingReferences,hlock]
    push_cast
    omega
  · have := h.destroyed
    rw [if_neg (by omega)] at this
    rw [hdestroyed,hrefs,this,if_neg (by omega)]
  · intro t' ht'
    exact absurd ht' (hremaining' t')
  · intro t' ht'
    exact absurd (by rw [ht']; rfl) (hremaining' t')

theorem ProcessInv.removeCount (h : ProcessInv s) (ht : s.place t = .listed)
    (hruns : s.creator.threadsRun = true) (hfree : s.threadListLock = none)
    (hplace : s'.place = Function.update s.place t (.removing (s.numberOfThreads - 1)))
    (hcount : s'.numberOfThreads = s.numberOfThreads - 1)
    (hlist : s'.threadList = s.threadList.erase t) (hlock : s'.threadListLock = some t)
    (hrest : s'.refCnt = s.refCnt ∧ s'.destroyed = s.destroyed ∧ s'.creator = s.creator) :
    ProcessInv s' := by
  obtain ⟨hrefs,hdestroyed,hcreator⟩ := hrest
  have hmem : t ∈ s.threadList := by simp [h.listed,ht,Place.isListed]
  have hne : s.threadList ≠ [] := List.ne_nil_of_mem hmem
  have hpos : 0 < s.threadList.length := List.length_pos_of_mem hmem
  have hlength : s'.threadList.length = s.threadList.length - 1 := by
    rw [hlist,List.length_erase_of_mem hmem]
  have hself : s'.place t = .removing (s.numberOfThreads - 1) := by
    rw [hplace,Function.update_self]
  have hother : ∀ t', t' ≠ t → s'.place t' = s.place t' := by
    intro t' hne
    rw [hplace,Function.update_of_ne hne]
  have hremaining : ∀ t', (s.place t').remaining ≠ some 0 := by
    intro t' ht'
    exact hne (h.emptied t' ht').1
  have hgone : ∀ t', s'.place t' ≠ .gone 0 := by
    intro t' ht'
    by_cases heq : t' = t
    · rw [heq,hself] at ht'
      cases ht'
    · rw [hother t' heq] at ht'
      exact hremaining t' (by rw [ht']; rfl)
  refine ⟨h.toListInv.move hplace ?_ ?_ ?_ ?_ ?_ ?_ ?_ ?_,?_,?_,?_,?_⟩
  · rw [hcount,hlength,h.count]
  · rw [hlist]
    exact h.nodup.erase t
  · intro t' heq
    rw [hlist,List.mem_erase_of_ne heq]
  · simp [hlist,h.nodup.not_mem_erase,Place.isListed]
  · intro t' heq
    simp [hlock,hfree,Ne.symm heq]
  · simp [hlock,Place.holdsLock]
  · intro remaining hplace'
    rw [hcount]
    exact Place.removing.inj hplace'
  · exact Or.inr hfree
  · have hinitial : s'.initialReferences = s.initialReferences := by
      apply initialReferences_congr
      rw [dropped_of_remaining hremaining]
      simp [LifetimeState.InitialDropped,hcreator,hgone]
    have := h.references
    simp only [LifetimeState.pendingReferences,hfree] at this
    have hhandle : s'.handleReferences = s.handleReferences :=
      handleReferences_congr (by rw [hcreator])
    rw [hrefs,this,hinitial,hhandle,hlength]
    simp only [LifetimeState.pendingReferences,hlock,hself,Place.pending]
    omega
  · rw [hrefs,hdestroyed]
    exact h.destroyed
  · intro t' ht'
    by_cases heq : t' = t
    · rw [heq,hself] at ht'
      simp only [Place.remaining,Option.some.injEq] at ht'
      refine ⟨?_,?_,?_⟩
      · apply List.eq_nil_of_length_eq_zero
        rw [hlength,← h.count]
        exact ht'
      · rw [hcreator]
        exact hruns
      · intro t'' ht''
        by_contra hne''
        rw [heq] at hne''
        rw [hother t'' hne''] at ht''
        exact hremaining t'' ht''
    · rw [hother t' heq] at ht'
      exact absurd ht' (hremaining t')
  · intro t' ht'
    exact absurd ht' (hgone t')

theorem ProcessInv.removeDereference (h : ProcessInv s) {remaining : Nat}
    (ht : s.place t = .removing remaining)
    (hplace : s'.place = Function.update s.place t (.unlisted remaining))
    (hlock : s'.threadListLock = none)
    (hrefs : s'.refCnt = (processDereference s).refCnt ∧
      s'.destroyed = (processDereference s).destroyed)
    (hrest : s'.numberOfThreads = s.numberOfThreads ∧ s'.threadList = s.threadList ∧
      s'.creator = s.creator) : ProcessInv s' := by
  obtain ⟨hcount,hlist,hcreator⟩ := hrest
  have hheld : s.threadListLock = some t := (h.lock t).mpr (by rw [ht]; rfl)
  have hremaining : ∀ t', (s'.place t').remaining = (s.place t').remaining := by
    intro t'
    by_cases heq : t' = t
    · rw [heq,hplace,Function.update_self,ht]
      rfl
    · rw [hplace,Function.update_of_ne heq]
  have hgone : ∀ t', s'.place t' = .gone 0 ↔ s.place t' = .gone 0 := by
    intro t'
    by_cases heq : t' = t
    · simp [heq,hplace,ht]
    · simp [hplace,heq]
  have hinitial : s'.initialReferences = s.initialReferences := by
    apply initialReferences_congr
    simp only [LifetimeState.InitialDropped,hcreator,hgone]
  have hhandle : s'.handleReferences = s.handleReferences :=
    handleReferences_congr (by rw [hcreator])
  have hinitial_nonneg := initialReferences_nonneg (s := s)
  have hhandle_nonneg := handleReferences_nonneg (s := s)
  have hrefcnt := h.references
  simp only [LifetimeState.pendingReferences,hheld,ht,Place.pending] at hrefcnt
  refine ⟨h.toListInv.move hplace ?_ ?_ ?_ ?_ ?_ ?_ ?_ ?_,?_,?_,?_,?_⟩
  · rw [hcount,hlist]
    exact h.count
  · rw [hlist]
    exact h.nodup
  · intro t' _
    rw [hlist]
  · simp [hlist,h.listed,ht,Place.isListed]
  · intro t' heq
    simp [hlock,hheld,Ne.symm heq]
  · simp [hlock,Place.holdsLock]
  · nofun
  · exact Or.inl hcount
  · rw [hrefs.1,hinitial,hhandle,hlist]
    simp only [LifetimeState.pendingReferences,hlock,processDereference]
    omega
  · rw [hrefs.1,hrefs.2]
    exact destroyed_of_dereference h.destroyed (by omega)
  · intro t' ht'
    rw [hremaining t'] at ht'
    rw [hlist,hcreator]
    have := h.emptied t' ht'
    refine ⟨this.1,this.2.1,?_⟩
    intro t'' ht''
    rw [hremaining t''] at ht''
    exact this.2.2 t'' ht''
  · intro t' ht'
    rw [hcreator]
    exact h.kept t' ((hgone t').mp ht')

omit [DecidableEq Thread] in
private theorem ProcessInv.initial_kept (h : ProcessInv s) (ht : s.place t = .unlisted 0)
    (hguard : s.creator = .returned ∨ s.creator = .closed) : ¬ s.InitialDropped := by
  rintro (hfailed | ⟨t',ht'⟩)
  · rcases hguard with h' | h' <;> rw [h'] at hfailed <;> cases hfailed
  · have hsame := (h.emptied t (by rw [ht]; rfl)).2.2 t' (by rw [ht']; rfl)
    rw [hsame,ht] at ht'
    cases ht'

omit [DecidableEq Thread] in
private theorem ProcessInv.pendingReferences_gone (h : ProcessInv s) {remaining : Nat}
    (ht : s.place t = .unlisted remaining) (hother : ∀ t', t' ≠ t → s'.place t' = s.place t')
    (hlock : s'.threadListLock = s.threadListLock) : s'.pendingReferences = s.pendingReferences := by
  have hunlocked : s.threadListLock ≠ some t := by simp [h.lock,ht,Place.holdsLock]
  unfold LifetimeState.pendingReferences
  rw [hlock]
  cases hheld : s.threadListLock with
  | none => rfl
  | some t' =>
    have hne : t' ≠ t := by
      intro heq
      exact hunlocked (heq ▸ hheld)
    simp only [hother t' hne]

/-- Leaving the list for good. The last thread drops the initial reference, and by then the
handle has its own. -/
theorem ProcessInv.removeLast (h : ProcessInv s) {remaining : Nat}
    (ht : s.place t = .unlisted remaining)
    (hguard : remaining = 0 → s.creator = .returned ∨ s.creator = .closed)
    (hplace : s'.place = Function.update s.place t (.gone remaining))
    (hrefs : (remaining = 0 ∧ s'.refCnt = (processDereference s).refCnt ∧
        s'.destroyed = (processDereference s).destroyed) ∨
      (remaining ≠ 0 ∧ s'.refCnt = s.refCnt ∧ s'.destroyed = s.destroyed))
    (hrest : s'.numberOfThreads = s.numberOfThreads ∧ s'.threadList = s.threadList ∧
      s'.threadListLock = s.threadListLock ∧ s'.creator = s.creator) : ProcessInv s' := by
  obtain ⟨hcount,hlist,hlock,hcreator⟩ := hrest
  have hself : s'.place t = .gone remaining := by rw [hplace,Function.update_self]
  have hother : ∀ t', t' ≠ t → s'.place t' = s.place t' := by
    intro t' hne
    rw [hplace,Function.update_of_ne hne]
  have hremaining : ∀ t', (s'.place t').remaining = (s.place t').remaining := by
    intro t'
    by_cases heq : t' = t
    · rw [heq,hself,ht]
      rfl
    · rw [hother t' heq]
  have hunlocked : s.threadListLock ≠ some t := by simp [h.lock,ht,Place.holdsLock]
  have hpending := h.pendingReferences_gone ht hother hlock
  have hhandle : s'.handleReferences = s.handleReferences :=
    handleReferences_congr (by rw [hcreator])
  have hhandle_nonneg := handleReferences_nonneg (s := s)
  have hlength := h.toListInv.length_pending
  have hkept : remaining = 0 → ¬ s.InitialDropped := fun hzero =>
    h.initial_kept (hzero ▸ ht) (hguard hzero)
  refine ⟨h.toListInv.move hplace ?_ ?_ ?_ ?_ ?_ ?_ ?_ ?_,?_,?_,?_,?_⟩
  · rw [hcount,hlist]
    exact h.count
  · rw [hlist]
    exact h.nodup
  · intro t' _
    rw [hlist]
  · simp [hlist,h.listed,ht,Place.isListed]
  · intro t' _
    rw [hlock]
  · simp [hlock,hunlocked,Place.holdsLock]
  · nofun
  · exact Or.inl hcount
  · rw [hhandle,hpending,hlist]
    rcases hrefs with ⟨hzero,hrefcnt,_⟩ | ⟨hnonzero,hrefcnt,_⟩
    · have hdropped : s'.InitialDropped := Or.inr ⟨t,by rw [hself,hzero]⟩
      have := h.references
      rw [initialReferences_of_not (hkept hzero)] at this
      rw [initialReferences_of_dropped hdropped,hrefcnt]
      simp only [processDereference]
      omega
    · have hinitial : s'.initialReferences = s.initialReferences := by
        apply initialReferences_congr
        have hgone : ∀ t', s'.place t' = .gone 0 ↔ s.place t' = .gone 0 := by
          intro t'
          by_cases heq : t' = t
          · simp [heq,hself,ht,hnonzero]
          · rw [hother t' heq]
        simp only [LifetimeState.InitialDropped,hcreator,hgone]
      rw [hinitial,hrefcnt]
      exact h.references
  · rcases hrefs with ⟨hzero,hrefcnt,hdestroyed⟩ | ⟨_,hrefcnt,hdestroyed⟩
    · have := h.references
      rw [initialReferences_of_not (hkept hzero)] at this
      rw [hrefcnt,hdestroyed]
      exact destroyed_of_dereference h.destroyed (by omega)
    · rw [hrefcnt,hdestroyed]
      exact h.destroyed
  · intro t' ht'
    rw [hremaining t'] at ht'
    rw [hlist,hcreator]
    have := h.emptied t' ht'
    refine ⟨this.1,this.2.1,?_⟩
    intro t'' ht''
    rw [hremaining t''] at ht''
    exact this.2.2 t'' ht''
  · intro t' ht'
    rw [hcreator]
    by_cases heq : t' = t
    · rw [heq,hself] at ht'
      apply hguard
      simpa using ht'
    · rw [hother t' heq] at ht'
      exact h.kept t' ht'

end References

end Hal9000
