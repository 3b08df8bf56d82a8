import Hal9000.Process.References

/-!
# When a process is destroyed

The invariant of the references of a process and of its threads along every run, and the exact
condition under which `_ProcessDestroy` waits for the handle `ProcessCreate` returns.
-/

namespace Hal9000

section Destruction

variable {Thread : Type} [DecidableEq Thread] {s s' : LifetimeState Thread} {t : Thread}

/-- The references the thread system holds on a thread; two while it is being set up. -/
def ThreadPc.references : ThreadPc Thread → Nat
  | .suspended => 2
  | .live | .creating _ | .exited => 1
  | _ => 0

/-- A handle of the thread may be open. -/
def ThreadPc.mayBeOpen : ThreadPc Thread → Bool
  | .live | .creating _ | .exited | .released => true
  | _ => false

def CreatorPc.handles (t : Thread) : CreatorPc Thread → Nat
  | .closeThread t' => if t' = t then 1 else 0
  | _ => 0

def LifetimeState.handles (s : LifetimeState Thread) (t : Thread) : Nat :=
  (s.handleOpen t).toNat + s.creator.handles t

/-- While no thread runs, the first thread is at most being set up and there is no other. -/
def CreatorInv (pc : Thread → ThreadPc Thread) : CreatorPc Thread → Prop
  | .processInit | .retrieveHeader | .createAddressSpace | .loadPe | .createThread =>
    ∀ t, pc t = .unused
  | .creating t => (pc t = .inserting ∨ pc t = .suspended) ∧ ∀ t', t' ≠ t → pc t' = .unused
  | .dereferenceProcess | .failed => ∀ t, pc t = .unused ∨ pc t = .suspended
  | .closeThread _ | .destroyThread _ | .referenceProcess | .returned | .closed => True

structure ThreadsInv (s : LifetimeState Thread) : Prop where
  references : ∀ t, s.threadRefCnt t = (s.pc t).references + s.handles t
  handles : ∀ t, 0 < s.handles t → (s.pc t).mayBeOpen = true
  creator : CreatorInv s.pc s.creator

structure LifetimeInv (s : LifetimeState Thread) : Prop where
  process : ProcessInv s
  threads : ThreadsInv s

omit [DecidableEq Thread] in
private theorem CreatorInv.of_runs {pc : Thread → ThreadPc Thread} {creator : CreatorPc Thread}
    (h : creator.threadsRun = true) : CreatorInv pc creator := by
  cases creator <;> simp_all [CreatorPc.threadsRun,CreatorInv]

private theorem ThreadsInv.runs (h : ThreadsInv s) (hunused : s.pc t ≠ .unused)
    (hinserting : s.pc t ≠ .inserting) (hsuspended : s.pc t ≠ .suspended) :
    s.creator.threadsRun = true := by
  have hcreator := h.creator
  cases hc : s.creator with
  | creating t₀ =>
    rw [hc] at hcreator
    by_cases ht : t = t₀
    · rw [← ht] at hcreator
      rcases hcreator.1 with h' | h'
      · exact absurd h' hinserting
      · exact absurd h' hsuspended
    · exact absurd (hcreator.2 t ht) hunused
  | dereferenceProcess | failed =>
    rw [hc] at hcreator
    rcases hcreator t with h' | h'
    · exact absurd h' hunused
    · exact absurd h' hsuspended
  | processInit | retrieveHeader | createAddressSpace | loadPe | createThread =>
    rw [hc] at hcreator
    exact absurd (hcreator t) hunused
  | closeThread | destroyThread | referenceProcess | returned | closed => rfl

private theorem ThreadsInv.move (h : ThreadsInv s) (t : Thread)
    (hother : ∀ t', t' ≠ t → s'.pc t' = s.pc t' ∧ s'.threadRefCnt t' = s.threadRefCnt t' ∧
      s'.handles t' = s.handles t')
    (hself : s'.threadRefCnt t = (s'.pc t).references + s'.handles t)
    (hopen : 0 < s'.handles t → (s'.pc t).mayBeOpen = true)
    (hcreator : CreatorInv s'.pc s'.creator) : ThreadsInv s' := by
  refine ⟨?_,?_,hcreator⟩
  · intro t'
    by_cases ht : t' = t
    · rw [ht]
      exact hself
    · obtain ⟨hpc,hrefs,hhandles⟩ := hother t' ht
      rw [hpc,hrefs,hhandles]
      exact h.references t'
  · intro t'
    by_cases ht : t' = t
    · rw [ht]
      exact hopen
    · obtain ⟨hpc,_,hhandles⟩ := hother t' ht
      rw [hpc,hhandles]
      exact h.handles t'

private theorem ThreadsInv.setCreator (h : ThreadsInv s) (creator : CreatorPc Thread)
    (hpc : s'.pc = s.pc) (hrefs : s'.threadRefCnt = s.threadRefCnt)
    (hopen : s'.handleOpen = s.handleOpen) (hc : s'.creator = creator)
    (hhandles : ∀ t, creator.handles t = s.creator.handles t)
    (hcreator : CreatorInv s.pc creator) : ThreadsInv s' := by
  have hhandles : ∀ t, s'.handles t = s.handles t := by
    intro t
    rw [LifetimeState.handles,LifetimeState.handles,hopen,hc,hhandles]
  refine ⟨?_,?_,?_⟩
  · intro t
    rw [hrefs,hpc,hhandles]
    exact h.references t
  · intro t
    rw [hpc,hhandles]
    exact h.handles t
  · rw [hpc,hc]
    exact hcreator

omit [DecidableEq Thread] in
private theorem ThreadPc.place_of_mayBeOpen {pc : ThreadPc Thread} (h : pc.mayBeOpen = true) :
    pc.place = .listed := by
  cases pc <;> simp_all [ThreadPc.mayBeOpen,ThreadPc.place]

private theorem ThreadsInv.runs_of_mayBeOpen (h : ThreadsInv s)
    (hopen : (s.pc t).mayBeOpen = true) : s.creator.threadsRun = true := by
  apply h.runs (t := t) <;> intro hpc <;> simp [hpc,ThreadPc.mayBeOpen] at hopen

/-- Fields of a state that only the steps of the process change. -/
def SameProcess (s s' : LifetimeState Thread) : Prop :=
  (s'.numberOfThreads = s.numberOfThreads ∧ s'.threadList = s.threadList ∧
    s'.threadListLock = s.threadListLock) ∧ s'.refCnt = s.refCnt ∧ s'.destroyed = s.destroyed

private theorem LifetimeInv.dropReference (h : LifetimeInv s) (t : Thread) (pc : ThreadPc Thread)
    (hrefs : s.threadRefCnt t = pc.references + s'.handles t + 1)
    (hpc : s'.pc = Function.update s.pc t (if s.threadRefCnt t = 1 then .remove else pc))
    (hcount : s'.threadRefCnt = Function.update s.threadRefCnt t (s.threadRefCnt t - 1))
    (hhandles : ∀ t', t' ≠ t → s'.handles t' = s.handles t')
    (hold : (s.pc t).mayBeOpen = true) (hnew : pc.mayBeOpen = true)
    (hstage : SameStage s.creator s'.creator) (hsame : SameProcess s s') : LifetimeInv s' := by
  have hplace : s'.place = s.place := by
    funext t'
    by_cases ht : t' = t
    · rw [ht,LifetimeState.place,LifetimeState.place,hpc,Function.update_self,
        ThreadPc.place_of_mayBeOpen hold]
      split_ifs
      · rfl
      · exact ThreadPc.place_of_mayBeOpen hnew
    · rw [LifetimeState.place,LifetimeState.place,hpc,Function.update_of_ne ht]
  refine ⟨h.process.frame hplace hstage hsame.1 hsame.2,h.threads.move t ?_ ?_ ?_ ?_⟩
  · intro t' ht
    rw [hpc,hcount,Function.update_of_ne ht,Function.update_of_ne ht]
    exact ⟨rfl,rfl,hhandles t' ht⟩
  · rw [hpc,hcount,Function.update_self,Function.update_self]
    split_ifs with hlast
    · simp only [ThreadPc.references]
      omega
    · omega
  · intro hopen
    rw [hpc,Function.update_self]
    split_ifs with hlast
    · omega
    · exact hnew
  · exact CreatorInv.of_runs (hstage.threadsRun (h.threads.runs_of_mayBeOpen hold))

private theorem processInsertThread_eq (hinsert : processInsertThread s t = some s') :
    s' = { s with
      numberOfThreads := s.numberOfThreads + 1
      activeThreads := s.activeThreads + 1
      threadList := s.threadList ++ [t]
      threadListLock := some t }.setPc t .inserting := by
  simp only [processInsertThread,Option.bind_eq_bind,Option.bind_eq_some_iff] at hinsert
  obtain ⟨_,_,_,_,hs⟩ := hinsert
  exact (Option.some.inj hs).symm

private theorem LifetimeInv.insertThread (h : LifetimeInv s) (hfree : s.threadListLock = none)
    (ht : s.pc t = .unused) (hremaining : ∀ t', (s.place t').remaining ≠ some 0)
    (hcreator : CreatorInv (Function.update s.pc t .inserting) s.creator)
    (hinsert : processInsertThread s t = some s') : LifetimeInv s' := by
  obtain rfl := processInsertThread_eq hinsert
  have hplace : s.place t = .absent := by
    rw [LifetimeState.place,ht]
    rfl
  have hclosed : ¬ 0 < s.handles t := by
    intro hopen
    have := h.threads.handles t hopen
    rw [ht] at this
    cases this
  have hcount := h.threads.references t
  rw [ht] at hcount
  refine ⟨h.process.insertThread hplace hfree rfl rfl rfl (place_setPc _) ⟨rfl,rfl⟩ SameStage.rfl
    hremaining,h.threads.move t ?_ ?_ ?_ hcreator⟩
  · intro t' hne
    exact ⟨Function.update_of_ne hne _ _,rfl,rfl⟩
  · simp only [LifetimeState.setPc,Function.update_self]
    exact hcount
  · intro hopen
    exact absurd hopen hclosed

private theorem LifetimeInv.insertReference (h : LifetimeInv s) (ht : s.pc t = .inserting) :
    LifetimeInv ({ processReference s with
      threadListLock := none
      threadRefCnt := Function.update s.threadRefCnt t 2 }.setPc t .suspended) := by
  have hplace : s.place t = .inserting := by
    rw [LifetimeState.place,ht]
    rfl
  have hclosed : s.handles t = 0 := by
    by_contra hopen
    have := h.threads.handles t (Nat.pos_of_ne_zero hopen)
    rw [ht] at this
    cases this
  have hcreator := h.threads.creator
  have hfailed : s.creator ≠ .failed := by
    intro hfailed
    rw [hfailed] at hcreator
    rcases hcreator t with h' | h' <;> rw [ht] at h' <;> cases h'
  refine ⟨h.process.insertReference hplace hfailed (place_setPc _) rfl rfl ⟨rfl,rfl,rfl,rfl⟩,
    h.threads.move t ?_ ?_ ?_ ?_⟩
  · intro t' hne
    exact ⟨Function.update_of_ne hne _ _,Function.update_of_ne hne _ _,rfl⟩
  · simp only [LifetimeState.setPc,Function.update_self]
    change 2 = 2 + s.handles t
    rw [hclosed]
  · intro hopen
    change 0 < s.handles t at hopen
    omega
  · change CreatorInv (Function.update s.pc t .suspended) s.creator
    cases hc : s.creator with
    | creating t₀ =>
      rw [hc] at hcreator
      have heq : t = t₀ := by
        by_contra hne
        have := hcreator.2 t hne
        rw [ht] at this
        cases this
      rw [← heq] at hcreator ⊢
      refine ⟨Or.inr (Function.update_self _ _ _),?_⟩
      intro t' hne
      rw [Function.update_of_ne hne]
      exact hcreator.2 t' hne
    | dereferenceProcess | failed =>
      rw [hc] at hcreator
      rcases hcreator t with h' | h' <;> rw [ht] at h' <;> cases h'
    | processInit | retrieveHeader | createAddressSpace | loadPe | createThread =>
      rw [hc] at hcreator
      have := hcreator t
      rw [ht] at this
      cases this
    | closeThread | destroyThread | referenceProcess | returned | closed => trivial

private theorem LifetimeInv.setPc (h : LifetimeInv s) (t : Thread) (pc : ThreadPc Thread)
    (hplace : pc.place = (s.pc t).place) (hrefs : s.threadRefCnt t = pc.references + s'.handles t)
    (hpc : s'.pc = Function.update s.pc t pc) (hcount : s'.threadRefCnt = s.threadRefCnt)
    (hhandles : ∀ t', t' ≠ t → s'.handles t' = s.handles t')
    (hopen : 0 < s'.handles t → pc.mayBeOpen = true)
    (hcreator : CreatorInv (Function.update s.pc t pc) s'.creator)
    (hstage : SameStage s.creator s'.creator) (hsame : SameProcess s s') : LifetimeInv s' := by
  have hplace' : s'.place = s.place := by
    funext t'
    by_cases ht : t' = t
    · rw [ht,LifetimeState.place,LifetimeState.place,hpc,Function.update_self]
      exact hplace
    · rw [LifetimeState.place,LifetimeState.place,hpc,Function.update_of_ne ht]
  refine ⟨h.process.frame hplace' hstage hsame.1 hsame.2,h.threads.move t ?_ ?_ ?_ ?_⟩
  · intro t' ht
    rw [hpc,hcount,Function.update_of_ne ht]
    exact ⟨rfl,rfl,hhandles t' ht⟩
  · rw [hcount,hpc,Function.update_self]
    exact hrefs
  · rw [hpc,Function.update_self]
    exact hopen
  · rw [hpc]
    exact hcreator

private theorem LifetimeInv.moveOpen (h : LifetimeInv s) (t : Thread) (pc : ThreadPc Thread)
    (hold : (s.pc t).mayBeOpen = true) (hnew : pc.mayBeOpen = true)
    (hrefs : pc.references = (s.pc t).references) (hpc : s'.pc = Function.update s.pc t pc)
    (hcount : s'.threadRefCnt = s.threadRefCnt) (hopen : s'.handleOpen = s.handleOpen)
    (hc : s'.creator = s.creator) (hsame : SameProcess s s') : LifetimeInv s' := by
  have hhandles : ∀ t', s'.handles t' = s.handles t' := by
    intro t'
    rw [LifetimeState.handles,LifetimeState.handles,hopen,hc]
  apply h.setPc t pc
  · rw [ThreadPc.place_of_mayBeOpen hold,ThreadPc.place_of_mayBeOpen hnew]
  · rw [hhandles,hrefs]
    exact h.threads.references t
  · exact hpc
  · exact hcount
  · exact fun t' _ => hhandles t'
  · exact fun _ => hnew
  · rw [hc]
    exact CreatorInv.of_runs (h.threads.runs_of_mayBeOpen hold)
  · rw [hc]
    exact SameStage.rfl
  · exact hsame

private theorem LifetimeInv.finishFirst (h : LifetimeInv s) (hc : s.creator = .creating t)
    (ht : s.pc t = .suspended) :
    LifetimeInv ({ s with creator := .closeThread t }.setPc t .live) ∧
      LifetimeInv { s with creator := .dereferenceProcess } := by
  have hopen : s.handleOpen t = false := by
    by_contra hopen
    have := h.threads.handles t (by simp [LifetimeState.handles,hopen])
    rw [ht] at this
    cases this
  have hrefs := h.threads.references t
  rw [ht] at hrefs
  simp only [LifetimeState.handles,hopen,hc,CreatorPc.handles] at hrefs
  have hcreator := h.threads.creator
  rw [hc] at hcreator
  have hstage : ∀ c : CreatorPc Thread, c ≠ .failed → c ≠ .returned → c ≠ .closed →
      SameStage s.creator c := by
    intro c hfailed hreturned hclosed
    rw [hc]
    exact ⟨by simp [hfailed],by simp [hreturned],by simp [hclosed],by simp [CreatorPc.threadsRun]⟩
  refine ⟨?_,?_⟩
  · apply h.setPc t .live
    · rw [ht]
      rfl
    · rw [hrefs]
      simp [LifetimeState.handles,LifetimeState.setPc,CreatorPc.handles,hopen,ThreadPc.references]
    · rfl
    · rfl
    · intro t' hne
      simp [LifetimeState.handles,LifetimeState.setPc,CreatorPc.handles,hc,Ne.symm hne]
    · intro _
      rfl
    · exact CreatorInv.of_runs rfl
    · exact hstage _ (by rintro ⟨⟩) (by rintro ⟨⟩) (by rintro ⟨⟩)
    · exact ⟨⟨rfl,rfl,rfl⟩,rfl,rfl⟩
  · refine ⟨h.process.frame rfl (hstage _ (by rintro ⟨⟩) (by rintro ⟨⟩) (by rintro ⟨⟩))
      ⟨rfl,rfl,rfl⟩ ⟨rfl,rfl⟩,?_⟩
    refine ThreadsInv.setCreator h.threads .dereferenceProcess rfl rfl rfl rfl
      (by simp [hc,CreatorPc.handles]) ?_
    intro t'
    by_cases hne : t' = t
    · rw [hne]
      exact Or.inr ht
    · exact Or.inl (hcreator.2 t' hne)

private theorem LifetimeInv.finishThread (h : LifetimeInv s) {c : Thread}
    (hc : s.pc c = .creating t) (ht : s.pc t = .suspended) :
    LifetimeInv ({ s with handleOpen := Function.update s.handleOpen t true }.setPc t .live
      |>.setPc c .live) ∧ LifetimeInv (s.setPc c .live) := by
  have hne : c ≠ t := by
    intro heq
    rw [heq,ht] at hc
    cases hc
  have hruns : s.creator.threadsRun = true := h.threads.runs_of_mayBeOpen (t := c) (by rw [hc]; rfl)
  have back : ∀ s₁ : LifetimeState Thread, LifetimeInv s₁ → s₁.pc c = .creating t →
      LifetimeInv (s₁.setPc c .live) := by
    intro s₁ h₁ hc₁
    exact h₁.moveOpen c .live (by rw [hc₁]; rfl) rfl (by rw [hc₁]; rfl) rfl rfl rfl rfl
      ⟨⟨rfl,rfl,rfl⟩,rfl,rfl⟩
  refine ⟨?_,back s h hc⟩
  have hclosed : s.handles t = 0 := by
    by_contra hopen
    have := h.threads.handles t (Nat.pos_of_ne_zero hopen)
    rw [ht] at this
    cases this
  have hrefs : s.threadRefCnt t = 2 := by
    have := h.threads.references t
    rw [ht,hclosed] at this
    exact this
  have hopened : LifetimeInv
      ({ s with handleOpen := Function.update s.handleOpen t true }.setPc t .live) := by
    rw [LifetimeState.handles] at hclosed
    apply h.setPc t .live
    · rw [ht]
      rfl
    · simp only [hrefs,LifetimeState.handles,LifetimeState.setPc,ThreadPc.references,
        Function.update_self,Bool.toNat_true]
      omega
    · rfl
    · rfl
    · intro t' ht'
      simp only [LifetimeState.handles,LifetimeState.setPc,Function.update_of_ne ht']
    · exact fun _ => rfl
    · exact CreatorInv.of_runs hruns
    · exact SameStage.rfl
    · exact ⟨⟨rfl,rfl,rfl⟩,rfl,rfl⟩
  apply back _ hopened
  exact (Function.update_of_ne hne _ _).trans hc

private theorem LifetimeInv.prepare (h : LifetimeInv s) {next : CreatorPc Thread}
    (hnext : s.creator.afterCall = some next) (succeeded : Bool) :
    LifetimeInv { s with creator := if succeeded then next else .dereferenceProcess } := by
  have hunused : ∀ t, s.pc t = .unused := by
    have := h.threads.creator
    cases hc : s.creator <;> rw [hc] at hnext this <;> first | exact this | cases hnext
  have hold : s.creator ≠ .failed ∧ s.creator ≠ .returned ∧ s.creator ≠ .closed ∧
      s.creator.threadsRun = false ∧ ∀ t, s.creator.handles t = 0 := by
    cases hc : s.creator <;> rw [hc] at hnext <;>
      simp_all [CreatorPc.afterCall,CreatorPc.threadsRun,CreatorPc.handles]
  have hnew : next ≠ .failed ∧ next ≠ .returned ∧ next ≠ .closed ∧
      (∀ t, next.handles t = 0) ∧ CreatorInv s.pc next := by
    cases hc : s.creator <;> rw [hc] at hnext <;> cases hnext <;>
      exact ⟨by simp,by simp,by simp,fun _ => rfl,hunused⟩
  cases succeeded with
  | true =>
    refine ⟨h.process.frame rfl ?_ ⟨rfl,rfl,rfl⟩ ⟨rfl,rfl⟩,
      h.threads.setCreator next rfl rfl rfl rfl (by simp [hold,hnew]) hnew.2.2.2.2⟩
    exact ⟨by simp [hold,hnew],by simp [hold,hnew],by simp [hold,hnew],by simp [hold]⟩
  | false =>
    refine ⟨h.process.frame rfl ?_ ⟨rfl,rfl,rfl⟩ ⟨rfl,rfl⟩,
      h.threads.setCreator .dereferenceProcess rfl rfl rfl rfl (fun t => (hold.2.2.2.2 t).symm)
        (fun t => Or.inl (hunused t))⟩
    exact ⟨by simp [hold],by simp [hold],by simp [hold],by simp [hold]⟩

private theorem LifetimeInv.referenceProcess (h : LifetimeInv s)
    (hc : s.creator = .referenceProcess) :
    0 < s.refCnt ∧ LifetimeInv { processReference s with creator := .returned } := by
  have hkept : ¬ s.InitialDropped := by
    intro hdropped
    rcases hdropped with hfailed | ⟨t,ht⟩
    · rw [hc] at hfailed
      cases hfailed
    · rcases h.process.kept t ht with h' | h' <;> rw [hc] at h' <;> cases h'
  have hpos : 0 < s.refCnt := by
    have hrefs := h.process.references
    have := h.process.toListInv.length_pending
    have := handleReferences_nonneg (s := s)
    rw [initialReferences_of_not hkept] at hrefs
    omega
  refine ⟨hpos,?_,?_⟩
  · apply h.process.creator .returned
    · rfl
    · rfl
    · exact ⟨rfl,rfl,rfl⟩
    · exact fun _ => rfl
    · have hinitial : LifetimeState.initialReferences
          { processReference s with creator := .returned } = 1 := by
        apply initialReferences_of_not
        intro hdropped
        rcases hdropped with hfailed | hgone
        · cases hfailed
        · exact hkept (Or.inr hgone)
      rw [hinitial,initialReferences_of_not hkept]
      simp only [LifetimeState.handleReferences,hc,processReference]
      push_cast
      omega
    · have := h.process.destroyed
      rw [if_neg (by omega)] at this
      simp [processReference,this]
    · exact fun _ _ => Or.inl rfl
  · exact h.threads.setCreator .returned rfl rfl rfl rfl (by simp [hc,CreatorPc.handles]) trivial

private theorem LifetimeInv.dereferenceProcess (h : LifetimeInv s)
    (hc : s.creator = .dereferenceProcess) :
    LifetimeInv { processDereference s with creator := .failed } := by
  have hremaining : ∀ t, (s.place t).remaining ≠ some 0 := by
    intro t ht
    have := (h.process.emptied t ht).2.1
    rw [hc] at this
    cases this
  have hkept : ¬ s.InitialDropped := by
    rw [dropped_of_remaining hremaining,hc]
    simp
  have hcreator := h.threads.creator
  rw [hc] at hcreator
  refine ⟨?_,h.threads.setCreator .failed rfl rfl rfl rfl (by simp [hc,CreatorPc.handles]) hcreator⟩
  have hrefs := h.process.references
  have := h.process.toListInv.length_pending
  rw [initialReferences_of_not hkept] at hrefs
  simp only [LifetimeState.handleReferences,hc] at hrefs
  apply h.process.creator .failed
  · rfl
  · rfl
  · exact ⟨rfl,rfl,rfl⟩
  · intro hruns
    rw [hc] at hruns
    cases hruns
  · rw [initialReferences_of_dropped (Or.inl rfl),initialReferences_of_not hkept]
    simp only [LifetimeState.handleReferences,hc,processDereference]
    omega
  · exact destroyed_of_dereference h.process.destroyed (by omega)
  · intro t ht
    exact absurd (by rw [ht]; rfl) (hremaining t)

private theorem LifetimeInv.processCloseHandle (h : LifetimeInv s) (hc : s.creator = .returned) :
    LifetimeInv { processDereference s with creator := .closed } := by
  refine ⟨?_,h.threads.setCreator .closed rfl rfl rfl rfl (by simp [hc,CreatorPc.handles]) trivial⟩
  have hrefs := h.process.references
  have := h.process.toListInv.length_pending
  have := initialReferences_nonneg (s := s)
  simp only [LifetimeState.handleReferences,hc] at hrefs
  apply h.process.creator .closed
  · rfl
  · rfl
  · exact ⟨rfl,rfl,rfl⟩
  · exact fun _ => rfl
  · have hinitial : LifetimeState.initialReferences
        { processDereference s with creator := .closed } = s.initialReferences := by
      apply initialReferences_congr
      simp only [LifetimeState.InitialDropped,hc,reduceCtorEq,false_or]
      rfl
    rw [hinitial]
    simp only [LifetimeState.handleReferences,hc,processDereference]
    omega
  · exact destroyed_of_dereference h.process.destroyed (by omega)
  · exact fun _ _ => Or.inr rfl

private theorem LifetimeInv.insertFirst (h : LifetimeInv s) (hfree : s.threadListLock = none)
    (hc : s.creator = .createThread) (hunused : ∀ t, s.pc t = .unused) :
    LifetimeInv ({ s with
      creator := .creating t
      numberOfThreads := s.numberOfThreads + 1
      activeThreads := s.activeThreads + 1
      threadList := s.threadList ++ [t]
      threadListLock := some t }.setPc t .inserting) := by
  have habsent : ∀ t', s.place t' = .absent := by
    intro t'
    rw [LifetimeState.place,hunused]
    rfl
  have hclosed : ∀ t', s.handles t' = 0 := by
    intro t'
    by_contra hopen
    have := h.threads.handles t' (Nat.pos_of_ne_zero hopen)
    rw [hunused] at this
    cases this
  have hhandles : ∀ t' (s₁ : LifetimeState Thread), s₁.creator = .creating t →
      s₁.handleOpen = s.handleOpen → s₁.handles t' = s.handles t' := by
    intro t' s₁ hc₁ hopen
    rw [LifetimeState.handles,LifetimeState.handles,hc,hc₁,hopen]
    rfl
  refine ⟨h.process.insertThread (habsent t) hfree rfl rfl rfl (place_setPc _) ⟨rfl,rfl⟩ ?_ ?_,
    h.threads.move t ?_ ?_ ?_ ?_⟩
  · simp only [LifetimeState.setPc,hc]
    exact ⟨by simp,by simp,by simp,by simp [CreatorPc.threadsRun]⟩
  · intro t'
    rw [habsent t']
    rintro ⟨⟩
  · intro t' hne
    exact ⟨Function.update_of_ne hne _ _,rfl,hhandles t' _ rfl rfl⟩
  · have := h.threads.references t
    rw [hunused,LifetimeState.handles,hc] at this
    simp only [LifetimeState.setPc,Function.update_self,LifetimeState.handles]
    exact this
  · intro hopen
    have := hclosed t
    rw [LifetimeState.handles,hc] at this
    exact absurd (this ▸ hopen) (Nat.lt_irrefl 0)
  · refine ⟨Or.inl (Function.update_self _ _ _),?_⟩
    intro t' hne
    exact (Function.update_of_ne hne _ _).trans (hunused t')

private theorem LifetimeInv.callCreate (h : LifetimeInv s) {c : Thread} (hc : s.pc c = .live) :
    LifetimeInv (s.setPc c (.creating t)) :=
  h.moveOpen c (.creating t) (by rw [hc]; rfl) rfl (by rw [hc]; rfl) rfl rfl rfl rfl
    ⟨⟨rfl,rfl,rfl⟩,rfl,rfl⟩

omit [DecidableEq Thread] in
private theorem ProcessInv.remaining_of_listed (h : ProcessInv s)
    (ht : (s.place t).isListed = true) : ∀ t', (s.place t').remaining ≠ some 0 := by
  intro t' ht'
  have hmem := (h.listed t).mpr ht
  rw [(h.emptied t' ht').1] at hmem
  cases hmem

private theorem ThreadsInv.leave (h : ThreadsInv s) {pc : ThreadPc Thread}
    (hold : (s.pc t).references = 0) (holdOpen : (s.pc t).mayBeOpen = false)
    (hruns : s.creator.threadsRun = true) (hpc : s'.pc = Function.update s.pc t pc)
    (hcount : s'.threadRefCnt = s.threadRefCnt) (hhandles : ∀ t, s'.handles t = s.handles t)
    (hcreator : s'.creator = s.creator) (hnew : pc.references = 0) : ThreadsInv s' := by
  have hclosed : s.handles t = 0 := by
    by_contra hopen
    have := h.handles t (Nat.pos_of_ne_zero hopen)
    rw [holdOpen] at this
    cases this
  apply h.move t
  · intro t' hne
    rw [hpc,hcount,hhandles,Function.update_of_ne hne]
    exact ⟨rfl,rfl,rfl⟩
  · rw [hcount,hpc,Function.update_self,hhandles,h.references t,hold,hnew]
  · intro hopen
    rw [hhandles,hclosed] at hopen
    omega
  · apply CreatorInv.of_runs
    rw [hcreator]
    exact hruns

private theorem LifetimeState.open_of_mayExit (h : s.mayExit t = true) :
    (s.pc t).mayBeOpen = true ∧ (s.pc t).references = 1 := by
  rw [LifetimeState.mayExit] at h
  cases hpc : s.pc t <;> simp_all [ThreadPc.mayBeOpen,ThreadPc.references]

private theorem LifetimeInv.insertThread_step (h : LifetimeInv s) {caller : Caller Thread}
    (hstep : lifetimeStep s (.insertThread caller t) = some s') : LifetimeInv s' := by
  simp only [lifetimeStep] at hstep
  rw [ite_eq_iff] at hstep
  obtain ⟨_,hstep⟩ | ⟨hblocked,hstep⟩ := hstep
  · cases hstep
  obtain ⟨hfree,ht⟩ := not_or.mp hblocked
  rw [not_not] at hfree ht
  cases caller with
  | umApplicationRun =>
    change (if s.creator = .createThread then _ else none) = some s' at hstep
    split_ifs at hstep with hc
    have hunused : ∀ t', s.pc t' = .unused := by
      have := h.threads.creator
      rw [hc] at this
      exact this
    obtain rfl := processInsertThread_eq hstep
    exact h.insertFirst hfree hc hunused
  | thread c =>
    change (if s.pc c = .live then _ else none) = some s' at hstep
    split_ifs at hstep with hc
    have hruns := h.threads.runs_of_mayBeOpen (t := c) (by rw [hc]; rfl)
    have hcalled := h.callCreate (t := t) hc
    have hne : t ≠ c := by
      intro heq
      rw [heq,hc] at ht
      cases ht
    apply hcalled.insertThread hfree ?_ ?_ (CreatorInv.of_runs hruns) hstep
    · exact (Function.update_of_ne hne _ _).trans ht
    · apply hcalled.process.remaining_of_listed (t := c)
      simp [ThreadPc.place,Place.isListed]

private theorem LifetimeInv.finishCreate_step (h : LifetimeInv s) {caller : Caller Thread} {isEntryPoint succeeded : Bool}
    (hstep : lifetimeStep s (.finishCreate caller isEntryPoint succeeded) = some s') : LifetimeInv s' := by
  cases caller with
  | umApplicationRun =>
    cases hc : s.creator <;> simp only [lifetimeStep,hc,reduceCtorEq] at hstep
    obtain ⟨_,hassert,hstep⟩ := Option.bind_eq_some_iff.mp hstep
    obtain ⟨_,_,hs⟩ := Option.bind_eq_some_iff.mp hstep
    simp only [assert_eq_some,Bool.and_eq_true,decide_eq_true_eq] at hassert
    obtain ⟨hlive,hfailed⟩ := h.finishFirst hc hassert.2
    cases succeeded <;> obtain rfl := Option.some.inj hs
    · exact hfailed
    · exact hlive
  | thread c =>
    cases hc : s.pc c <;> simp only [lifetimeStep,hc,reduceCtorEq] at hstep
    obtain ⟨_,hassert,hstep⟩ := Option.bind_eq_some_iff.mp hstep
    obtain ⟨_,_,hs⟩ := Option.bind_eq_some_iff.mp hstep
    simp only [assert_eq_some,decide_eq_true_eq] at hassert
    obtain ⟨hlive,hfailed⟩ := h.finishThread hc hassert
    cases succeeded <;> obtain rfl := Option.some.inj hs
    · exact hfailed
    · exact hlive

private theorem LifetimeInv.exit_step (h : LifetimeInv s)
    (hstep : lifetimeStep s (.exit t) = some s') : LifetimeInv s' := by
  simp only [lifetimeStep] at hstep
  split_ifs at hstep with ht
  obtain rfl := Option.some.inj hstep
  obtain ⟨hold,hrefs⟩ := LifetimeState.open_of_mayExit ht
  exact h.moveOpen t .exited hold rfl hrefs.symm rfl rfl rfl rfl ⟨⟨rfl,rfl,rfl⟩,rfl,rfl⟩

private theorem LifetimeInv.cleanup_step (h : LifetimeInv s)
    (hstep : lifetimeStep s (.cleanup t) = some s') : LifetimeInv s' := by
  simp only [lifetimeStep] at hstep
  split_ifs at hstep with ht
  obtain rfl := Option.some.inj hstep
  have hrefs := h.threads.references t
  rw [ht] at hrefs
  apply h.dropReference t .released
  · rw [hrefs]
    change 1 + s.handles t = 0 + s.handles t + 1
    omega
  · rfl
  · rfl
  · exact fun _ _ => rfl
  · rw [ht]
    rfl
  · rfl
  · exact SameStage.rfl
  · exact ⟨⟨rfl,rfl,rfl⟩,rfl,rfl⟩

private theorem LifetimeInv.threadCloseHandle_step (h : LifetimeInv s)
    (hstep : lifetimeStep s (.threadCloseHandle t) = some s') : LifetimeInv s' := by
  simp only [lifetimeStep] at hstep
  split_ifs at hstep with hopen
  obtain rfl := Option.some.inj hstep
  have hmay := h.threads.handles t (by simp [LifetimeState.handles,hopen])
  apply h.dropReference t (s.pc t)
  · rw [h.threads.references t]
    simp only [LifetimeState.handles,threadDereference,LifetimeState.setPc,hopen,
      Function.update_self,Bool.toNat_true,Bool.toNat_false]
    omega
  · rfl
  · rfl
  · intro t' ht'
    simp [LifetimeState.handles,threadDereference,LifetimeState.setPc,ht']
  · exact hmay
  · exact hmay
  · exact SameStage.rfl
  · exact ⟨⟨rfl,rfl,rfl⟩,rfl,rfl⟩

private theorem LifetimeInv.removeCount_step (h : LifetimeInv s)
    (hstep : lifetimeStep s (.removeCount t) = some s') : LifetimeInv s' := by
  simp only [lifetimeStep] at hstep
  split_ifs at hstep with hcond
  obtain rfl := Option.some.inj hstep
  obtain ⟨hpc,hfree⟩ := hcond
  have hruns : s.creator.threadsRun = true := by
    apply h.threads.runs (t := t) <;> rw [hpc] <;> simp
  have hplace : s.place t = .listed := by
    rw [LifetimeState.place,hpc]
    rfl
  refine ⟨h.process.removeCount hplace hruns hfree (place_setPc _) rfl rfl rfl ⟨rfl,rfl,rfl⟩,?_⟩
  exact h.threads.leave (by rw [hpc]; rfl) (by rw [hpc]; rfl) hruns rfl rfl (fun _ => rfl) rfl rfl

private theorem LifetimeInv.removeDereference_step (h : LifetimeInv s)
    (hstep : lifetimeStep s (.removeDereference t) = some s') : LifetimeInv s' := by
  cases hpc : s.pc t <;> simp only [lifetimeStep,hpc,reduceCtorEq] at hstep
  rename_i remaining
  obtain rfl := Option.some.inj hstep
  have hruns : s.creator.threadsRun = true := by
    apply h.threads.runs (t := t) <;> rw [hpc] <;> simp
  have hplace : s.place t = .removing remaining := by
    rw [LifetimeState.place,hpc]
    rfl
  refine ⟨h.process.removeDereference hplace (place_setPc _) rfl ⟨rfl,rfl⟩ ⟨rfl,rfl,rfl⟩,?_⟩
  exact h.threads.leave (by rw [hpc]; rfl) (by rw [hpc]; rfl) hruns rfl rfl (fun _ => rfl) rfl rfl

private theorem LifetimeInv.removeLast_step (h : LifetimeInv s)
    (hguard : KeepsUntilReferenced s (.removeLast t))
    (hstep : lifetimeStep s (.removeLast t) = some s') : LifetimeInv s' := by
  cases hpc : s.pc t <;> simp only [lifetimeStep,hpc,reduceCtorEq] at hstep
  rename_i remaining
  obtain rfl := Option.some.inj hstep
  have hruns : s.creator.threadsRun = true := by
    apply h.threads.runs (t := t) <;> rw [hpc] <;> simp
  have hplace : s.place t = .unlisted remaining := by
    rw [LifetimeState.place,hpc]
    rfl
  have hkeeps : remaining = 0 → s.creator = .returned ∨ s.creator = .closed := by
    intro hzero
    exact hguard (by rw [hpc,hzero])
  by_cases hzero : remaining = 0
  · rw [if_pos hzero]
    refine ⟨h.process.removeLast hplace hkeeps (place_setPc _) (Or.inl ⟨hzero,rfl,rfl⟩)
      ⟨rfl,rfl,rfl,rfl⟩,?_⟩
    exact h.threads.leave (by rw [hpc]; rfl) (by rw [hpc]; rfl) hruns rfl rfl (fun _ => rfl) rfl rfl
  · rw [if_neg hzero]
    refine ⟨h.process.removeLast hplace hkeeps (place_setPc _) (Or.inr ⟨hzero,rfl,rfl⟩)
      ⟨rfl,rfl,rfl,rfl⟩,?_⟩
    exact h.threads.leave (by rw [hpc]; rfl) (by rw [hpc]; rfl) hruns rfl rfl (fun _ => rfl) rfl rfl

private theorem LifetimeInv.closeThread_step (h : LifetimeInv s)
    (hstep : lifetimeStep s .closeThread = some s') : LifetimeInv s' := by
  cases hc : s.creator <;> simp only [lifetimeStep,hc,reduceCtorEq] at hstep
  rename_i t
  obtain rfl := Option.some.inj hstep
  have hmay := h.threads.handles t (by simp [LifetimeState.handles,hc,CreatorPc.handles])
  apply h.dropReference t (s.pc t)
  · rw [h.threads.references t]
    simp only [LifetimeState.handles,threadDereference,LifetimeState.setPc,hc,CreatorPc.handles]
    split_ifs <;> simp only <;> omega
  · rfl
  · rfl
  · intro t' ht'
    simp only [LifetimeState.handles,threadDereference,LifetimeState.setPc,hc]
    split_ifs <;> simp [CreatorPc.handles,Ne.symm ht']
  · exact hmay
  · exact hmay
  · simp only [threadDereference,LifetimeState.setPc,hc]
    split_ifs <;> exact ⟨by simp,by simp,by simp,fun _ => rfl⟩
  · exact ⟨⟨rfl,rfl,rfl⟩,rfl,rfl⟩

private theorem LifetimeInv.threadDestroyed_step (h : LifetimeInv s)
    (hstep : lifetimeStep s .threadDestroyed = some s') : LifetimeInv s' := by
  cases hc : s.creator <;> simp only [lifetimeStep,hc,reduceCtorEq] at hstep
  split at hstep
  · obtain rfl := Option.some.inj hstep
    refine ⟨h.process.frame rfl ?_ ⟨rfl,rfl,rfl⟩ ⟨rfl,rfl⟩,
      h.threads.setCreator .referenceProcess rfl rfl rfl rfl (by simp [hc,CreatorPc.handles])
        trivial⟩
    exact ⟨by simp [hc],by simp [hc],by simp [hc],fun _ => rfl⟩
  · cases hstep

theorem LifetimeInv.step (h : LifetimeInv s) {action : LifetimeAction Thread}
    (hguard : KeepsUntilReferenced s action) (hstep : lifetimeStep s action = some s') :
    LifetimeInv s' := by
  cases action with
  | prepare succeeded =>
    obtain ⟨next,hnext,hs⟩ := Option.bind_eq_some_iff.mp hstep
    obtain rfl := Option.some.inj hs
    exact h.prepare hnext succeeded
  | insertThread caller t => exact h.insertThread_step hstep
  | insertReference t =>
    simp only [lifetimeStep] at hstep
    split_ifs at hstep with ht
    obtain rfl := Option.some.inj hstep
    exact h.insertReference ht
  | finishCreate caller isEntryPoint succeeded => exact h.finishCreate_step hstep
  | exit t => exact h.exit_step hstep
  | cleanup t => exact h.cleanup_step hstep
  | threadCloseHandle t => exact h.threadCloseHandle_step hstep
  | removeCount t => exact h.removeCount_step hstep
  | removeDereference t => exact h.removeDereference_step hstep
  | removeLast t => exact h.removeLast_step hguard hstep
  | closeThread => exact h.closeThread_step hstep
  | threadDestroyed => exact h.threadDestroyed_step hstep
  | referenceProcess =>
    simp only [lifetimeStep] at hstep
    split_ifs at hstep with hc
    obtain rfl := Option.some.inj hstep
    exact (h.referenceProcess hc).2
  | dereferenceProcess =>
    simp only [lifetimeStep] at hstep
    split_ifs at hstep with hc
    obtain rfl := Option.some.inj hstep
    exact h.dereferenceProcess hc
  | processCloseHandle =>
    simp only [lifetimeStep] at hstep
    split_ifs at hstep with hc
    obtain rfl := Option.some.inj hstep
    exact h.processCloseHandle hc

private theorem LifetimeInv.unlocked_of_failed (h : LifetimeInv s) (hc : s.creator = .failed) :
    s.threadListLock = none := by
  have hcreator := h.threads.creator
  rw [hc] at hcreator
  cases hlock : s.threadListLock with
  | none => rfl
  | some t =>
    have hholds := (h.process.lock t).mp hlock
    rcases hcreator t with hpc | hpc <;> rw [LifetimeState.place,hpc] at hholds <;> cases hholds

theorem lifetimeInv_of_reachable
    (h : (lifetimeSystem Thread).ReachableUnder KeepsUntilReferenced s) :
    LifetimeInv s := by
  refine TransitionSystem.ReachableUnder.invariant ?_ ?_ h
  · intro s hinit
    rw [hinit]
    have hremaining : ∀ t : Thread, (newProcess.place t).remaining ≠ some 0 := by rintro _ ⟨⟩
    refine ⟨⟨⟨rfl,List.nodup_nil,?_,?_,by intros; contradiction⟩,?_,rfl,
      by intros; contradiction,by intros; contradiction⟩,fun _ => rfl,by intros; contradiction,
      fun _ => rfl⟩
    · simp [newProcess,LifetimeState.place,ThreadPc.place,Place.isListed]
    · simp [newProcess,LifetimeState.place,ThreadPc.place,Place.holdsLock]
    · rw [initialReferences_of_not]
      · rfl
      · rw [dropped_of_remaining hremaining]
        rintro ⟨⟩
  · intro s action s' _ hinv hguard hstep
    exact hinv.step hguard hstep

/-- While the removal of the last thread drops its reference only after `ProcessCreate` has taken
the one of the handle, `_ProcessDestroy` runs at most once, not before the last thread is off the
list and the returned handle is closed, and the reference is taken of a process that exists. -/
theorem process_destroyed_once
    (h : (lifetimeSystem Thread).ReachableUnder KeepsUntilReferenced s) :
    s.destroyed ≤ 1 ∧
      (0 < s.destroyed → s.numberOfThreads = 0 ∧ (s.creator = .closed ∨ s.creator = .failed)) ∧
      (s.creator = .referenceProcess → s.destroyed = 0) := by
  have hinv := lifetimeInv_of_reachable h
  have hdestroyed := hinv.process.destroyed
  refine ⟨?_,?_,?_⟩
  · rw [hdestroyed]
    split <;> omega
  · intro hpos
    have hzero : s.refCnt = 0 := by
      by_contra hne
      rw [if_neg hne] at hdestroyed
      omega
    have hrefs := hinv.process.references
    have hlength := hinv.process.toListInv.length_pending
    have hhandle := handleReferences_nonneg (s := s)
    have hdropped : s.InitialDropped := by
      by_contra hkept
      rw [initialReferences_of_not hkept] at hrefs
      omega
    rw [initialReferences_of_dropped hdropped] at hrefs
    rw [hinv.process.count]
    rcases hdropped with hfailed | ⟨t,ht⟩
    · have hlock := hinv.unlocked_of_failed hfailed
      simp only [LifetimeState.pendingReferences,hlock] at hrefs
      exact ⟨by omega,Or.inr hfailed⟩
    · have hempty := (hinv.process.emptied t (by rw [ht]; rfl)).1
      refine ⟨by rw [hempty]; rfl,?_⟩
      rcases hinv.process.kept t ht with hreturned | hclosed
      · simp only [LifetimeState.handleReferences,hreturned] at hrefs
        omega
      · exact Or.inl hclosed
  · intro hc
    have := (hinv.referenceProcess hc).1
    rw [hdestroyed,if_neg (by omega)]

/-- The condition is exact: a last dereference before the handle's reference destroys the process
under `ProcessCreate`. -/
theorem early_removal_destroys
    (h : (lifetimeSystem Thread).ReachableUnder KeepsUntilReferenced s) {t : Thread}
    (hearly : ¬ KeepsUntilReferenced s (.removeLast t))
    (hstep : lifetimeStep s (.removeLast t) = some s') :
    s'.destroyed = 1 ∧ s'.creator ≠ .returned ∧ s'.creator ≠ .closed ∧ s'.creator ≠ .failed := by
  have hinv := lifetimeInv_of_reachable h
  simp only [KeepsUntilReferenced,Classical.not_imp,not_or] at hearly
  obtain ⟨hpc,hreturned,hclosed⟩ := hearly
  simp only [lifetimeStep,hpc] at hstep
  obtain rfl := Option.some.inj hstep
  have hruns : s.creator.threadsRun = true := by
    apply hinv.threads.runs (t := t) <;> rw [hpc] <;> simp
  have hfailed : s.creator ≠ .failed := by
    intro hfailed
    rw [hfailed] at hruns
    cases hruns
  have hplace : s.place t = .unlisted 0 := by
    rw [LifetimeState.place,hpc]
    rfl
  have hempty := (hinv.process.emptied t (by rw [hplace]; rfl)).1
  have hkept : ¬ s.InitialDropped := by
    intro hdropped
    rcases hdropped with h' | ⟨t',ht'⟩
    · exact hfailed h'
    · rcases hinv.process.kept t' ht' with h' | h'
      · exact hreturned h'
      · exact hclosed h'
  have hpending : s.pendingReferences = 0 := by
    unfold LifetimeState.pendingReferences
    cases hlock : s.threadListLock with
    | none => rfl
    | some t' =>
      have hholds := (hinv.process.lock t').mp hlock
      cases ht' : s.place t' with
      | inserting =>
        have := (hinv.process.listed t').mpr (by rw [ht']; rfl)
        rw [hempty] at this
        cases this
      | removing remaining =>
        have hcount := hinv.process.counted t' remaining ht'
        rw [hinv.process.count,hempty] at hcount
        have hsame := (hinv.process.emptied t (by rw [hplace]; rfl)).2.2 t' (by
          rw [ht',← hcount]
          rfl)
        rw [hsame,hplace] at ht'
        cases ht'
      | absent | listed | unlisted | gone =>
        rw [ht'] at hholds
        cases hholds
  have hhandle : s.handleReferences = 0 := by
    unfold LifetimeState.handleReferences
    split
    · contradiction
    · rfl
  have hrefs := hinv.process.references
  rw [initialReferences_of_not hkept,hempty,hpending,hhandle] at hrefs
  have hone : s.refCnt = 1 := by
    simp only [List.length_nil] at hrefs
    omega
  have hdestroyed := hinv.process.destroyed
  rw [if_neg (by omega)] at hdestroyed
  refine ⟨?_,hreturned,hclosed,hfailed⟩
  simp [LifetimeState.setPc,processDereference,hone,hdestroyed]

end Destruction

/-- `ProcessCreate` up to the point where the first thread may run. -/
def createFirstThread : List (LifetimeAction (Fin 2)) :=
  [.prepare true,.prepare true,.prepare true,.prepare true,.insertThread .umApplicationRun 0,
    .insertReference 0,.finishCreate .umApplicationRun true true]

/-- The first thread creates a second one; both end before the handle is closed. -/
theorem process_destroyed_once_two : ∃ s : LifetimeState (Fin 2),
    (lifetimeSystem (Fin 2)).ReachableUnder KeepsUntilReferenced s ∧
    s.destroyed = 1 ∧ s.numberOfThreads = 0 ∧ (s.creator = .closed ∨ s.creator = .failed) := by
  obtain ⟨s,hreach,hs⟩ := TransitionSystem.exists_reachable (lifetimeSystem (Fin 2))
    KeepsUntilReferenced newProcess rfl
    (createFirstThread ++ [.insertThread (.thread 0) 1,.insertReference 1,
      .finishCreate (.thread 0) false true,.closeThread,.exit 0,.cleanup 0,.exit 1,.removeCount 0,
      .removeDereference 0,.removeLast 0,.threadCloseHandle 1,.cleanup 1,.removeCount 1,
      .referenceProcess,.removeDereference 1,.removeLast 1,.processCloseHandle])
    (fun s => decide (s.destroyed = 1)) (by decide +kernel) (by decide +kernel)
  have hdestroyed := of_decide_eq_true hs
  exact ⟨s,hreach,hdestroyed,(process_destroyed_once hreach).2.1 (by rw [hdestroyed]; decide)⟩

/-- The first thread ends before its handle is closed: that close destroys the thread and with
it the process, which `ProcessCreate` references next. -/
theorem destroyed_process_referenced : ∃ s : LifetimeState (Fin 2),
    (lifetimeSystem (Fin 2)).Reachable s ∧ s.creator = .referenceProcess ∧ s.destroyed = 1 := by
  obtain ⟨s,hreach,hs⟩ := TransitionSystem.exists_reachable (lifetimeSystem (Fin 2))
    (fun _ _ => True) newProcess rfl
    (createFirstThread ++ [.exit 0,.cleanup 0,.closeThread,.removeCount 0,.removeDereference 0,
      .removeLast 0,.threadDestroyed])
    (fun s => decide (s.creator = .referenceProcess ∧ s.destroyed = 1))
    (TransitionSystem.runSatisfies_of_forall (fun _ _ => trivial) _ _) (by decide +kernel)
  exact ⟨s,hreach,of_decide_eq_true hs⟩

end Hal9000
