import Hal9000.Smp.Ipi

/-!
# The references of an IPC event

An IPC event is freed when its last reference is dropped: by the last handler, or by the thread that
waits, which the last handler wakes.
-/

namespace Hal9000

section IpcEvent

variable {Cpu Thread Event : Type} [DecidableEq Cpu] [DecidableEq Thread] [DecidableEq Event]

/-- The CPUs whose handlers have dropped their references. -/
def droppedBy (event : Event) (record : List (SmpTrace Cpu Event)) : List Cpu :=
  record.filterMap fun
    | .dereferenced c event' => if event' = event then some c else none
    | _ => none

variable {smp : SmpData Cpu} {s s' : SmpState Cpu Thread Event} {action : SmpAction Cpu Thread Event}
  {record obs : List (SmpTrace Cpu Event)} {event : Event} {c : Cpu} {t : Thread}

theorem count_droppedBy : (droppedBy event record).count c = record.count (.dereferenced c event) := by
  induction record with
  | nil => rfl
  | cons x record ih =>
    simp only [droppedBy] at ih
    cases x with
    | dereferenced c' event' =>
      by_cases hevent : event' = event
      · subst hevent
        simp [droppedBy,List.count_cons,ih]
      · simp [droppedBy,hevent,ih]
    | _ => simpa [droppedBy,List.count_cons] using ih

omit [DecidableEq Cpu] in
theorem droppedBy_append : droppedBy event (record ++ obs) =
    droppedBy event record ++ droppedBy event obs := List.filterMap_append

theorem mem_droppedBy : c ∈ droppedBy event record ↔ .dereferenced c event ∈ record := by
  rw [← List.count_pos_iff,count_droppedBy,List.count_pos_iff]

/-- An entry is queued once, for a CPU of the event, and is then in the list of the CPU, in its
handler, or done with. -/
structure EntryInv (s : SmpState Cpu Thread Event) (record : List (SmpTrace Cpu Event)) : Prop where
  nodup : ∀ event, (s.cpuEvents event).Nodup
  allocated : ∀ t event, (s.pc t).event = some event → s.cpuEvents event ≠ []
  owner : ∀ t t' event, (s.pc t).event = some event → (s.pc t').event = some event → t = t'
  inserting : ∀ t request apicId cpus event left self,
    s.pc t = .inserting request apicId cpus event left self → s.cpuEvents event = cpus ∧
      s.signalTermination event = request.waitForHandling ∧ left.Nodup ∧
      ∀ c ∈ left, c ∈ cpus ∧ .queued c event ∉ record
  queuedOnce : ∀ c event, record.count (.queued c event) ≤ 1
  queuedFor : ∀ c event, .queued c event ∈ record → c ∈ s.cpuEvents event
  places : ∀ c event, record.count (.queued c event) = (s.eventList c).count event +
    (s.isr c).handling.toList.count event + record.count (.dereferenced c event)

omit [DecidableEq Cpu] [DecidableEq Event] in
theorem setPc_pc {pc : SenderPc Cpu Event} {u : Thread} :
    (s.setPc t pc).pc u = if u = t then pc else s.pc u := by
  by_cases hu : u = t
  · rw [if_pos hu,hu]
    exact Function.update_self _ _ _
  · rw [if_neg hu]
    exact Function.update_of_ne hu _ _

omit [DecidableEq Thread] in
theorem count_freedTrace {x : SmpTrace Cpu Event} (hx : ∀ event, x ≠ .freed event) :
    (s.freedTrace event).count x = 0 := by
  unfold SmpState.freedTrace
  split <;> simp [Ne.symm (hx event)]

theorem count_sent {x : SmpTrace Cpu Event} {cpus : List Cpu} (hx : ∀ c event, x ≠ .sent c event) :
    (cpus.map (SmpTrace.sent · event)).count x = 0 := by
  rw [List.count_eq_zero]
  intro hmem
  obtain ⟨c,_,hc⟩ := List.mem_map.mp hmem
  exact hx c event hc.symm

theorem EntryInv.places_step (h : EntryInv s record) (he : SmpEffect smp s action obs s') :
    ∀ c event, (record ++ obs).count (.queued c event) = (s'.eventList c).count event +
      (s'.isr c).handling.toList.count event + (record ++ obs).count (.dereferenced c event) := by
  intro c event
  have hold := h.places c event
  cases he with
  | @insert t request apicId cpus left event' c' self hpc =>
    by_cases hc : c' = c
    · subst hc
      by_cases hevent : event' = event
      · subst hevent
        simp [SmpState.insertEvent,SmpState.setPc,List.count_append,hold]
        omega
      · simp [SmpState.insertEvent,SmpState.setPc,List.count_append,hevent,hold]
    · simp [SmpState.insertEvent,SmpState.setPc,List.count_append,hc,Ne.symm hc,hold]
  | @send t request apicId cpus event' self hpc =>
    rw [List.count_append,List.count_append,count_sent (by simp),count_sent (by simp)]
    exact hold
  | @release t event' hpc =>
    simpa [SmpState.rfcDereference,SmpState.setPc,List.count_append,List.count_cons,
      count_freedTrace] using hold
  | @interrupt c' hpending hisr =>
    by_cases hc : c' = c
    · subst hc
      simpa [SmpState.setIsr,hisr,IsrPc.handling] using hold
    · simpa [SmpState.setIsr,Function.update_of_ne (Ne.symm hc)] using hold
  | @remove c' event' rest hisr hlist =>
    by_cases hc : c' = c
    · subst hc
      simp only [SmpState.setIsr,Function.update_self,hisr,hlist,IsrPc.handling,List.count_append,
        List.count_cons,List.count_nil,Option.toList] at hold ⊢
      simp at hold ⊢
      omega
    · simpa [SmpState.setIsr,Function.update_of_ne (Ne.symm hc),List.count_append,
        List.count_cons] using hold
  | @call c' event' hisr =>
    by_cases hc : c' = c
    · subst hc
      simpa [SmpState.setIsr,hisr,IsrPc.handling,List.count_append,List.count_cons] using hold
    · simpa [SmpState.setIsr,Function.update_of_ne (Ne.symm hc),List.count_append,
        List.count_cons] using hold
  | @dereference c' event' signalTermination hisr =>
    by_cases hc : c' = c
    · subst hc
      simp [SmpState.setIsr,SmpState.rfcDereference,hisr,IsrPc.handling,List.count_append,
        List.count_cons,count_freedTrace] at hold ⊢
      by_cases hevent : event' = event <;> simp [hevent] at hold ⊢ <;> omega
    · simpa [SmpState.setIsr,SmpState.rfcDereference,Function.update_of_ne (Ne.symm hc),
        List.count_append,List.count_cons,count_freedTrace,hc] using hold
  | @signal c' event' hisr =>
    by_cases hc : c' = c
    · subst hc
      simpa [SmpState.setIsr,hisr,IsrPc.handling] using hold
    · simpa [SmpState.setIsr,Function.update_of_ne (Ne.symm hc)] using hold
  | @finish c' isr hentered hhandling hnew =>
    by_cases hc : c' = c
    · subst hc
      rw [hhandling] at hold
      rcases hnew with rfl | rfl <;> simpa [SmpState.setIsr,IsrPc.handling] using hold
    · simpa [SmpState.setIsr,Function.update_of_ne (Ne.symm hc)] using hold
  | _ =>
    rw [List.append_nil]
    exact hold

theorem SmpEffect.event_cases (he : SmpEffect smp s action obs s')
    (hevent : (s'.pc t).event = some event) : (s.pc t).event = some event ∨
      s.cpuEvents event = [] ∧ ∃ request apicId cpus, s.pc t = .matched request apicId cpus ∧
        s' = (s.initEvent event cpus request.waitForHandling).setPc t
          (.inserting request apicId cpus event cpus false) := by
  have hmove : ∀ u pc, (pc.event = none ∨ pc.event = (s.pc u).event) →
      (Function.update s.pc u pc t).event = some event → (s.pc t).event = some event := by
    intro u pc hpc hnew
    by_cases hu : t = u
    · subst hu
      rw [Function.update_self] at hnew
      rcases hpc with hnone | hsame
      · rw [hnone] at hnew
        cases hnew
      · rw [← hsame,hnew]
    · rwa [Function.update_of_ne hu] at hnew
  cases he with
  | outside _ hnew _ => exact Or.inl (hmove _ _ (Or.inl hnew) hevent)
  | @generate u request apicId cpus event' hpc hfree =>
    by_cases hu : t = u
    · subst hu
      have hsame : event' = event := by
        simpa [SmpState.setPc,SenderPc.event] using hevent
      subst hsame
      exact Or.inr ⟨hfree,request,apicId,cpus,hpc,rfl⟩
    · left
      simpa [SmpState.setPc,SmpState.initEvent,Function.update_of_ne hu] using hevent
  | insert hpc => exact Or.inl (hmove _ _ (Or.inr (by rw [hpc]; rfl)) hevent)
  | send hpc =>
    refine Or.inl (hmove _ _ ?_ hevent)
    rw [hpc]
    split
    · exact Or.inr rfl
    · exact Or.inl rfl
  | wake hpc => exact Or.inl (hmove _ _ (Or.inr (by rw [hpc]; rfl)) hevent)
  | release hpc => exact Or.inl (hmove _ _ (Or.inl rfl) hevent)
  | _ => exact Or.inl hevent

theorem SmpEffect.cpuEvents_cases (he : SmpEffect smp s action obs s') :
    s'.cpuEvents = s.cpuEvents ∧ s'.signalTermination = s.signalTermination ∨
      ∃ t request apicId cpus event, s.pc t = .matched request apicId cpus ∧
        s.cpuEvents event = [] ∧ obs = [] ∧
        s' = (s.initEvent event cpus request.waitForHandling).setPc t
          (.inserting request apicId cpus event cpus false) := by
  cases he with
  | generate hpc hfree => exact Or.inr ⟨_,_,_,_,_,hpc,hfree,rfl,rfl⟩
  | _ => exact Or.inl ⟨rfl,rfl⟩

theorem SmpEffect.kept (he : SmpEffect smp s action obs s') (hallocated : s.cpuEvents event ≠ []) :
    s'.cpuEvents event = s.cpuEvents event ∧
      s'.signalTermination event = s.signalTermination event := by
  rcases he.cpuEvents_cases with ⟨hcpus,hsignal⟩ | ⟨_,_,_,_,event',_,hfree,_,rfl⟩
  · rw [hcpus,hsignal]
    exact ⟨rfl,rfl⟩
  · have hne : event ≠ event' := by
      rintro rfl
      exact hallocated hfree
    exact ⟨Function.update_of_ne hne _ _,Function.update_of_ne hne _ _⟩

omit [DecidableEq Thread] in
theorem not_mem_freedTrace {x : SmpTrace Cpu Event} (hx : ∀ event, x ≠ .freed event) :
    x ∉ s.freedTrace event := by
  rw [← List.count_eq_zero]
  exact count_freedTrace hx

theorem not_mem_sent {x : SmpTrace Cpu Event} {cpus : List Cpu} (hx : ∀ c event, x ≠ .sent c event) :
    x ∉ cpus.map (SmpTrace.sent · event) := by
  rw [← List.count_eq_zero]
  exact count_sent hx

theorem SmpEffect.queued_cases (he : SmpEffect smp s action obs s')
    (hmem : .queued c event ∈ obs) : obs = [.queued c event] ∧ s'.cpuEvents = s.cpuEvents ∧
      ∃ t request apicId cpus left self self',
        s.pc t = .inserting request apicId cpus event (c :: left) self ∧
        s'.pc = Function.update s.pc t (.inserting request apicId cpus event left self') := by
  cases he with
  | @insert t request apicId cpus left event' c' self hpc =>
    obtain ⟨rfl,rfl⟩ : c = c' ∧ event = event' := by simpa using hmem
    exact ⟨rfl,rfl,t,request,apicId,cpus,left,self,_,hpc,rfl⟩
  | send => exact absurd hmem (not_mem_sent (by simp))
  | release => simp [not_mem_freedTrace] at hmem
  | dereference => simp [not_mem_freedTrace] at hmem
  | _ => simp at hmem

theorem SmpEffect.inserting_cases (he : SmpEffect smp s action obs s') {request : IpiRequest}
    {apicId : BitVec 8} {cpus left : List Cpu} {self : Bool}
    (hpc : s'.pc t = .inserting request apicId cpus event left self) :
    s.pc t = .inserting request apicId cpus event left self ∨
      (∃ c self', s.pc t = .inserting request apicId cpus event (c :: left) self' ∧
        obs = [.queued c event]) ∨
      s.cpuEvents event = [] ∧ left = cpus ∧ s.pc t = .matched request apicId cpus ∧ obs = [] ∧
        s' = (s.initEvent event cpus request.waitForHandling).setPc t
          (.inserting request apicId cpus event cpus false) := by
  have hmove : ∀ u pc, (∀ request apicId cpus event left self,
      pc ≠ .inserting request apicId cpus event left self) → s'.pc = Function.update s.pc u pc →
      s.pc t = .inserting request apicId cpus event left self := by
    intro u pc hne hupdate
    rw [hupdate] at hpc
    by_cases hu : t = u
    · rw [hu,Function.update_self] at hpc
      exact absurd hpc (hne _ _ _ _ _ _)
    · rwa [Function.update_of_ne hu] at hpc
  cases he with
  | outside _ hnew _ =>
    refine Or.inl (hmove _ _ ?_ rfl)
    rintro request apicId cpus event left self rfl
    cases hnew
  | @generate u request' apicId' cpus' event' hold hfree =>
    simp only [setPc_pc] at hpc
    split_ifs at hpc with hu
    · subst hu
      cases hpc
      exact Or.inr (Or.inr ⟨hfree,rfl,hold,rfl,rfl⟩)
    · exact Or.inl hpc
  | @insert u request' apicId' cpus' left' event' c self' hold =>
    simp only [setPc_pc] at hpc
    split_ifs at hpc with hu
    · subst hu
      cases hpc
      exact Or.inr (Or.inl ⟨c,self',hold,rfl⟩)
    · exact Or.inl hpc
  | send =>
    refine Or.inl (hmove _ _ ?_ rfl)
    intro request apicId cpus event left self heq
    split at heq <;> cases heq
  | wake => exact Or.inl (hmove _ _ (by simp) rfl)
  | release => exact Or.inl (hmove _ _ (by simp) rfl)
  | _ => exact Or.inl hpc

theorem EntryInv.inserting_step (h : EntryInv s record) (hwell : ∀ t, (s.pc t).WellFormed smp)
    (he : SmpEffect smp s action obs s') : ∀ t request apicId cpus event left self,
    s'.pc t = .inserting request apicId cpus event left self → s'.cpuEvents event = cpus ∧
      s'.signalTermination event = request.waitForHandling ∧ left.Nodup ∧
      ∀ c ∈ left, c ∈ cpus ∧ .queued c event ∉ record ++ obs := by
  intro t request apicId cpus event left self hpc
  rcases he.inserting_cases hpc with hold | ⟨c,self',hold,rfl⟩ | ⟨hfree,rfl,hold,rfl,rfl⟩
  · obtain ⟨hcpus,hsignal,hnodup,hleft⟩ := h.inserting t _ _ _ _ _ _ hold
    obtain ⟨hcpus',hsignal'⟩ := he.kept (h.allocated t event (by rw [hold]; rfl))
    refine ⟨hcpus'.trans hcpus,hsignal'.trans hsignal,hnodup,?_⟩
    intro c hc
    refine ⟨(hleft c hc).1,?_⟩
    rw [List.mem_append]
    rintro (hmem | hmem)
    · exact (hleft c hc).2 hmem
    · obtain ⟨_,_,u,_,_,_,left',_,_,hu,hpc'⟩ := he.queued_cases hmem
      have hsame : u = t := h.owner u t event (by rw [hu]; rfl) (by rw [hold]; rfl)
      subst hsame
      rw [hold] at hu
      rw [hpc',Function.update_self] at hpc
      cases hu
      simp at hpc
  · obtain ⟨hcpus,hsignal,hnodup,hleft⟩ := h.inserting t _ _ _ _ _ _ hold
    obtain ⟨hcpus',hsignal'⟩ := he.kept (h.allocated t event (by rw [hold]; rfl))
    obtain ⟨hfresh,hnodup⟩ := List.nodup_cons.mp hnodup
    refine ⟨hcpus'.trans hcpus,hsignal'.trans hsignal,hnodup,?_⟩
    intro c' hc'
    obtain ⟨hmem,hnot⟩ := hleft c' (List.mem_cons_of_mem _ hc')
    refine ⟨hmem,?_⟩
    have hne : c' ≠ c := by
      rintro rfl
      exact hfresh hc'
    simp [hnot,hne]
  · have hmatched := hwell t
    rw [hold] at hmatched
    obtain ⟨_,current,hcpus⟩ := hmatched
    refine ⟨Function.update_self _ _ _,Function.update_self _ _ _,?_,?_⟩
    · rw [hcpus]
      exact smp.nodup.filter _
    · intro c hc
      refine ⟨hc,?_⟩
      rw [List.append_nil]
      intro hmem
      have hnone := h.queuedFor c event hmem
      rw [hfree] at hnone
      cases hnone

theorem EntryInv.step (h : EntryInv s record) (hwell : ∀ t, (s.pc t).WellFormed smp)
    (he : SmpEffect smp s action obs s') : EntryInv s' (record ++ obs) := by
  have hinserting := h.inserting_step hwell he
  refine ⟨?_,?_,?_,hinserting,?_,?_,h.places_step he⟩
  · intro event
    rcases he.cpuEvents_cases with ⟨hcpus,_⟩ | ⟨t,request,apicId,cpus,event',hpc,_,_,rfl⟩
    · rw [hcpus]
      exact h.nodup event
    · by_cases hevent : event = event'
      · subst hevent
        obtain ⟨hcpus,_,hnodup,_⟩ := hinserting t request apicId cpus event cpus false
          (Function.update_self _ _ _)
        rwa [hcpus]
      · have hsame : (s.initEvent event' cpus request.waitForHandling).cpuEvents event =
          s.cpuEvents event := Function.update_of_ne hevent _ _
        exact hsame ▸ h.nodup event
  · intro t event hevent
    rcases he.event_cases hevent with hold | ⟨_,request,apicId,cpus,hpc,rfl⟩
    · rw [(he.kept (h.allocated t event hold)).1]
      exact h.allocated t event hold
    · have hmatched := hwell t
      rw [hpc] at hmatched
      have hcpus : (s.initEvent event cpus request.waitForHandling).cpuEvents event = cpus :=
        Function.update_self _ _ _
      exact fun hnone => hmatched.1 (hcpus.symm.trans hnone)
  · intro t t' event hevent hevent'
    have hother : ∀ u, s.cpuEvents event = [] → (s.pc u).event ≠ some event :=
      fun u hfree hu => h.allocated u event hu hfree
    rcases he.event_cases hevent with hold | ⟨hfree,request,apicId,cpus,hpc,rfl⟩
    · rcases he.event_cases hevent' with hold' | ⟨hfree,_⟩
      · exact h.owner t t' event hold hold'
      · exact absurd hold (hother t hfree)
    · by_contra hne
      rw [setPc_pc,if_neg (Ne.symm hne)] at hevent'
      exact hother t' hfree hevent'
  · intro c event
    rw [List.count_append]
    by_cases hmem : .queued c event ∈ obs
    · obtain ⟨rfl,_,t,_,_,_,_,_,_,hpc,_⟩ := he.queued_cases hmem
      obtain ⟨_,_,_,hleft⟩ := h.inserting t _ _ _ _ _ _ hpc
      rw [List.count_eq_zero.mpr (hleft c (by simp)).2]
      simp
    · rw [List.count_eq_zero.mpr hmem]
      exact h.queuedOnce c event
  · intro c event hmem
    rcases List.mem_append.mp hmem with hold | hnew
    · have hc := h.queuedFor c event hold
      rwa [(he.kept (List.ne_nil_of_mem hc)).1]
    · obtain ⟨_,hcpus,t,_,_,_,_,_,_,hpc,_⟩ := he.queued_cases hnew
      obtain ⟨hall,_,_,hleft⟩ := h.inserting t _ _ _ _ _ _ hpc
      rw [hcpus,hall]
      exact (hleft c (by simp)).1

omit [DecidableEq Thread] in
theorem EntryInv.holds (h : EntryInv s record)
    (hplace : event ∈ s.eventList c ∨ (s.isr c).handling = some event) :
    c ∈ s.cpuEvents event ∧ .dereferenced c event ∉ record := by
  have hcount := h.places c event
  have honce := h.queuedOnce c event
  have hone : 0 < (s.eventList c).count event + (s.isr c).handling.toList.count event := by
    rcases hplace with hmem | hhandling
    · have := List.count_pos_iff.mpr hmem
      omega
    · simp [hhandling]
  refine ⟨h.queuedFor c event ?_,?_⟩
  · rw [← List.count_pos_iff]
    omega
  · rw [← List.count_eq_zero]
    omega

omit [DecidableEq Thread] in
theorem EntryInv.droppedBy_nodup (h : EntryInv s record) (event : Event) :
    (droppedBy event record).Nodup := by
  rw [List.nodup_iff_count_le_one]
  intro c
  rw [count_droppedBy]
  have hplace := h.places c event
  have honce := h.queuedOnce c event
  omega

omit [DecidableEq Thread] in
theorem EntryInv.mem_of_dropped (h : EntryInv s record) (hc : .dereferenced c event ∈ record) :
    c ∈ s.cpuEvents event := by
  apply h.queuedFor c event
  rw [← List.count_pos_iff]
  have hplace := h.places c event
  have hpos := List.count_pos_iff.mpr hc
  omega

omit [DecidableEq Thread] in
theorem EntryInv.droppedBy_subperm (h : EntryInv s record) (event : Event) :
    (droppedBy event record).Subperm (s.cpuEvents event) := by
  apply List.subperm_of_subset (h.droppedBy_nodup event)
  intro c hc
  exact h.mem_of_dropped (mem_droppedBy.mp hc)

omit [DecidableEq Thread] in
theorem EntryInv.droppedBy_lt (h : EntryInv s record) (hc : c ∈ s.cpuEvents event)
    (hnot : .dereferenced c event ∉ record) :
    (droppedBy event record).length < (s.cpuEvents event).length := by
  have hsub : (c :: droppedBy event record).Subperm (s.cpuEvents event) := by
    apply List.subperm_of_subset
    · rw [List.nodup_cons]
      exact ⟨fun hmem => hnot (mem_droppedBy.mp hmem),h.droppedBy_nodup event⟩
    · intro x hx
      rcases List.mem_cons.mp hx with rfl | hx
      · exact hc
      · exact h.mem_of_dropped (mem_droppedBy.mp hx)
  exact hsub.length_le

/-- All handlers of the event have dropped their references. -/
def SmpState.Handled (s : SmpState Cpu Thread Event) (record : List (SmpTrace Cpu Event))
    (event : Event) : Prop :=
  s.cpuEvents event ≠ [] ∧ ∀ c ∈ s.cpuEvents event, .dereferenced c event ∈ record

omit [DecidableEq Thread] in
theorem EntryInv.handled_of_length (h : EntryInv s record) (hallocated : s.cpuEvents event ≠ [])
    (hall : (s.cpuEvents event).length ≤ (droppedBy event record).length) :
    s.Handled record event := by
  refine ⟨hallocated,?_⟩
  intro c hc
  have hperm := (h.droppedBy_subperm event).perm_of_length_le hall
  exact mem_droppedBy.mp (hperm.mem_iff.mpr hc)

omit [DecidableEq Thread] in
theorem EntryInv.droppedBy_length (h : EntryInv s record) (hhandled : s.Handled record event) :
    (droppedBy event record).length = (s.cpuEvents event).length := by
  apply Nat.le_antisymm (h.droppedBy_subperm event).length_le
  apply List.Subperm.length_le
  apply List.subperm_of_subset (h.nodup event)
  exact fun c hc => mem_droppedBy.mpr (hhandled.2 c hc)

structure CountInv (s : SmpState Cpu Thread Event) (record : List (SmpTrace Cpu Event)) : Prop where
  refs : ∀ event, s.refCnt event + (droppedBy event record).length +
    record.count (.released event) =
      (s.cpuEvents event).length + if s.signalTermination event then 1 else 0
  freed : ∀ event, record.count (.freed event) =
    if s.cpuEvents event ≠ [] ∧ s.refCnt event = 0 then 1 else 0
  unreleased : ∀ t event, (s.pc t).event = some event → .released event ∉ record
  releasedOnce : ∀ event, record.count (.released event) ≤ 1
  released : ∀ event, .released event ∈ record →
    s.signalTermination event = true ∧ s.cpuEvents event ≠ []
  waiting : ∀ t event, s.pc t = .waiting event ∨ s.pc t = .signaled event →
    s.signalTermination event = true

omit [DecidableEq Thread] in
theorem CountInv.refCnt_pos (h : CountInv s record) (hentry : EntryInv s record)
    (hc : c ∈ s.cpuEvents event) (hnot : .dereferenced c event ∉ record) : 0 < s.refCnt event := by
  have hrefs := h.refs event
  have hlt := hentry.droppedBy_lt hc hnot
  have hreleased : record.count (.released event) ≤
      if s.signalTermination event then 1 else 0 := by
    by_cases hmem : .released event ∈ record
    · rw [if_pos (h.released event hmem).1]
      exact h.releasedOnce event
    · rw [List.count_eq_zero.mpr hmem]
      exact Nat.zero_le _
  omega

omit [DecidableEq Thread] in
theorem CountInv.refCnt_pos_of_signaled (h : CountInv s record) (hentry : EntryInv s record)
    (hsignal : s.signalTermination event = true) (hreleased : .released event ∉ record) :
    0 < s.refCnt event := by
  have hrefs := h.refs event
  rw [List.count_eq_zero.mpr hreleased,if_pos hsignal] at hrefs
  have hle := (hentry.droppedBy_subperm event).length_le
  omega

theorem SmpEffect.refCnt_cases (he : SmpEffect smp s action obs s') :
    (s'.refCnt = s.refCnt ∧ s'.cpuEvents = s.cpuEvents ∧
      s'.signalTermination = s.signalTermination ∧ ∀ event, droppedBy event obs = [] ∧
        .released event ∉ obs ∧ .freed event ∉ obs) ∨
    (∃ t request apicId cpus event, s.pc t = .matched request apicId cpus ∧
      s.cpuEvents event = [] ∧ obs = [] ∧
      s' = (s.initEvent event cpus request.waitForHandling).setPc t
        (.inserting request apicId cpus event cpus false)) ∨
    ∃ event, s'.refCnt = Function.update s.refCnt event (s.refCnt event - 1) ∧
      s'.cpuEvents = s.cpuEvents ∧ s'.signalTermination = s.signalTermination ∧
      ((∃ t, s.pc t = .signaled event ∧ s'.pc = Function.update s.pc t .idle ∧
        obs = .released event :: s.freedTrace event) ∨
      ∃ c signalTermination, s.isr c = .returned event signalTermination ∧ s'.pc = s.pc ∧
        obs = .dereferenced c event :: s.freedTrace event) := by
  cases he with
  | generate hpc hfree => exact Or.inr (Or.inl ⟨_,_,_,_,_,hpc,hfree,rfl,rfl⟩)
  | release hpc => exact Or.inr (Or.inr ⟨_,rfl,rfl,rfl,Or.inl ⟨_,hpc,rfl,rfl⟩⟩)
  | dereference hisr => exact Or.inr (Or.inr ⟨_,rfl,rfl,rfl,Or.inr ⟨_,_,hisr,rfl,rfl⟩⟩)
  | send =>
    refine Or.inl ⟨rfl,rfl,rfl,fun event => ⟨?_,not_mem_sent (by simp),not_mem_sent (by simp)⟩⟩
    rw [droppedBy,List.filterMap_eq_nil_iff]
    intro x hx
    obtain ⟨c,_,rfl⟩ := List.mem_map.mp hx
    rfl
  | _ => exact Or.inl ⟨rfl,rfl,rfl,fun event => ⟨rfl,by simp,by simp⟩⟩

theorem SmpEffect.waiting_cases (he : SmpEffect smp s action obs s')
    (hpc : s'.pc t = .waiting event ∨ s'.pc t = .signaled event) :
    (s.pc t = .waiting event ∨ s.pc t = .signaled event) ∨ ∃ request apicId cpus self,
      s.pc t = .inserting request apicId cpus event [] self ∧ request.waitForHandling = true := by
  have hmove : ∀ u pc, pc.event = none → s'.pc = Function.update s.pc u pc →
      s.pc t = .waiting event ∨ s.pc t = .signaled event := by
    intro u pc hnone hupdate
    rw [hupdate] at hpc
    by_cases hu : t = u
    · rw [hu,Function.update_self] at hpc
      rcases hpc with rfl | rfl <;> cases hnone
    · rwa [Function.update_of_ne hu] at hpc
  cases he with
  | outside _ hnew _ => exact Or.inl (hmove _ _ hnew rfl)
  | generate =>
    simp only [setPc_pc] at hpc
    split_ifs at hpc with hu
    · rcases hpc with hpc | hpc <;> cases hpc
    · exact Or.inl hpc
  | insert =>
    simp only [setPc_pc] at hpc
    split_ifs at hpc with hu
    · rcases hpc with hpc | hpc <;> cases hpc
    · exact Or.inl hpc
  | @send u request apicId cpus event' self hold =>
    simp only [setPc_pc] at hpc
    split_ifs at hpc with hu hwait
    · subst hu
      rcases hpc with hpc | hpc <;> cases hpc
      exact Or.inr ⟨request,apicId,cpus,self,hold,hwait⟩
    · rcases hpc with hpc | hpc <;> cases hpc
    · exact Or.inl hpc
  | @wake u event' hold =>
    simp only [setPc_pc] at hpc
    split_ifs at hpc with hu
    · subst hu
      rcases hpc with hpc | hpc <;> cases hpc
      exact Or.inl (Or.inl hold)
    · exact Or.inl hpc
  | release => exact Or.inl (hmove _ _ rfl rfl)
  | _ => exact Or.inl hpc

omit [DecidableEq Cpu] [DecidableEq Thread] in
theorem droppedBy_freedTrace {event' : Event} : droppedBy event (s.freedTrace event') = [] := by
  unfold SmpState.freedTrace
  split <;> rfl

omit [DecidableEq Cpu] in
theorem droppedBy_dereferenced {event' : Event} :
    droppedBy event (.dereferenced c event' :: record) =
      if event' = event then c :: droppedBy event record else droppedBy event record := by
  by_cases hevent : event' = event <;> simp [droppedBy,hevent]

omit [DecidableEq Thread] in
theorem count_freed {event' : Event} : (s.freedTrace event).count (.freed event') =
    if event' = event ∧ s.refCnt event = 1 then 1 else 0 := by
  unfold SmpState.freedTrace
  by_cases hevent : event' = event
  · subst hevent
    by_cases hone : s.refCnt event' = 1 <;> simp [hone]
  · have hne : event ≠ event' := Ne.symm hevent
    split <;> simp [hevent,hne]

omit [DecidableEq Thread] in
theorem CountInv.drop (h : CountInv s record) (hpos : 0 < s.refCnt event)
    (hallocated : s.cpuEvents event ≠ [])
    (hrefCnt : s'.refCnt = Function.update s.refCnt event (s.refCnt event - 1))
    (hcpus : s'.cpuEvents = s.cpuEvents) (event' : Event) :
    (record ++ s.freedTrace event).count (.freed event') =
      if s'.cpuEvents event' ≠ [] ∧ s'.refCnt event' = 0 then 1 else 0 := by
  rw [List.count_append,h.freed event',count_freed,hrefCnt,hcpus]
  by_cases hevent : event' = event
  · subst hevent
    rw [Function.update_self]
    by_cases hone : s.refCnt event' = 1
    · simp [hone,hallocated]
    · rw [if_neg (fun hzero => hpos.ne' hzero.2),if_neg (fun heq => hone heq.2),if_neg]
      rintro ⟨_,hzero⟩
      omega
  · rw [Function.update_of_ne hevent,if_neg (c := event' = event ∧ _) (fun heq => hevent heq.1)]
    rfl

theorem CountInv.refs_step (h : CountInv s record) (hentry : EntryInv s record)
    (he : SmpEffect smp s action obs s') (hwell : ∀ t, (s.pc t).WellFormed smp) (event : Event) :
    s'.refCnt event + (droppedBy event (record ++ obs)).length +
      (record ++ obs).count (.released event) =
        (s'.cpuEvents event).length + if s'.signalTermination event then 1 else 0 := by
  have hold := h.refs event
  rcases he.refCnt_cases with ⟨hrefCnt,hcpus,hsignal,hobs⟩ |
    ⟨t,request,apicId,cpus,event',hpc,hfree,rfl,rfl⟩ | ⟨event',hrefCnt,hcpus,hsignal,hdrop⟩
  · obtain ⟨hdropped,hreleased,_⟩ := hobs event
    rw [hrefCnt,hcpus,hsignal,droppedBy_append,hdropped,List.append_nil,List.count_append,
      List.count_eq_zero.mpr hreleased]
    exact hold
  · by_cases hevent : event = event'
    · subst hevent
      have hdropped : droppedBy event record = [] := by
        have hsub := (hentry.droppedBy_subperm event).length_le
        rw [hfree] at hsub
        exact List.length_eq_zero_iff.mp (Nat.le_zero.mp hsub)
      have hreleased : record.count (.released event) = 0 := by
        rw [List.count_eq_zero]
        exact fun hmem => (h.released event hmem).2 hfree
      have hmatched := hwell t
      rw [hpc] at hmatched
      have hpos := List.length_pos_iff.mpr hmatched.1
      simp only [SmpState.initEvent,SmpState.setPc,Function.update_self,List.append_nil,hdropped,
        hreleased,List.length_nil]
      split <;> omega
    · simpa [SmpState.initEvent,SmpState.setPc,Function.update_of_ne hevent] using hold
  · rw [hrefCnt,hcpus,hsignal,droppedBy_append,List.count_append]
    by_cases hevent : event = event'
    · subst hevent
      rw [Function.update_self]
      rcases hdrop with ⟨t,hpc,_,rfl⟩ | ⟨c,_,hisr,_,rfl⟩
      · have hpos := h.refCnt_pos_of_signaled hentry (h.waiting t event (Or.inr hpc))
          (h.unreleased t event (by rw [hpc]; rfl))
        have hnone : droppedBy event (.released event :: s.freedTrace event) = [] :=
          droppedBy_freedTrace
        rw [hnone,List.append_nil,List.count_cons_self,count_freedTrace (by simp)]
        omega
      · obtain ⟨hc,hnot⟩ := hentry.holds (c := c) (Or.inr (by rw [hisr]; rfl))
        have hpos := h.refCnt_pos hentry hc hnot
        have hone : droppedBy event (.dereferenced c event :: s.freedTrace event) = [c] := by
          rw [droppedBy_dereferenced,if_pos rfl,droppedBy_freedTrace]
        rw [hone,List.length_append,List.count_cons_of_ne (by simp),count_freedTrace (by simp)]
        simp only [List.length_singleton]
        omega
    · have hdropped : droppedBy event obs = [] := by
        rcases hdrop with ⟨_,_,_,rfl⟩ | ⟨_,_,_,_,rfl⟩
        · exact droppedBy_freedTrace
        · rw [droppedBy_dereferenced,if_neg (Ne.symm hevent),droppedBy_freedTrace]
      have hreleased : obs.count (.released event) = 0 := by
        rcases hdrop with ⟨_,_,_,rfl⟩ | ⟨_,_,_,_,rfl⟩
        · rw [List.count_cons_of_ne (by simpa using Ne.symm hevent),count_freedTrace (by simp)]
        · rw [List.count_cons_of_ne (by simp),count_freedTrace (by simp)]
      rw [Function.update_of_ne hevent,hdropped,hreleased,List.append_nil]
      exact hold

theorem CountInv.step (h : CountInv s record) (hentry : EntryInv s record)
    (he : SmpEffect smp s action obs s') (hwell : ∀ t, (s.pc t).WellFormed smp) :
    CountInv s' (record ++ obs) := by
  have hrefs := h.refs_step hentry he hwell
  have hreleased : ∀ event, .released event ∈ obs → ∃ t, s.pc t = .signaled event ∧
      s'.pc = Function.update s.pc t .idle ∧ s'.cpuEvents = s.cpuEvents ∧
      s'.signalTermination = s.signalTermination ∧ obs.count (.released event) = 1 := by
    intro event hmem
    rcases he.refCnt_cases with ⟨_,_,_,hobs⟩ | ⟨_,_,_,_,_,_,_,rfl,_⟩ |
      ⟨event',_,hcpus,hsignal,⟨t,hpc,hpc',rfl⟩ | ⟨c,_,_,_,rfl⟩⟩
    · exact absurd hmem (hobs event).2.1
    · cases hmem
    · rcases List.mem_cons.mp hmem with heq | hmem
      · cases heq
        refine ⟨t,hpc,hpc',hcpus,hsignal,?_⟩
        rw [List.count_cons_self,count_freedTrace (by simp)]
      · exact absurd hmem (not_mem_freedTrace (by simp))
    · rcases List.mem_cons.mp hmem with heq | hmem
      · cases heq
      · exact absurd hmem (not_mem_freedTrace (by simp))
  refine ⟨hrefs,?_,?_,?_,?_,?_⟩
  · intro event
    rcases he.refCnt_cases with ⟨hrefCnt,hcpus,_,hobs⟩ | ⟨t,request,apicId,cpus,event',hpc,hfree,rfl,rfl⟩ |
      ⟨event',hrefCnt,hcpus,hsignal,hdrop⟩
    · rw [List.count_append,List.count_eq_zero.mpr (hobs event).2.2,hrefCnt,hcpus]
      exact h.freed event
    · rw [List.append_nil]
      have hold := h.freed event
      by_cases hevent : event = event'
      · subst hevent
        rw [if_neg (fun heq => heq.1 hfree)] at hold
        rw [hold,if_neg]
        rintro ⟨_,hzero⟩
        simp only [SmpState.initEvent,SmpState.setPc,Function.update_self] at hzero
        omega
      · simpa [SmpState.initEvent,SmpState.setPc,Function.update_of_ne hevent] using hold
    · rcases hdrop with ⟨t,hpc,_,rfl⟩ | ⟨c,_,hisr,_,rfl⟩
      · have hpos := h.refCnt_pos_of_signaled hentry (h.waiting t event' (Or.inr hpc))
          (h.unreleased t event' (by rw [hpc]; rfl))
        have hallocated := hentry.allocated t event' (by rw [hpc]; rfl)
        rw [← h.drop hpos hallocated hrefCnt hcpus event,List.count_append,List.count_append,
          List.count_cons_of_ne (by simp)]
      · obtain ⟨hc,hnot⟩ := hentry.holds (c := c) (Or.inr (by rw [hisr]; rfl))
        rw [← h.drop (h.refCnt_pos hentry hc hnot) (List.ne_nil_of_mem hc) hrefCnt hcpus event,
          List.count_append,List.count_append,List.count_cons_of_ne (by simp)]
  · intro t event hevent
    rw [List.mem_append]
    rintro (hmem | hmem)
    · rcases he.event_cases hevent with hold | ⟨hfree,_⟩
      · exact h.unreleased t event hold hmem
      · exact (h.released event hmem).2 hfree
    · obtain ⟨u,hpc,hpc',_⟩ := hreleased event hmem
      rw [hpc'] at hevent
      by_cases hu : t = u
      · rw [hu,Function.update_self] at hevent
        cases hevent
      · rw [Function.update_of_ne hu] at hevent
        exact hu (hentry.owner t u event hevent (by rw [hpc]; rfl))
  · intro event
    rw [List.count_append]
    by_cases hmem : .released event ∈ obs
    · obtain ⟨t,hpc,_,_,_,hone⟩ := hreleased event hmem
      rw [hone,List.count_eq_zero.mpr (h.unreleased t event (by rw [hpc]; rfl))]
    · rw [List.count_eq_zero.mpr hmem]
      exact h.releasedOnce event
  · intro event hmem
    rcases List.mem_append.mp hmem with hold | hnew
    · obtain ⟨hsignal,hallocated⟩ := h.released event hold
      rw [(he.kept hallocated).1,(he.kept hallocated).2]
      exact ⟨hsignal,hallocated⟩
    · obtain ⟨t,hpc,_,hcpus,hsignal,_⟩ := hreleased event hnew
      rw [hcpus,hsignal]
      exact ⟨h.waiting t event (Or.inr hpc),hentry.allocated t event (by rw [hpc]; rfl)⟩
  · intro t event hpc
    rcases he.waiting_cases hpc with hold | ⟨request,apicId,cpus,self,hold,hwait⟩
    · have hallocated := hentry.allocated t event (by rcases hold with hold | hold <;> rw [hold] <;> rfl)
      rw [(he.kept hallocated).2]
      exact h.waiting t event hold
    · obtain ⟨_,hsignal,_⟩ := hentry.inserting t _ _ _ _ _ _ hold
      rw [(he.kept (hentry.allocated t event (by rw [hold]; rfl))).2,hsignal,hwait]

/-- The handler is about to signal the event. -/
def SmpState.Signals (s : SmpState Cpu Thread Event) (c : Cpu) (event : Event) : Prop :=
  s.isr c = .dereferenced event true 1

/-- The signal is given once, after the last handler, and the thread that waits goes on after it. -/
structure SignalInv (s : SmpState Cpu Thread Event) (record : List (SmpTrace Cpu Event)) : Prop where
  returned : ∀ c event, .dereferenced c event ∈ record → .returned c event ∈ record
  isrReturned : ∀ c event signalTermination, s.isr c = .returned event signalTermination →
    .returned c event ∈ record ∧ signalTermination = s.signalTermination event
  signaled : ∀ event, s.terminationEvent event = true → s.Handled record event
  woken : ∀ t event, s.pc t = .signaled event → s.Handled record event
  released : ∀ event, .released event ∈ record → s.Handled record event
  signals : ∀ c event, s.Signals c event → s.signalTermination event = true ∧
    s.Handled record event ∧ s.terminationEvent event = false ∧ (∀ t, s.pc t ≠ .signaled event) ∧
    .released event ∉ record ∧ ∀ c', s.Signals c' event → c' = c

theorem SmpState.Handled.mono (h : s.Handled record event) (he : SmpEffect smp s action obs s') :
    s'.Handled (record ++ obs) event := by
  rw [Handled,(he.kept h.1).1]
  exact ⟨h.1,fun c hc => List.mem_append_left _ (h.2 c hc)⟩

omit [DecidableEq Thread] [DecidableEq Event] in
theorem setIsr_isr {isr : IsrPc Event} {c' : Cpu} :
    (s.setIsr c isr).isr c' = if c' = c then isr else s.isr c' := by
  by_cases hc : c' = c
  · rw [if_pos hc,hc]
    exact Function.update_self _ _ _
  · rw [if_neg hc]
    exact Function.update_of_ne hc _ _

theorem SmpEffect.returned_cases (he : SmpEffect smp s action obs s') {signalTermination : Bool}
    (hisr : s'.isr c = .returned event signalTermination) :
    s.isr c = .returned event signalTermination ∨ s.isr c = .removed event ∧
      obs = [.returned c event] ∧ signalTermination = s.signalTermination event ∧
      s'.signalTermination = s.signalTermination := by
  cases he with
  | @call c' event' hold =>
    rw [setIsr_isr] at hisr
    split_ifs at hisr with hc
    · subst hc
      cases hisr
      exact Or.inr ⟨hold,rfl,rfl,rfl⟩
    · exact Or.inl hisr
  | interrupt =>
    simp only [setIsr_isr] at hisr
    split_ifs at hisr
    exact Or.inl hisr
  | remove =>
    simp only [setIsr_isr] at hisr
    split_ifs at hisr
    exact Or.inl hisr
  | dereference =>
    rw [setIsr_isr] at hisr
    split_ifs at hisr
    exact Or.inl hisr
  | signal =>
    simp only [setIsr_isr] at hisr
    split_ifs at hisr
    exact Or.inl hisr
  | finish _ _ hnew =>
    rw [setIsr_isr] at hisr
    split_ifs at hisr
    · rcases hnew with rfl | rfl <;> cases hisr
    · exact Or.inl hisr
  | _ => exact Or.inl hisr

theorem SmpEffect.signals_cases (he : SmpEffect smp s action obs s') (hsignals : s'.Signals c event) :
    s.Signals c event ∨ s.isr c = .returned event true ∧ s.refCnt event - 1 = 1 ∧
      obs = .dereferenced c event :: s.freedTrace event ∧ s'.terminationEvent = s.terminationEvent ∧
      s'.pc = s.pc ∧ (∀ c', c' ≠ c → s'.isr c' = s.isr c') ∧
      s'.refCnt = Function.update s.refCnt event (s.refCnt event - 1) := by
  unfold SmpState.Signals at *
  cases he with
  | @dereference c' event' signalTermination hold =>
    rw [setIsr_isr] at hsignals
    split_ifs at hsignals with hc
    · subst hc
      obtain ⟨rfl,rfl,hone⟩ := (IsrPc.dereferenced.injEq _ _ _ _ _ _ ▸ hsignals)
      refine Or.inr ⟨hold,hone,rfl,rfl,rfl,?_,rfl⟩
      intro c' hne
      exact Function.update_of_ne hne _ _
    · exact Or.inl hsignals
  | interrupt =>
    simp only [setIsr_isr] at hsignals
    split_ifs at hsignals
    exact Or.inl hsignals
  | remove =>
    simp only [setIsr_isr] at hsignals
    split_ifs at hsignals
    exact Or.inl hsignals
  | call =>
    rw [setIsr_isr] at hsignals
    split_ifs at hsignals
    exact Or.inl hsignals
  | signal =>
    simp only [setIsr_isr] at hsignals
    split_ifs at hsignals
    exact Or.inl hsignals
  | finish _ _ hnew =>
    rw [setIsr_isr] at hsignals
    split_ifs at hsignals
    · rcases hnew with rfl | rfl <;> cases hsignals
    · exact Or.inl hsignals
  | _ => exact Or.inl hsignals

theorem SmpEffect.terminationEvent_cases (he : SmpEffect smp s action obs s')
    (hsignaled : s'.terminationEvent event = true) : s.terminationEvent event = true ∨
      ∃ c, s.Signals c event ∧ ¬s'.Signals c event := by
  cases he with
  | @generate t request apicId cpus event' hpc hfree =>
    by_cases hevent : event = event'
    · subst hevent
      simp [SmpState.initEvent,SmpState.setPc] at hsignaled
    · left
      simpa [SmpState.initEvent,SmpState.setPc,Function.update_of_ne hevent] using hsignaled
  | @wake t event' hpc hold =>
    by_cases hevent : event = event'
    · subst hevent
      exact Or.inl hold
    · left
      simpa [Function.update_of_ne hevent] using hsignaled
  | @signal c event' hisr =>
    by_cases hevent : event = event'
    · subst hevent
      refine Or.inr ⟨c,hisr,?_⟩
      simp [SmpState.Signals,setIsr_isr]
    · left
      simpa [Function.update_of_ne hevent,SmpState.setIsr] using hsignaled
  | _ => exact Or.inl hsignaled

theorem SmpEffect.signaled_cases (he : SmpEffect smp s action obs s')
    (hpc : s'.pc t = .signaled event) : s.pc t = .signaled event ∨
      s.pc t = .waiting event ∧ s.terminationEvent event = true := by
  have hmove : ∀ u pc, pc ≠ .signaled event → s'.pc = Function.update s.pc u pc →
      s.pc t = .signaled event := by
    intro u pc hne hupdate
    rw [hupdate] at hpc
    by_cases hu : t = u
    · rw [hu,Function.update_self] at hpc
      exact absurd hpc hne
    · rwa [Function.update_of_ne hu] at hpc
  cases he with
  | outside _ hnew _ =>
    refine Or.inl (hmove _ _ ?_ rfl)
    rintro rfl
    cases hnew
  | generate => exact Or.inl (hmove _ _ (by simp) rfl)
  | insert => exact Or.inl (hmove _ _ (by simp) rfl)
  | send => exact Or.inl (hmove _ _ (by split <;> simp) rfl)
  | @wake u event' hold hsignaled =>
    simp only [setPc_pc] at hpc
    split_ifs at hpc with hu
    · subst hu
      cases hpc
      exact Or.inr ⟨hold,hsignaled⟩
    · exact Or.inl hpc
  | release => exact Or.inl (hmove _ _ (by simp) rfl)
  | _ => exact Or.inl hpc

theorem SmpEffect.released_cases (he : SmpEffect smp s action obs s')
    (hmem : .released event ∈ obs) : ∃ t, s.pc t = .signaled event := by
  rcases he.refCnt_cases with ⟨_,_,_,hobs⟩ | ⟨_,_,_,_,_,_,_,rfl,_⟩ |
    ⟨event',_,_,_,⟨t,hpc,_,rfl⟩ | ⟨c,_,_,_,rfl⟩⟩
  · exact absurd hmem (hobs event).2.1
  · cases hmem
  · rcases List.mem_cons.mp hmem with heq | hmem
    · cases heq
      exact ⟨t,hpc⟩
    · exact absurd hmem (not_mem_freedTrace (by simp))
  · rcases List.mem_cons.mp hmem with heq | hmem
    · cases heq
    · exact absurd hmem (not_mem_freedTrace (by simp))

omit [DecidableEq Thread] in
/-- A handler that still has its reference is not done. -/
private theorem EntryInv.not_handled (hentry : EntryInv s record) {signalTermination : Bool}
    (hisr : s.isr c = .returned event signalTermination) : ¬s.Handled record event := by
  intro hhandled
  obtain ⟨hc,hnot⟩ := hentry.holds (c := c) (Or.inr (by rw [hisr]; rfl))
  exact hnot (hhandled.2 c hc)

private theorem SignalInv.dereferenced_returned (h : SignalInv s record)
    (he : SmpEffect smp s action obs s') (hmem : .dereferenced c event ∈ record ++ obs) :
    .returned c event ∈ record ++ obs := by
  rcases List.mem_append.mp hmem with hold | hnew
  · exact List.mem_append_left _ (h.returned c event hold)
  · rcases he.refCnt_cases with ⟨_,_,_,hobs⟩ | ⟨_,_,_,_,_,_,_,rfl,_⟩ |
      ⟨event',_,_,_,⟨t,_,_,rfl⟩ | ⟨c',_,hisr,_,rfl⟩⟩
    · have hdropped := mem_droppedBy.mpr hnew
      rw [(hobs event).1] at hdropped
      cases hdropped
    · cases hnew
    · rcases List.mem_cons.mp hnew with heq | hnew
      · cases heq
      · exact absurd hnew (not_mem_freedTrace (by simp))
    · rcases List.mem_cons.mp hnew with heq | hnew
      · cases heq
        exact List.mem_append_left _ (h.isrReturned _ _ _ hisr).1
      · exact absurd hnew (not_mem_freedTrace (by simp))

private theorem SignalInv.signals_before (h : SignalInv s record) (hentry : EntryInv s record)
    (he : SmpEffect smp s action obs s') (hold : s.Signals c event) (hsignals : s'.Signals c event) :
    s'.signalTermination event = true ∧ s'.Handled (record ++ obs) event ∧
      s'.terminationEvent event = false ∧ (∀ t, s'.pc t ≠ .signaled event) ∧
        .released event ∉ record ++ obs ∧ ∀ c', s'.Signals c' event → c' = c := by
  obtain ⟨hsignal,hhandled,hfalse,hasleep,hunreleased,hunique⟩ := h.signals c event hold
  refine ⟨by rw [(he.kept hhandled.1).2,hsignal],hhandled.mono he,?_,?_,?_,?_⟩
  · by_contra htrue
    rcases he.terminationEvent_cases (Bool.not_eq_false _ ▸ htrue) with htrue | ⟨c',hc',hgone⟩
    · rw [hfalse] at htrue
      cases htrue
    · rw [hunique c' hc'] at hgone
      exact hgone hsignals
  · intro t hpc
    rcases he.signaled_cases hpc with hpc | ⟨_,htrue⟩
    · exact hasleep t hpc
    · rw [hfalse] at htrue
      cases htrue
  · rw [List.mem_append]
    rintro (hmem | hmem)
    · exact hunreleased hmem
    · obtain ⟨t,hpc⟩ := he.released_cases hmem
      exact hasleep t hpc
  · intro c' hsignals'
    rcases he.signals_cases hsignals' with hold' | ⟨hisr',_⟩
    · exact hunique c' hold'
    · exact absurd hhandled (hentry.not_handled hisr')

private theorem SignalInv.signals_last (h : SignalInv s record) (hentry : EntryInv s record)
    (hcount : CountInv s record) (hwell : ∀ t, (s.pc t).WellFormed smp)
    (he : SmpEffect smp s action obs s') (hisr : s.isr c = .returned event true)
    (hone : s.refCnt event - 1 = 1) (htermination : s'.terminationEvent = s.terminationEvent)
    (hpc : s'.pc = s.pc) (hother : ∀ c', c' ≠ c → s'.isr c' = s.isr c')
    (hrefCnt : s'.refCnt = Function.update s.refCnt event (s.refCnt event - 1)) :
    s'.signalTermination event = true ∧ s'.Handled (record ++ obs) event ∧
      s'.terminationEvent event = false ∧ (∀ t, s'.pc t ≠ .signaled event) ∧
        .released event ∉ record ++ obs ∧ ∀ c', s'.Signals c' event → c' = c := by
  have hnot := hentry.not_handled hisr
  have hunreleased : .released event ∉ record ++ obs := by
    rw [List.mem_append]
    rintro (hmem | hmem)
    · exact hnot (h.released event hmem)
    · obtain ⟨t,hpc⟩ := he.released_cases hmem
      exact hnot (h.woken t event hpc)
  have hallocated := List.ne_nil_of_mem (hentry.holds (c := c) (Or.inr (by rw [hisr]; rfl))).1
  have hsignal := (h.isrReturned _ _ _ hisr).2
  have hnext := hentry.step hwell he
  refine ⟨by rw [(he.kept hallocated).2,← hsignal],?_,?_,?_,hunreleased,?_⟩
  · -- the count of references says that no other handler has one
    have hrefs := hcount.refs_step hentry he hwell event
    rw [hrefCnt,Function.update_self,hone,List.count_eq_zero.mpr hunreleased,(he.kept hallocated).2,
      ← hsignal,if_pos rfl] at hrefs
    refine hnext.handled_of_length ?_ (by omega)
    rw [(he.kept hallocated).1]
    exact hallocated
  · rw [htermination]
    by_contra htrue
    exact hnot (h.signaled event (Bool.not_eq_false _ ▸ htrue))
  · intro t ht
    rw [hpc] at ht
    exact hnot (h.woken t event ht)
  · intro c' hsignals'
    by_contra hne
    rw [SmpState.Signals,hother c' hne] at hsignals'
    exact hnot (h.signals c' event hsignals').2.1

theorem SignalInv.step (h : SignalInv s record) (hentry : EntryInv s record)
    (hcount : CountInv s record) (hwell : ∀ t, (s.pc t).WellFormed smp)
    (he : SmpEffect smp s action obs s') : SignalInv s' (record ++ obs) := by
  refine ⟨fun c event => h.dereferenced_returned he,?_,?_,?_,?_,?_⟩
  · intro c event signalTermination hisr
    rcases he.returned_cases hisr with hold | ⟨hold,rfl,hsignal,hkept⟩
    · obtain ⟨hmem,hsignal⟩ := h.isrReturned _ _ _ hold
      obtain ⟨hc,_⟩ := hentry.holds (c := c) (Or.inr (by rw [hold]; rfl))
      exact ⟨List.mem_append_left _ hmem,by rw [(he.kept (List.ne_nil_of_mem hc)).2,hsignal]⟩
    · rw [hkept]
      exact ⟨by simp,hsignal⟩
  · intro event hsignaled
    rcases he.terminationEvent_cases hsignaled with hold | ⟨c,hsignals,_⟩
    · exact (h.signaled event hold).mono he
    · exact (h.signals c event hsignals).2.1.mono he
  · intro t event hpc
    rcases he.signaled_cases hpc with hold | ⟨_,hsignaled⟩
    · exact (h.woken t event hold).mono he
    · exact (h.signaled event hsignaled).mono he
  · intro event hmem
    rcases List.mem_append.mp hmem with hold | hnew
    · exact (h.released event hold).mono he
    · obtain ⟨t,hpc⟩ := he.released_cases hnew
      exact (h.woken t event hpc).mono he
  · intro c event hsignals
    rcases he.signals_cases hsignals with hold | ⟨hisr,hone,_,htermination,hpc,hother,hrefCnt⟩
    · exact h.signals_before hentry he hold hsignals
    · exact h.signals_last hentry hcount hwell he hisr hone htermination hpc hother hrefCnt

structure IpcInv (p : SmpState Cpu Thread Event × List (SmpTrace Cpu Event)) : Prop where
  entry : EntryInv p.1 p.2
  count : CountInv p.1 p.2
  signal : SignalInv p.1 p.2

omit [DecidableEq Thread] in
theorem IpcInv.init (h : s.Initial) : IpcInv (s,[]) := by
  have hpc : ∀ t event, (s.pc t).event ≠ some event := by
    intro t event
    rw [h.pc t]
    nofun
  have hplace : ∀ c event, 0 = (s.eventList c).count event +
      (s.isr c).handling.toList.count event := by
    intro c event
    rw [h.eventList c,h.isr c]
    rfl
  refine ⟨⟨?_,?_,?_,?_,?_,nofun,hplace⟩,⟨?_,?_,?_,?_,nofun,?_⟩,⟨nofun,?_,?_,?_,nofun,?_⟩⟩
  · intro event
    rw [h.cpuEvents event]
    exact List.nodup_nil
  · exact fun t event hevent => absurd hevent (hpc t event)
  · exact fun t _ event hevent => absurd hevent (hpc t event)
  · intro t request apicId cpus event left self heq
    rw [h.pc t] at heq
    cases heq
  · exact fun c event => Nat.zero_le _
  · intro event
    rw [h.refCnt event,h.cpuEvents event,h.signalTermination event]
    rfl
  · intro event
    rw [if_neg (fun heq => heq.1 (h.cpuEvents event))]
    rfl
  · exact fun t event hevent => absurd hevent (hpc t event)
  · exact fun event => Nat.zero_le _
  · intro t event heq
    rw [h.pc t] at heq
    rcases heq with heq | heq <;> cases heq
  · intro c event signalTermination heq
    rw [h.isr c] at heq
    cases heq
  · intro event heq
    rw [h.terminationEvent event] at heq
    cases heq
  · intro t event heq
    rw [h.pc t] at heq
    cases heq
  · intro c event heq
    rw [SmpState.Signals,h.isr c] at heq
    cases heq

theorem ipcInv_of_reachable {p : SmpState Cpu Thread Event × List (SmpTrace Cpu Event)}
    (h : ((smpSystem smp).recording (smpTrace smp)).Reachable p) : IpcInv p := by
  apply h.invariant
  · rintro ⟨s,record⟩ ⟨hinit,hempty⟩
    obtain rfl : record = [] := hempty
    exact IpcInv.init hinit
  · rintro ⟨s,record⟩ action ⟨s',record'⟩ hreach hinv _ hs
    obtain ⟨hs,rfl⟩ := TransitionSystem.recording_step.mp hs
    have hwell := wellFormed_of_reachable (TransitionSystem.Reachable.of_recording hreach)
    have he := smpStep_cases hs
    exact ⟨hinv.entry.step hwell he,hinv.count.step hinv.entry he hwell,
      hinv.signal.step hinv.entry hinv.count hwell he⟩

end IpcEvent

end Hal9000
