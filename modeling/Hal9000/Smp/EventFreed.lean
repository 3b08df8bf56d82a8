import Hal9000.Smp.Delivery

/-!
# The end of an IPC event

Nothing holds up a handler that has come to its event. The event is freed when the last reference to
it is gone, and nothing uses it after that.
-/

namespace Hal9000

section EventFreed

variable {Cpu Thread Event : Type} [DecidableEq Cpu] [DecidableEq Thread] [DecidableEq Event]

/-- The events that a step reads or writes; the entries of a list are linked through each other. -/
def smpAccesses (s : SmpState Cpu Thread Event) : SmpAction Cpu Thread Event → List Event
  | .run t =>
    match s.pc t with
    | .inserting _ _ _ event (c :: _) _ => event :: s.eventList c
    | .waiting event | .signaled event => [event]
    | _ => []
  | .handle c =>
    match s.isr c with
    | .entered => s.eventList c
    | .removed event | .returned event _ => [event]
    | .dereferenced event signalTermination newRefCount =>
      if signalTermination ∧ newRefCount = 1 then [event] else []
    | _ => []
  | .ipcGenerateEvent _ event => event.toList
  | _ => []

variable {smp : SmpData Cpu} {s s' : SmpState Cpu Thread Event} {action : SmpAction Cpu Thread Event}
  {record obs : List (SmpTrace Cpu Event)} {event : Event} {c : Cpu} {t : Thread} {n : Nat}

/-- The steps in which a handler drops its reference to an event, counted from the removal of its
entry. -/
inductive HandlerLeft (s : SmpState Cpu Thread Event) (c : Cpu) (event : Event) : Nat → Prop
  | entered {rest : List Event} (hisr : s.isr c = .entered) (hlist : s.eventList c = event :: rest) :
      HandlerLeft s c event 3
  | removed (hisr : s.isr c = .removed event) : HandlerLeft s c event 2
  | returned {signalTermination : Bool} (hisr : s.isr c = .returned event signalTermination) :
      HandlerLeft s c event 1

omit [DecidableEq Cpu] [DecidableEq Thread] [DecidableEq Event] in
theorem HandlerLeft.isr_ne (h : HandlerLeft s c event n) : s.isr c ≠ .none := by
  cases h with
  | entered hisr _ => simp [hisr]
  | removed hisr => simp [hisr]
  | returned hisr => simp [hisr]

theorem HandlerLeft.enabled (h : HandlerLeft s c event n)
    (hnumber : s.noOfEventsInList c = (s.eventList c).length) :
    ∃ s', smpStep smp s (.handle c) = some s' := by
  cases h with
  | entered hisr hlist =>
    have hsome : s.noOfEventsInList c > 0 := by simp [hnumber,hlist]
    have hassert : assert (decide (s.noOfEventsInList c > 0)) = some () :=
      assert_eq_some.mpr (decide_eq_true hsome)
    exact ⟨_,by simp only [smpStep,isrRun,hisr,hlist,hassert]; rfl⟩
  | removed hisr => exact ⟨_,by simp only [smpStep,isrRun,hisr]; rfl⟩
  | returned hisr => exact ⟨_,by simp only [smpStep,isrRun,hisr]; rfl⟩

theorem SmpEffect.isr_kept (he : SmpEffect smp s action obs s') (hother : action ≠ .handle c)
    (hisr : s.isr c ≠ .none) : s'.isr c = s.isr c := by
  have hne : ∀ c', SmpAction.handle c' ≠ (.handle c : SmpAction Cpu Thread Event) → c ≠ c' := by
    rintro c' h rfl
    exact h rfl
  cases he with
  | @interrupt c' _ hnone =>
    apply Function.update_of_ne
    rintro rfl
    exact hisr hnone
  | remove | call | dereference | signal | finish =>
    exact Function.update_of_ne (hne _ hother) _ _
  | _ => rfl

theorem SmpEffect.head_kept (he : SmpEffect smp s action obs s') (hother : action ≠ .handle c)
    {rest : List Event} (hlist : s.eventList c = event :: rest) :
    ∃ rest', s'.eventList c = event :: rest' := by
  cases he with
  | @insert _ _ _ _ _ event' c' _ _ =>
    by_cases hc : c = c'
    · refine ⟨rest ++ [event'],?_⟩
      subst hc
      simp [SmpState.insertEvent,SmpState.setPc,hlist]
    · exact ⟨rest,by simp [SmpState.insertEvent,SmpState.setPc,hc,hlist]⟩
  | @remove c' _ _ _ _ =>
    have hc : c ≠ c' := by
      rintro rfl
      exact hother rfl
    exact ⟨rest,by simp [hc,hlist]⟩
  | _ => exact ⟨rest,hlist⟩

theorem HandlerLeft.kept (h : HandlerLeft s c event n) (he : SmpEffect smp s action obs s')
    (hother : action ≠ .handle c) : HandlerLeft s' c event n := by
  have hsame := he.isr_kept hother h.isr_ne
  cases h with
  | entered hisr hlist =>
    obtain ⟨rest',hlist'⟩ := he.head_kept hother hlist
    exact .entered (hsame.trans hisr) hlist'
  | removed hisr => exact .removed (hsame.trans hisr)
  | returned hisr => exact .returned (hsame.trans hisr)

theorem HandlerLeft.next (h : HandlerLeft s c event (n + 1))
    (hs : smpStep smp s (.handle c) = some s') :
    .dereferenced c event ∈ smpTrace smp s (.handle c) ∨ HandlerLeft s' c event n := by
  cases h with
  | entered hisr hlist =>
    simp only [smpStep,isrRun,hisr,hlist] at hs
    obtain ⟨_,_,hs⟩ := Option.bind_eq_some_iff.mp hs
    obtain rfl := Option.some.inj hs
    exact Or.inr (.removed (Function.update_self _ _ _))
  | removed hisr =>
    simp only [smpStep,isrRun,hisr] at hs
    obtain rfl := Option.some.inj hs
    exact Or.inr (.returned (Function.update_self _ _ _))
  | returned hisr =>
    left
    simp [smpTrace,hisr]

/-- Whatever is done in between, a handler that has come to an event drops its reference within that
many steps of its own. -/
theorem HandlerLeft.run (h : HandlerLeft s c event n) {actions : List (SmpAction Cpu Thread Event)}
    {p : SmpState Cpu Thread Event × List (SmpTrace Cpu Event)}
    (hrun : ((smpSystem smp).recording (smpTrace smp)).run (s,record) actions = some p)
    (hcount : n ≤ actions.count (.handle c)) : .dereferenced c event ∈ p.2 := by
  induction actions generalizing s record n with
  | nil => cases h <;> simp at hcount
  | cons action actions ih =>
    obtain ⟨⟨s₁,record₁⟩,hs,hrest⟩ := Option.bind_eq_some_iff.mp hrun
    obtain ⟨hstep,hrecord⟩ := TransitionSystem.recording_step.mp hs
    by_cases haction : action = .handle c
    · subst haction
      rw [List.count_cons_self] at hcount
      cases n with
      | zero => cases h
      | succ n =>
        rcases h.next hstep with hdropped | hleft
        · apply (TransitionSystem.recording_run_prefix hrest).subset
          rw [hrecord]
          exact List.mem_append_right _ hdropped
        · exact ih hleft hrest (by omega)
    · rw [List.count_cons_of_ne haction] at hcount
      exact ih (h.kept (smpStep_cases hstep) haction) hrest hcount

theorem number_of_reachable (h : (smpSystem smp).Reachable s) (c : Cpu) :
    s.noOfEventsInList c = (s.eventList c).length := by
  induction h with
  | init hinit => rw [hinit.noOfEventsInList c,hinit.eventList c]; rfl
  | step _ _ hs ih =>
    rcases (smpStep_cases hs).eventList_cases c with ⟨event,hlist,hnumber,_⟩ |
      ⟨event,hlist,hnumber,_⟩ | ⟨hlist,hnumber,_⟩
    · rw [hnumber,hlist,ih,List.length_append,List.length_singleton]
    · rw [hnumber,ih,hlist,List.length_cons,Nat.add_sub_cancel]
    · rw [hnumber,hlist,ih]

theorem SmpEffect.inserting_next (he : SmpEffect smp s action obs s') {request : IpiRequest}
    {apicId : BitVec 8} {cpus left : List Cpu} {self : Bool}
    (hpc : s.pc t = .inserting request apicId cpus event left self) :
    (∃ left' self', s'.pc t = .inserting request apicId cpus event left' self' ∧
      ∀ c ∈ left, c ∈ left' ∨ .queued c event ∈ obs) ∨
    left = [] ∧ s'.pc t = if request.waitForHandling then .waiting event else .idle := by
  have hstay : s'.pc t = s.pc t → ∃ left' self',
      s'.pc t = .inserting request apicId cpus event left' self' ∧
        ∀ c ∈ left, c ∈ left' ∨ .queued c event ∈ obs :=
    fun hsame => ⟨left,self,hsame.trans hpc,fun _ hc => Or.inl hc⟩
  have hother : ∀ u pc, s.pc u ≠ s.pc t → s'.pc = Function.update s.pc u pc →
      s'.pc t = s.pc t := by
    intro u pc hne hupdate
    rw [hupdate]
    apply Function.update_of_ne
    rintro rfl
    exact hne rfl
  cases he with
  | outside hold _ _ =>
    refine Or.inl (hstay (hother _ _ ?_ rfl))
    intro hsame
    rw [hsame,hpc] at hold
    cases hold
  | generate hold _ => exact Or.inl (hstay (hother _ _ (by rw [hold,hpc]; simp) rfl))
  | @insert u request' apicId' cpus' left' event' c' self' hold =>
    by_cases hu : t = u
    · subst hu
      rw [hpc] at hold
      cases hold
      refine Or.inl ⟨left',_,Function.update_self _ _ _,?_⟩
      intro c hc
      rcases List.mem_cons.mp hc with rfl | hc
      · exact Or.inr (List.mem_singleton.mpr rfl)
      · exact Or.inl hc
    · exact Or.inl (hstay (Function.update_of_ne hu _ _))
  | @send u request' apicId' cpus' event' self' hold =>
    by_cases hu : t = u
    · subst hu
      rw [hpc] at hold
      cases hold
      exact Or.inr ⟨rfl,Function.update_self _ _ _⟩
    · exact Or.inl (hstay (Function.update_of_ne hu _ _))
  | wake hold _ => exact Or.inl (hstay (hother _ _ (by rw [hold,hpc]; simp) rfl))
  | release hold => exact Or.inl (hstay (hother _ _ (by rw [hold,hpc]; simp) rfl))
  | _ => exact Or.inl (hstay rfl)

theorem SmpEffect.waiting_next (he : SmpEffect smp s action obs s')
    (hpc : s.pc t = .waiting event ∨ s.pc t = .signaled event) :
    s'.pc t = .signaled event ∨ s'.pc t = s.pc t ∨ .released event ∈ obs := by
  have hother : ∀ u pc, s.pc u ≠ s.pc t → s'.pc = Function.update s.pc u pc →
      s'.pc t = s.pc t := by
    intro u pc hne hupdate
    rw [hupdate]
    apply Function.update_of_ne
    rintro rfl
    exact hne rfl
  have hevent : (s.pc t).event = some event := by
    rcases hpc with hpc | hpc <;> rw [hpc] <;> rfl
  cases he with
  | outside hold _ _ =>
    refine Or.inr (Or.inl (hother _ _ ?_ rfl))
    intro hsame
    rw [hsame,hevent] at hold
    cases hold
  | generate hold _ =>
    refine Or.inr (Or.inl (hother _ _ ?_ rfl))
    rcases hpc with hpc | hpc <;> rw [hold,hpc] <;> simp
  | insert hold =>
    refine Or.inr (Or.inl (hother _ _ ?_ rfl))
    rcases hpc with hpc | hpc <;> rw [hold,hpc] <;> simp
  | send hold =>
    refine Or.inr (Or.inl (hother _ _ ?_ rfl))
    rcases hpc with hpc | hpc <;> rw [hold,hpc] <;> simp
  | @wake u event' hold _ =>
    by_cases hu : t = u
    · subst hu
      rw [hold] at hevent
      cases hevent
      exact Or.inl (Function.update_self _ _ _)
    · exact Or.inr (Or.inl (Function.update_of_ne hu _ _))
  | @release u event' hold =>
    by_cases hu : t = u
    · subst hu
      rw [hold] at hevent
      cases hevent
      exact Or.inr (Or.inr List.mem_cons_self)
    · exact Or.inr (Or.inl (Function.update_of_ne hu _ _))
  | _ => exact Or.inr (Or.inl rfl)

theorem SmpEffect.dereferenced_cases (he : SmpEffect smp s action obs s')
    (hmem : .dereferenced c event ∈ obs) : ∃ signalTermination,
      s.isr c = .returned event signalTermination ∧
      s'.isr c = .dereferenced event signalTermination (s.refCnt event - 1) ∧
      s'.refCnt event = s.refCnt event - 1 := by
  cases he with
  | send => exact absurd hmem (not_mem_sent (by simp))
  | release =>
    rcases List.mem_cons.mp hmem with heq | hmem
    · cases heq
    · exact absurd hmem (not_mem_freedTrace (by simp))
  | @dereference c' event' signalTermination hisr =>
    rcases List.mem_cons.mp hmem with heq | hmem
    · cases heq
      exact ⟨signalTermination,hisr,Function.update_self _ _ _,Function.update_self _ _ _⟩
    · exact absurd hmem (not_mem_freedTrace (by simp))
  | _ => simp at hmem

/-- Every reference is somewhere until it is dropped, and the signal of the last handler is on its
way until the thread that waits has dropped the last one. -/
structure HolderInv (s : SmpState Cpu Thread Event) (record : List (SmpTrace Cpu Event)) : Prop where
  queues : ∀ event, ∀ c ∈ s.cpuEvents event, .queued c event ∈ record ∨
    ∃ t request apicId cpus left self,
      s.pc t = .inserting request apicId cpus event left self ∧ c ∈ left
  waits : ∀ event, s.cpuEvents event ≠ [] → s.signalTermination event = true →
    .released event ∈ record ∨ ∃ t, (s.pc t).event = some event
  wakes : ∀ event, s.signalTermination event = true → s.Handled record event →
    (∃ c, s.Signals c event) ∨ s.terminationEvent event = true ∨
      (∃ t, s.pc t = .signaled event) ∨ .released event ∈ record

theorem HolderInv.queues_step (h : HolderInv s record) (he : SmpEffect smp s action obs s') :
    ∀ event, ∀ c ∈ s'.cpuEvents event, .queued c event ∈ record ++ obs ∨
      ∃ t request apicId cpus left self,
        s'.pc t = .inserting request apicId cpus event left self ∧ c ∈ left := by
  have hold : ∀ event, ∀ c ∈ s.cpuEvents event, .queued c event ∈ record ++ obs ∨
      ∃ t request apicId cpus left self,
        s'.pc t = .inserting request apicId cpus event left self ∧ c ∈ left := by
    intro event c hc
    rcases h.queues event c hc with hqueued | ⟨t,request,apicId,cpus,left,self,hpc,hleft⟩
    · exact Or.inl (List.mem_append_left _ hqueued)
    · rcases he.inserting_next hpc with ⟨left',self',hpc',hnext⟩ | ⟨hnone,_⟩
      · rcases hnext c hleft with hleft' | hqueued
        · exact Or.inr ⟨t,request,apicId,cpus,left',self',hpc',hleft'⟩
        · exact Or.inl (List.mem_append_right _ hqueued)
      · rw [hnone] at hleft
        cases hleft
  rcases he.cpuEvents_cases with ⟨hcpus,_⟩ | ⟨t,request,apicId,cpus,event',_,_,_,rfl⟩
  · rw [hcpus]
    exact hold
  · intro event c hc
    by_cases hevent : event = event'
    · subst hevent
      have hcpus : ((s.initEvent event cpus request.waitForHandling).setPc t
          (.inserting request apicId cpus event cpus false)).cpuEvents event = cpus :=
        Function.update_self _ _ _
      rw [hcpus] at hc
      exact Or.inr ⟨t,request,apicId,cpus,cpus,false,Function.update_self _ _ _,hc⟩
    · have hcpus : ((s.initEvent event' cpus request.waitForHandling).setPc t
          (.inserting request apicId cpus event' cpus false)).cpuEvents event =
            s.cpuEvents event := Function.update_of_ne hevent _ _
      rw [hcpus] at hc
      exact hold event c hc

theorem HolderInv.waits_step (h : HolderInv s record) (hentry : EntryInv s record)
    (he : SmpEffect smp s action obs s') : ∀ event, s'.cpuEvents event ≠ [] →
    s'.signalTermination event = true →
      .released event ∈ record ++ obs ∨ ∃ t, (s'.pc t).event = some event := by
  have hold : ∀ event, s.cpuEvents event ≠ [] → s.signalTermination event = true →
      .released event ∈ record ++ obs ∨ ∃ t, (s'.pc t).event = some event := by
    intro event hallocated hsignal
    rcases h.waits event hallocated hsignal with hreleased | ⟨t,hevent⟩
    · exact Or.inl (List.mem_append_left _ hreleased)
    · cases hpc : s.pc t with
      | inserting request apicId cpus event' left self =>
        rw [hpc] at hevent
        obtain rfl := Option.some.inj hevent
        rcases he.inserting_next hpc with ⟨left',self',hpc',_⟩ | ⟨_,hpc'⟩
        · exact Or.inr ⟨t,by rw [hpc']; rfl⟩
        · have hwait := (hentry.inserting t _ _ _ _ _ _ hpc).2.1
          rw [hsignal] at hwait
          rw [← hwait,if_pos rfl] at hpc'
          exact Or.inr ⟨t,by rw [hpc']; rfl⟩
      | waiting event' | signaled event' =>
        rw [hpc] at hevent
        obtain rfl := Option.some.inj hevent
        have hwaits : s.pc t = .waiting event' ∨ s.pc t = .signaled event' := by simp [hpc]
        rcases he.waiting_next hwaits with hpc' | hpc' | hreleased
        · exact Or.inr ⟨t,by rw [hpc']; rfl⟩
        · exact Or.inr ⟨t,by rw [hpc',hpc]; rfl⟩
        · exact Or.inl (List.mem_append_right _ hreleased)
      | _ =>
        rw [hpc] at hevent
        cases hevent
  rcases he.cpuEvents_cases with ⟨hcpus,hsignal⟩ | ⟨t,request,apicId,cpus,event',_,_,_,rfl⟩
  · rw [hcpus,hsignal]
    exact hold
  · intro event hallocated hsignal
    by_cases hevent : event = event'
    · subst hevent
      exact Or.inr ⟨t,by simp [SmpState.setPc,SenderPc.event]⟩
    · simp only [SmpState.setPc,SmpState.initEvent,Function.update_of_ne hevent]
        at hallocated hsignal
      exact hold event hallocated hsignal

theorem SmpEffect.terminationEvent_next (he : SmpEffect smp s action obs s')
    (hallocated : s.cpuEvents event ≠ []) (hsignaled : s.terminationEvent event = true) :
    s'.terminationEvent event = true ∨ ∃ t, s'.pc t = .signaled event := by
  cases he with
  | @generate t request apicId cpus event' _ hfree =>
    have hne : event ≠ event' := by
      rintro rfl
      exact hallocated hfree
    left
    simpa [SmpState.setPc,SmpState.initEvent,Function.update_of_ne hne] using hsignaled
  | @wake t event' _ _ =>
    by_cases hevent : event = event'
    · subst hevent
      exact Or.inr ⟨t,Function.update_self _ _ _⟩
    · left
      simpa [SmpState.setPc,Function.update_of_ne hevent] using hsignaled
  | @signal c event' _ =>
    left
    by_cases hevent : event = event'
    · subst hevent
      exact Function.update_self _ _ _
    · simpa [SmpState.setIsr,Function.update_of_ne hevent] using hsignaled
  | _ => exact Or.inl hsignaled

private theorem wakes_kept (he : SmpEffect smp s action obs s')
    (hallocated : s.cpuEvents event ≠ [])
    (h : (∃ c, s.Signals c event) ∨ s.terminationEvent event = true ∨
      (∃ t, s.pc t = .signaled event) ∨ .released event ∈ record) :
    (∃ c, s'.Signals c event) ∨ s'.terminationEvent event = true ∨
      (∃ t, s'.pc t = .signaled event) ∨ .released event ∈ record ++ obs := by
  rcases h with ⟨c,hsignals⟩ | hsignaled | ⟨t,hpc⟩ | hreleased
  · by_cases haction : action = .handle c
    · subst haction
      rw [SmpState.Signals] at hsignals
      cases he with
      | outside _ _ _ => exact Or.inl ⟨c,hsignals⟩
      | remove hisr _ | call hisr | dereference hisr => simp [hsignals] at hisr
      | @signal _ event' hisr =>
        rw [hsignals] at hisr
        cases hisr
        exact Or.inr (Or.inl (Function.update_self _ _ _))
      | finish _ _ _ hlast => exact absurd hsignals (hlast event)
    · left
      refine ⟨c,?_⟩
      rw [SmpState.Signals,he.isr_kept haction (by rw [hsignals]; simp)]
      exact hsignals
  · rcases he.terminationEvent_next hallocated hsignaled with hsignaled' | hwoken
    · exact Or.inr (Or.inl hsignaled')
    · exact Or.inr (Or.inr (Or.inl hwoken))
  · rcases he.waiting_next (Or.inr hpc) with hpc' | hpc' | hreleased
    · exact Or.inr (Or.inr (Or.inl ⟨t,hpc'⟩))
    · exact Or.inr (Or.inr (Or.inl ⟨t,hpc'.trans hpc⟩))
    · exact Or.inr (Or.inr (Or.inr (List.mem_append_right _ hreleased)))
  · exact Or.inr (Or.inr (Or.inr (List.mem_append_left _ hreleased)))

theorem HolderInv.wakes_step (h : HolderInv s record) (hinv : IpcInv (s,record))
    (hwell : ∀ t, (s.pc t).WellFormed smp) (he : SmpEffect smp s action obs s') :
    ∀ event, s'.signalTermination event = true → s'.Handled (record ++ obs) event →
      (∃ c, s'.Signals c event) ∨ s'.terminationEvent event = true ∨
        (∃ t, s'.pc t = .signaled event) ∨ .released event ∈ record ++ obs := by
  have hentry : EntryInv s record := hinv.entry
  have hsignalInv : SignalInv s record := hinv.signal
  intro event hsignal hhandled
  by_cases hallocated : s.cpuEvents event = []
  · -- a new event has no entries yet
    obtain ⟨c,hc⟩ := List.exists_mem_of_ne_nil _ hhandled.1
    have hentries : c ∈ s.cpuEvents event := by
      rcases List.mem_append.mp (hhandled.2 c hc) with hdropped | hdrops
      · exact hentry.mem_of_dropped hdropped
      · obtain ⟨_,hisr,_⟩ := he.dereferenced_cases hdrops
        exact (hentry.holds (Or.inr (by rw [hisr]; rfl))).1
    rw [hallocated] at hentries
    cases hentries
  obtain ⟨hcpus,hsame⟩ := he.kept hallocated
  by_cases hold : s.Handled record event
  · rw [hsame] at hsignal
    exact wakes_kept he hallocated (h.wakes event hsignal hold)
  · obtain ⟨c,hc,hnot⟩ : ∃ c ∈ s.cpuEvents event, .dereferenced c event ∉ record := by
      by_contra hnone
      push Not at hnone
      exact hold ⟨hallocated,hnone⟩
    have hmem : .dereferenced c event ∈ obs := by
      have hdropped := hhandled.2 c (by rw [hcpus]; exact hc)
      exact (List.mem_append.mp hdropped).resolve_left hnot
    obtain ⟨signalTermination,hisr,hisr',hrefCnt⟩ := he.dereferenced_cases hmem
    have hunreleased : .released event ∉ record ++ obs := by
      rw [List.mem_append]
      rintro (hreleased | hreleases)
      · exact hold (hsignalInv.released event hreleased)
      · obtain ⟨t,hpc⟩ := he.released_cases hreleases
        exact hold (hsignalInv.woken t event hpc)
    have hrefs := hinv.count.refs_step hentry he hwell event
    rw [(hentry.step hwell he).droppedBy_length hhandled,hrefCnt,
      List.count_eq_zero.mpr hunreleased,if_pos hsignal] at hrefs
    have hlast : s.refCnt event - 1 = 1 := by omega
    have hwaits : signalTermination = true := by
      rw [(hsignalInv.isrReturned c event signalTermination hisr).2,← hsame,hsignal]
    left
    refine ⟨c,?_⟩
    rw [SmpState.Signals,hisr',hlast,hwaits]

omit [DecidableEq Cpu] [DecidableEq Thread] [DecidableEq Event] in
theorem HolderInv.init (h : s.Initial) : HolderInv s [] := by
  refine ⟨?_,?_,?_⟩
  · intro event c hc
    rw [h.cpuEvents event] at hc
    cases hc
  · intro event hallocated _
    exact absurd (h.cpuEvents event) hallocated
  · intro event hsignal _
    rw [h.signalTermination event] at hsignal
    cases hsignal

theorem holderInv_of_reachable {p : SmpState Cpu Thread Event × List (SmpTrace Cpu Event)}
    (h : ((smpSystem smp).recording (smpTrace smp)).Reachable p) : HolderInv p.1 p.2 := by
  apply h.invariant
  · rintro ⟨s,record⟩ ⟨hinit,hempty⟩
    obtain rfl : record = [] := hempty
    exact HolderInv.init hinit
  · rintro ⟨s,record⟩ action ⟨s',record'⟩ hreach hholder _ hs
    obtain ⟨hs,rfl⟩ := TransitionSystem.recording_step.mp hs
    have hwell := wellFormed_of_reachable (TransitionSystem.Reachable.of_recording hreach)
    have hinv := ipcInv_of_reachable hreach
    have he := smpStep_cases hs
    exact ⟨hholder.queues_step he,hholder.waits_step hinv.entry he,
      hholder.wakes_step hinv hwell he⟩

omit [DecidableEq Thread] in
theorem HolderInv.signaled_of_waiting (h : HolderInv s record) (hinv : IpcInv (s,record))
    (hpc : s.pc t = .waiting event) (hhandled : s.Handled record event)
    (hnone : ∀ c, ¬s.Signals c event) : s.terminationEvent event = true := by
  have hentry : EntryInv s record := hinv.entry
  have hevent : (s.pc t).event = some event := by
    rw [hpc]
    rfl
  rcases h.wakes event (hinv.count.waiting t event (Or.inl hpc)) hhandled with
    ⟨c,hsignals⟩ | hsignaled | ⟨t',hpc'⟩ | hreleased
  · exact absurd hsignals (hnone c)
  · exact hsignaled
  · obtain rfl := hentry.owner t t' event hevent (by rw [hpc']; rfl)
    rw [hpc] at hpc'
    cases hpc'
  · exact absurd hreleased (hinv.count.unreleased t event hevent)

theorem waiting_goes_on (hpc : s.pc t = .waiting event) (hsignal : s.signalTermination event = true)
    (hsignaled : s.terminationEvent event = true) (hisr : s.isr (s.cpu t) = .none) :
    ∃ s', smpStep smp s (.run t) = some s' ∧ s'.pc t = .signaled event := by
  have hassert : assert (s.signalTermination event) = some () := assert_eq_some.mpr hsignal
  refine ⟨{ s.setPc t (.signaled event) with
    terminationEvent := Function.update s.terminationEvent event false },?_,
    Function.update_self _ _ _⟩
  simp only [smpStep,hisr,senderRun,hpc,hassert,hsignaled,if_pos]
  rfl

theorem IpcInv.accesses (h : IpcInv (s,record)) (hs : smpStep smp s action = some s')
    (haccess : event ∈ smpAccesses s action) : 0 < s.refCnt event ∨ s.cpuEvents event = [] := by
  have hlist : ∀ c, event ∈ s.eventList c → 0 < s.refCnt event := by
    intro c hmem
    obtain ⟨hc,hnot⟩ := h.entry.holds (Or.inl hmem)
    exact h.count.refCnt_pos h.entry hc hnot
  have hhandling : ∀ c, (s.isr c).handling = some event → 0 < s.refCnt event := by
    intro c hisr
    obtain ⟨hc,hnot⟩ := h.entry.holds (Or.inr hisr)
    exact h.count.refCnt_pos h.entry hc hnot
  have hwaits : ∀ t, s.pc t = .waiting event ∨ s.pc t = .signaled event → 0 < s.refCnt event := by
    intro t hpc
    apply h.count.refCnt_pos_of_signaled h.entry (h.count.waiting t event hpc)
    apply h.count.unreleased t event
    rcases hpc with hpc | hpc <;> rw [hpc] <;> rfl
  cases action with
  | run t =>
    simp only [smpAccesses] at haccess
    split at haccess
    · rename_i request apicId cpus event' c left self hpc
      left
      rcases List.mem_cons.mp haccess with rfl | hmem
      · obtain ⟨hcpus,_,_,hleft⟩ := h.entry.inserting t _ _ _ _ _ _ hpc
        obtain ⟨hc,hnot⟩ := hleft c (by simp)
        refine h.count.refCnt_pos h.entry (c := c) (by rwa [hcpus]) ?_
        intro hmem
        have hplace := h.entry.places c event
        have hpos := List.count_pos_iff.mpr hmem
        rw [List.count_eq_zero.mpr hnot] at hplace
        omega
      · exact hlist c hmem
    · rename_i event' hpc
      obtain rfl := List.mem_singleton.mp haccess
      exact Or.inl (hwaits t (Or.inl hpc))
    · rename_i event' hpc
      obtain rfl := List.mem_singleton.mp haccess
      exact Or.inl (hwaits t (Or.inr hpc))
    · cases haccess
  | handle c =>
    left
    simp only [smpAccesses] at haccess
    split at haccess
    · exact hlist c haccess
    · rename_i event' hisr
      obtain rfl := List.mem_singleton.mp haccess
      exact hhandling c (by rw [hisr]; rfl)
    · rename_i event' signalTermination hisr
      obtain rfl := List.mem_singleton.mp haccess
      exact hhandling c (by rw [hisr]; rfl)
    · rename_i event' signalTermination newRefCount hisr
      split_ifs at haccess with hlast
      · obtain rfl := List.mem_singleton.mp haccess
        obtain ⟨rfl,rfl⟩ := hlast
        obtain ⟨hsignal,_,_,_,hunreleased,_⟩ := h.signal.signals c event hisr
        exact h.count.refCnt_pos_of_signaled h.entry hsignal hunreleased
      · cases haccess
    · cases haccess
  | ipcGenerateEvent t event' =>
    right
    have hevent : event' = some event := Option.mem_toList.mp haccess
    subst hevent
    simp only [smpStep] at hs
    split at hs
    · split_ifs at hs with _ hfree
      exact hfree
    · cases hs
  | _ => cases haccess

omit [DecidableEq Thread] in
theorem IpcInv.mem_freed (h : IpcInv (s,record)) :
    .freed event ∈ record ↔ s.cpuEvents event ≠ [] ∧ s.refCnt event = 0 := by
  have hfreed : record.count (.freed event) = _ := h.count.freed event
  rw [← List.count_pos_iff,hfreed]
  by_cases hgone : s.cpuEvents event ≠ [] ∧ s.refCnt event = 0
  · rw [if_pos hgone]
    exact ⟨fun _ => hgone,fun _ => Nat.one_pos⟩
  · rw [if_neg hgone]
    exact ⟨fun hlt => absurd hlt (Nat.lt_irrefl 0),fun heq => absurd heq hgone⟩

omit [DecidableEq Thread] in
theorem IpcInv.freed_iff (h : IpcInv (s,record)) : .freed event ∈ record ↔
    s.Handled record event ∧ (s.signalTermination event = true → .released event ∈ record) := by
  have hentry : EntryInv s record := h.entry
  have hcount : CountInv s record := h.count
  have hrefs := hcount.refs event
  rw [h.mem_freed]
  constructor
  · rintro ⟨hallocated,hzero⟩
    have hle := (hentry.droppedBy_subperm event).length_le
    have honce := hcount.releasedOnce event
    have hreleased : record.count (.released event) ≤
        if s.signalTermination event then 1 else 0 := by
      by_cases hmem : .released event ∈ record
      · rwa [if_pos (hcount.released event hmem).1]
      · rw [List.count_eq_zero.mpr hmem]
        exact Nat.zero_le _
    refine ⟨hentry.handled_of_length hallocated (by omega),?_⟩
    intro hwait
    rw [if_pos hwait] at hrefs
    rw [← List.count_pos_iff]
    omega
  · rintro ⟨hhandled,hreleased⟩
    refine ⟨hhandled.1,?_⟩
    have hall := hentry.droppedBy_length hhandled
    by_cases hwait : s.signalTermination event = true
    · have hone := List.count_pos_iff.mpr (hreleased hwait)
      rw [if_pos hwait] at hrefs
      omega
    · rw [if_neg hwait] at hrefs
      omega

omit [DecidableEq Thread] in
theorem HolderInv.freed (h : HolderInv s record) (hinv : IpcInv (s,record))
    (hallocated : s.cpuEvents event ≠ []) (hlists : ∀ c, event ∉ s.eventList c)
    (hhandlers : ∀ c, (s.isr c).handling ≠ some event)
    (hthreads : ∀ t, (s.pc t).event ≠ some event) : .freed event ∈ record := by
  have hentry : EntryInv s record := hinv.entry
  apply hinv.freed_iff.mpr
  refine ⟨⟨hallocated,?_⟩,?_⟩
  · intro c hc
    have hqueued : .queued c event ∈ record := by
      refine (h.queues event c hc).resolve_right ?_
      rintro ⟨t,request,apicId,cpus,left,self,hpc,_⟩
      exact hthreads t (by rw [hpc]; rfl)
    have hplace := hentry.places c event
    have hcount := List.count_pos_iff.mpr hqueued
    have hlist := List.count_eq_zero.mpr (hlists c)
    have hhandler : (s.isr c).handling.toList.count event = 0 := by
      rw [List.count_eq_zero,Option.mem_toList]
      exact hhandlers c
    rw [← List.count_pos_iff]
    omega
  · intro hsignal
    refine (h.waits event hallocated hsignal).resolve_right ?_
    rintro ⟨t,hevent⟩
    exact hthreads t hevent

/-- An event is freed once, by the last of its handlers and the thread that waits; nothing uses it
after that; and the thread that waits returns after the handlers. A handler that has come to an event
is not held up and drops its reference within that many of its steps, whatever is done in between;
after the signal of the last one the thread that waits goes on; and an event that no list, handler
or thread has is freed. -/
theorem ipc_event_freed_once {p : SmpState Cpu Thread Event × List (SmpTrace Cpu Event)}
    (h : ((smpSystem smp).recording (smpTrace smp)).Reachable p) (event : Event) :
    (p.2.count (.freed event) ≤ 1 ∧ (.freed event ∈ p.2 ↔ p.1.Handled p.2 event ∧
      (p.1.signalTermination event = true → .released event ∈ p.2))) ∧
    (.freed event ∈ p.2 ∨ .released event ∈ p.2 →
      ∀ c ∈ p.1.cpuEvents event, .returned c event ∈ p.2) ∧
    (∀ action s', smpStep smp p.1 action = some s' → event ∈ smpAccesses p.1 action →
      .freed event ∉ p.2) ∧
    (∀ c n, HandlerLeft p.1 c event n → (∃ s', smpStep smp p.1 (.handle c) = some s') ∧
      ∀ actions p', ((smpSystem smp).recording (smpTrace smp)).run p actions = some p' →
        n ≤ actions.count (.handle c) → .dereferenced c event ∈ p'.2) ∧
    (∀ t, p.1.pc t = .waiting event → p.1.Handled p.2 event → (∀ c, ¬p.1.Signals c event) →
      p.1.isr (p.1.cpu t) = .none → ∃ s', smpStep smp p.1 (.run t) = some s' ∧
        s'.pc t = .signaled event) ∧
    (p.1.cpuEvents event ≠ [] → (∀ c, event ∉ p.1.eventList c) →
      (∀ c, (p.1.isr c).handling ≠ some event) → (∀ t, (p.1.pc t).event ≠ some event) →
        .freed event ∈ p.2) := by
  obtain ⟨s,record⟩ := p
  have hinv : IpcInv (s,record) := ipcInv_of_reachable h
  have hsignal : SignalInv s record := hinv.signal
  have hholder : HolderInv s record := holderInv_of_reachable h
  refine ⟨⟨?_,hinv.freed_iff⟩,?_,?_,?_,?_,?_⟩
  · have hfreed : record.count (.freed event) = _ := hinv.count.freed event
    rw [hfreed]
    split_ifs <;> simp
  · intro hdone c hc
    apply hsignal.returned c event
    rcases hdone with hfreed | hreleased
    · exact (hinv.freed_iff.mp hfreed).1.2 c hc
    · exact (hsignal.released event hreleased).2 c hc
  · intro action s' hs haccess hgone
    obtain ⟨hallocated,hzero⟩ := hinv.mem_freed.mp hgone
    rcases hinv.accesses hs haccess with hpos | hfree
    · exact hpos.ne' hzero
    · exact hallocated hfree
  · intro c n hleft
    exact ⟨hleft.enabled (number_of_reachable h.of_recording c),fun _ _ => hleft.run⟩
  · intro t hpc hhandled hnone hisr
    have hsignaled := hholder.signaled_of_waiting hinv hpc hhandled hnone
    exact waiting_goes_on hpc (hinv.count.waiting t event (Or.inl hpc)) hsignaled hisr
  · exact hholder.freed hinv

end EventFreed

/-- Thread 0 interrupts both CPUs and waits; its event is freed. -/
theorem ipc_event_freed_once_two :
    ∃ p : SmpState (Fin 2) (Fin 1) (Fin 1) × List (SmpTrace (Fin 2) (Fin 1)),
      ((smpSystem twoCpuSmp).recording (smpTrace twoCpuSmp)).Reachable p ∧ p.1.pc 0 = .idle ∧
      p.1.cpuEvents 0 = [0,1] ∧ .freed 0 ∈ p.2 ∧ p.2.count (.freed 0) ≤ 1 ∧
      ∀ c ∈ p.1.cpuEvents 0, .returned c 0 ∈ p.2 := by
  obtain ⟨p,hreach,hp⟩ := TransitionSystem.exists_reachable
    ((smpSystem twoCpuSmp).recording (smpTrace twoCpuSmp)) (fun _ _ => True)
    ((.start fun _ => 0 : SmpState (Fin 2) (Fin 1) (Fin 1)),[])
    ⟨SmpState.start_initial _,rfl⟩
    ([.smpSendGenericIpiEx 0 ⟨.sendToAllIncludingSelf,0,true,true⟩,.run 0,.run 0,
      .ipcGenerateEvent 0 (some 0),.run 0,.run 0,.run 0,.interrupt 0,.interrupt 1] ++
      List.replicate 5 (.handle 0) ++ List.replicate 5 (.handle 1) ++ [.run 0,.run 0])
    (fun p => decide (p.1.pc 0 = .idle ∧ p.1.cpuEvents 0 = [0,1] ∧
      (∀ c, 0 ∉ p.1.eventList c) ∧ (∀ c, (p.1.isr c).handling ≠ some 0) ∧
      ∀ t, (p.1.pc t).event ≠ some 0))
    (TransitionSystem.runSatisfies_of_forall (fun _ _ => trivial) _ _) (by decide +kernel)
  obtain ⟨hidle,hcpus,hlists,hhandlers,hthreads⟩ := of_decide_eq_true hp
  obtain ⟨⟨honce,_⟩,hreturned,_,_,_,hfreed⟩ := ipc_event_freed_once hreach 0
  have hgone := hfreed (by rw [hcpus]; simp) hlists hhandlers hthreads
  exact ⟨p,hreach,hidle,hcpus,hgone,honce,hreturned (Or.inl hgone)⟩

end Hal9000
