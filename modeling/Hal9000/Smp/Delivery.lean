import Hal9000.Smp.IpcEvent

/-!
# The delivery of inter-processor interrupts

The destination of an IPI is computed twice: by the software, which queues an event on each matching
CPU, and by the local APICs, later and perhaps for another sender. A CPU keeps one pending interrupt
and takes one event for each that it serves.
-/

namespace Hal9000

namespace SmpData

variable {Cpu : Type} [DecidableEq Cpu] (smp : SmpData Cpu)

/-- The CPU that sends is still one for which the computed destination is right. -/
def DestinationKept (current : Cpu) (request : IpiRequest) (cpus : List Cpu) : Prop :=
  match request.sendMode with
  | .sendToSelf => current ∈ cpus
  | .sendToAllExcludingSelf => current ∉ cpus
  | .sendToAllIncludingSelf => True
  -- the broadcast address
  | .sendToCpu => request.destination = 0xFF → ∀ c ∈ smp.cpuList, smp.apicId c = 0xFF
  -- there are eight logical ids
  | .sendToGroup => ∀ c ∈ smp.cpuList, smp.logicalApicId c ≠ 0

instance decidableDestinationKept (current : Cpu) (cpus : List Cpu) :
    ∀ request : IpiRequest, Decidable (smp.DestinationKept current request cpus)
  | ⟨.sendToSelf,_,_,_⟩ => inferInstanceAs (Decidable (current ∈ cpus))
  | ⟨.sendToAllExcludingSelf,_,_,_⟩ => inferInstanceAs (Decidable (current ∉ cpus))
  | ⟨.sendToAllIncludingSelf,_,_,_⟩ => .isTrue trivial
  | ⟨.sendToCpu,destination,_,_⟩ =>
    inferInstanceAs (Decidable (destination = 0xFF → ∀ c ∈ smp.cpuList, smp.apicId c = 0xFF))
  | ⟨.sendToGroup,_,_,_⟩ =>
    inferInstanceAs (Decidable (∀ c ∈ smp.cpuList, smp.logicalApicId c ≠ 0))

omit [DecidableEq Cpu] in
theorem logicalApicId_eq (c : Cpu) :
    smp.logicalApicId c = BitVec.twoPow 8 ((smp.apicId c).toNat % 32) := by
  have hall : ∀ k : Fin 32, ((1 : BitVec 32) <<< k.val).setWidth 8 = BitVec.twoPow 8 k.val := by
    decide
  exact hall ⟨_,Nat.mod_lt _ (by norm_num)⟩

omit [DecidableEq Cpu] in
theorem isBooleanFlagOn_logicalApicId (destination : BitVec 8) (c : Cpu)
    (hid : smp.logicalApicId c ≠ 0) : isBooleanFlagOn destination (smp.logicalApicId c) =
      (destination &&& smp.logicalApicId c != 0) := by
  rw [isBooleanFlagOn]
  rw [logicalApicId_eq] at hid ⊢
  rw [BitVec.and_twoPow]
  have hbit : BitVec.twoPow 8 ((smp.apicId c).toNat % 32) ≠ 0#8 := hid
  cases destination.getLsbD ((smp.apicId c).toNat % 32) <;> simp [hbit,Ne.symm hbit]

theorem matching_interrupted_iff {matched current : Cpu} {request : IpiRequest} {cpus : List Cpu}
    (hcpus : cpus = smp.cpuList.filter
      (smp.smpDoesCpuMatchDestination matched request.sendMode request.destination)) :
    (∀ c, c ∈ cpus ↔ smp.smpSendIpcIpi current request.sendMode request.destination c = true) ↔
      smp.DestinationKept current request cpus := by
  have hmem : ∀ c, c ∈ cpus ↔ smp.smpDoesCpuMatchDestination matched request.sendMode
      request.destination c = true := by
    intro c
    rw [hcpus,List.mem_filter]
    exact ⟨And.right,fun hc => ⟨smp.mem c,hc⟩⟩
  obtain ⟨sendMode,destination,_,_⟩ := request
  simp only at hmem ⊢
  cases sendMode with
  | sendToSelf =>
    have hself : ∀ c, c ∈ cpus ↔ c = matched := by
      intro c
      rw [hmem,smpDoesCpuMatchDestination,beq_iff_eq,smp.distinct.eq_iff]
    simp only [DestinationKept,smpSendIpcIpi,lapicAccepts,hself,beq_iff_eq]
    exact ⟨fun h => (h current).mpr rfl,fun h c => by rw [h]⟩
  | sendToAllExcludingSelf =>
    have hself : ∀ c, c ∈ cpus ↔ c ≠ matched := by
      intro c
      rw [hmem,smpDoesCpuMatchDestination,bne_iff_ne,Ne,smp.distinct.eq_iff]
    simp only [DestinationKept,smpSendIpcIpi,lapicAccepts,hself,bne_iff_ne,ne_eq,not_not]
    exact ⟨fun h => by simpa using h current,fun h c => by rw [h]⟩
  | sendToAllIncludingSelf =>
    simp [DestinationKept,smpSendIpcIpi,lapicAccepts,hmem,smpDoesCpuMatchDestination]
  | sendToCpu =>
    have haccepts : ∀ c, smp.smpSendIpcIpi current .sendToCpu destination c = true ↔
        destination = 0xFF ∨ smp.apicId c = destination := by
      intro c
      simp [smpSendIpcIpi,lapicAccepts]
    simp only [hmem,haccepts,DestinationKept,smpDoesCpuMatchDestination,beq_iff_eq]
    constructor
    · intro h hbroadcast c _
      rw [(h c).mpr (Or.inl hbroadcast),hbroadcast]
    · intro h c
      refine ⟨Or.inr,?_⟩
      rintro (hbroadcast | hc)
      · rw [h hbroadcast c (smp.mem c),hbroadcast]
      · exact hc
  | sendToGroup =>
    simp only [hmem,DestinationKept,smpDoesCpuMatchDestination,smpSendIpcIpi,lapicAccepts]
    constructor
    · intro h c _ hzero
      have hc := h c
      rw [hzero] at hc
      simp [isBooleanFlagOn] at hc
    · intro h c
      rw [smp.isBooleanFlagOn_logicalApicId destination c (h c (smp.mem c))]
      simp

end SmpData

section Delivery

variable {Cpu Thread Event : Type} [DecidableEq Cpu] [DecidableEq Thread] [DecidableEq Event]

/-- An IPI is sent while its destination is kept and pending on no CPU it goes to. -/
def DeliversIpi (smp : SmpData Cpu) (s : SmpState Cpu Thread Event) :
    SmpAction Cpu Thread Event → Prop
  | .run t =>
    match s.pc t with
    | .inserting request _ cpus _ [] _ => smp.DestinationKept (s.cpu t) request cpus ∧
      ∀ c ∈ smp.cpuList, smp.smpSendIpcIpi (s.cpu t) request.sendMode request.destination c = true →
        s.pending c = false
    | _ => True
  | _ => True

instance decidableDeliversIpi (smp : SmpData Cpu) (s : SmpState Cpu Thread Event) :
    ∀ action, Decidable (DeliversIpi smp s action)
  | .run t =>
    match hpc : s.pc t with
    | .inserting request _ cpus _ [] _ => decidable_of_iff (smp.DestinationKept (s.cpu t) request cpus ∧
        ∀ c ∈ smp.cpuList, smp.smpSendIpcIpi (s.cpu t) request.sendMode request.destination c = true →
          s.pending c = false) (by rw [DeliversIpi,hpc])
    | .inserting _ _ _ _ (_ :: _) _ | .idle | .counted _ _ | .identified _ _ _ | .matched _ _ _
    | .waiting _ | .signaled _ => .isTrue (by rw [DeliversIpi,hpc]; trivial)
  | .smpSendGenericIpiEx _ _ | .ipcGenerateEvent _ _ | .migrate _ _ | .interrupt _ | .handle _ =>
    .isTrue trivial

/-- The thread is between the allocation of the event and the IPI. -/
def SenderPc.inserts (pc : SenderPc Cpu Event) (event : Event) : Prop :=
  ∃ request apicId cpus left self, pc = .inserting request apicId cpus event left self

def SmpTrace.toQueued : SmpTrace Cpu Event → Option (Cpu × Event)
  | .queued c event => some (c,event)
  | _ => none

def SmpTrace.toSent : SmpTrace Cpu Event → Option (Cpu × Event)
  | .sent c event => some (c,event)
  | _ => none

def SmpTrace.toRemoved : SmpTrace Cpu Event → Option (Cpu × Event)
  | .removed c event => some (c,event)
  | _ => none

/-- The events of one kind on a CPU, in their order. -/
def eventsOn (kind : SmpTrace Cpu Event → Option (Cpu × Event)) (c : Cpu)
    (record : List (SmpTrace Cpu Event)) : List Event :=
  record.filterMap fun x => (kind x).bind fun on => if on.1 = c then some on.2 else none

variable {smp : SmpData Cpu} {s s' : SmpState Cpu Thread Event} {action : SmpAction Cpu Thread Event}
  {record obs : List (SmpTrace Cpu Event)} {event : Event} {c : Cpu} {t : Thread}

theorem count_eventsOn {kind : SmpTrace Cpu Event → Option (Cpu × Event)}
    {mk : Cpu → Event → SmpTrace Cpu Event}
    (hkind : ∀ x c event, kind x = some (c,event) ↔ x = mk c event) :
    (eventsOn kind c record).count event = record.count (mk c event) := by
  induction record with
  | nil => rfl
  | cons x record ih =>
    simp only [eventsOn] at ih
    cases hx : kind x with
    | none =>
      have hne : x ≠ mk c event := by
        intro heq
        rw [(hkind x c event).mpr heq] at hx
        cases hx
      simp [eventsOn,hx,ih,hne]
    | some on =>
      have heq : x = mk c event ↔ on.1 = c ∧ on.2 = event := by
        rw [← hkind,hx,Option.some.injEq,Prod.ext_iff]
      by_cases hc : on.1 = c <;> simp [eventsOn,hx,hc,ih,List.count_cons,heq]

omit [DecidableEq Event] in
theorem eventsOn_append {kind : SmpTrace Cpu Event → Option (Cpu × Event)} :
    eventsOn kind c (record ++ obs) = eventsOn kind c record ++ eventsOn kind c obs :=
  List.filterMap_append

omit [DecidableEq Event] in
theorem eventsOn_cons {kind : SmpTrace Cpu Event → Option (Cpu × Event)} {x : SmpTrace Cpu Event} :
    eventsOn kind c (x :: record) =
      ((kind x).bind fun on => if on.1 = c then some on.2 else none).toList ++
        eventsOn kind c record := by
  rw [eventsOn,List.filterMap_cons]
  split <;> rename_i heq <;> rw [heq] <;> rfl

omit [DecidableEq Cpu] [DecidableEq Event] in
theorem toQueued_iff (x : SmpTrace Cpu Event) (c : Cpu) (event : Event) :
    x.toQueued = some (c,event) ↔ x = .queued c event := by
  cases x <;> simp [SmpTrace.toQueued]

omit [DecidableEq Cpu] [DecidableEq Event] in
theorem toSent_iff (x : SmpTrace Cpu Event) (c : Cpu) (event : Event) :
    x.toSent = some (c,event) ↔ x = .sent c event := by
  cases x <;> simp [SmpTrace.toSent]

omit [DecidableEq Event] in
theorem eventsOn_eq_nil {kind : SmpTrace Cpu Event → Option (Cpu × Event)}
    (hnone : ∀ x ∈ obs, kind x = none) : eventsOn kind c obs = [] := by
  rw [eventsOn,List.filterMap_eq_nil_iff]
  intro x hx
  rw [hnone x hx]
  rfl

omit [DecidableEq Thread] [DecidableEq Event] in
theorem eventsOn_freedTrace {kind : SmpTrace Cpu Event → Option (Cpu × Event)}
    {x : SmpTrace Cpu Event} (hx : kind x = none) (hfreed : ∀ event, kind (.freed event) = none) :
    eventsOn kind c (x :: s.freedTrace event) = [] := by
  apply eventsOn_eq_nil
  intro y hy
  rcases List.mem_cons.mp hy with rfl | hy
  · exact hx
  · unfold SmpState.freedTrace at hy
    split at hy
    · rw [List.mem_singleton.mp hy,hfreed]
    · cases hy

theorem count_sent_self {cpus : List Cpu} :
    (cpus.map (SmpTrace.sent · event)).count (.sent c event) = cpus.count c := by
  have hinjective : Function.Injective (SmpTrace.sent · event : Cpu → SmpTrace Cpu Event) := by
    intro c₁ c₂ heq
    cases heq
    rfl
  exact List.count_map_of_injective cpus _ hinjective c

omit [DecidableEq Event] in
theorem eventsOn_sent {cpus : List Cpu} : eventsOn SmpTrace.toSent c
    (cpus.map (SmpTrace.sent · event)) = List.replicate (cpus.count c) event := by
  induction cpus with
  | nil => rfl
  | cons c' cpus ih =>
    rw [List.map_cons,eventsOn_cons,ih]
    by_cases hc : c' = c
    · simp [SmpTrace.toSent,hc,List.replicate_succ]
    · simp [SmpTrace.toSent,hc]

structure DeliveryInv (s : SmpState Cpu Thread Event) (record : List (SmpTrace Cpu Event)) : Prop where
  fifo : ∀ c, eventsOn SmpTrace.toQueued c record =
    eventsOn SmpTrace.toRemoved c record ++ s.eventList c
  number : ∀ c, s.noOfEventsInList c = (s.eventList c).length
  loop : ∀ t request apicId cpus event left self,
    s.pc t = .inserting request apicId cpus event left self →
      ∀ c, .sent c event ∉ record ∧ (c ∈ cpus → c ∉ left → .queued c event ∈ record)
  sent : ∀ event, (∀ t, ¬(s.pc t).inserts event) →
    ∀ c, record.count (.queued c event) = record.count (.sent c event)
  interrupts : ∀ c, (eventsOn SmpTrace.toSent c record).length =
    (eventsOn SmpTrace.toRemoved c record).length + (if s.pending c then 1 else 0) +
      (if s.isr c = .entered then 1 else 0)

theorem SmpEffect.eventList_cases (he : SmpEffect smp s action obs s') (c : Cpu) :
    (∃ event, s'.eventList c = s.eventList c ++ [event] ∧
      s'.noOfEventsInList c = s.noOfEventsInList c + 1 ∧
      eventsOn SmpTrace.toQueued c obs = [event] ∧ eventsOn SmpTrace.toRemoved c obs = []) ∨
    (∃ event, s.eventList c = event :: s'.eventList c ∧
      s'.noOfEventsInList c = s.noOfEventsInList c - 1 ∧
      eventsOn SmpTrace.toQueued c obs = [] ∧ eventsOn SmpTrace.toRemoved c obs = [event]) ∨
    s'.eventList c = s.eventList c ∧ s'.noOfEventsInList c = s.noOfEventsInList c ∧
      eventsOn SmpTrace.toQueued c obs = [] ∧ eventsOn SmpTrace.toRemoved c obs = [] := by
  cases he with
  | @insert t request apicId cpus left event c' self hpc =>
    by_cases hc : c' = c
    · subst hc
      left
      exact ⟨event,Function.update_self _ _ _,Function.update_self _ _ _,by
        simp [eventsOn,SmpTrace.toQueued],by simp [eventsOn,SmpTrace.toRemoved]⟩
    · right
      right
      exact ⟨Function.update_of_ne (Ne.symm hc) _ _,Function.update_of_ne (Ne.symm hc) _ _,by
        simp [eventsOn,SmpTrace.toQueued,hc],by simp [eventsOn,SmpTrace.toRemoved]⟩
  | @remove c' event rest hisr hlist =>
    right
    by_cases hc : c' = c
    · subst hc
      left
      refine ⟨event,?_,Function.update_self _ _ _,by simp [eventsOn,SmpTrace.toQueued],by
        simp [eventsOn,SmpTrace.toRemoved]⟩
      simp [hlist]
    · right
      exact ⟨Function.update_of_ne (Ne.symm hc) _ _,Function.update_of_ne (Ne.symm hc) _ _,by
        simp [eventsOn,SmpTrace.toQueued],by simp [eventsOn,SmpTrace.toRemoved,hc]⟩
  | send =>
    refine Or.inr (Or.inr ⟨rfl,rfl,eventsOn_eq_nil ?_,eventsOn_eq_nil ?_⟩) <;>
      · intro x hx
        obtain ⟨_,_,rfl⟩ := List.mem_map.mp hx
        rfl
  | release | dereference =>
    exact Or.inr (Or.inr ⟨rfl,rfl,eventsOn_freedTrace rfl fun _ => rfl,
      eventsOn_freedTrace rfl fun _ => rfl⟩)
  | _ => exact Or.inr (Or.inr ⟨rfl,rfl,rfl,rfl⟩)

theorem DeliveryInv.fifo_step (h : DeliveryInv s record) (he : SmpEffect smp s action obs s')
    (c : Cpu) : eventsOn SmpTrace.toQueued c (record ++ obs) =
      eventsOn SmpTrace.toRemoved c (record ++ obs) ++ s'.eventList c ∧
    s'.noOfEventsInList c = (s'.eventList c).length := by
  have hfifo := h.fifo c
  have hnumber := h.number c
  rw [eventsOn_append,eventsOn_append]
  rcases he.eventList_cases c with ⟨event,hlist,hcount,hqueued,hremoved⟩ |
    ⟨event,hlist,hcount,hqueued,hremoved⟩ | ⟨hlist,hcount,hqueued,hremoved⟩
  · rw [hlist,hcount,hqueued,hremoved,hfifo,hnumber]
    simp
  · rw [hcount,hqueued,hremoved,hfifo,hnumber,hlist]
    simp
  · rw [hlist,hcount,hqueued,hremoved,hfifo,hnumber]
    simp

theorem SmpEffect.interrupt_cases (he : SmpEffect smp s action obs s') (c : Cpu) :
    (∃ t request apicId cpus event self, action = .run t ∧
      s.pc t = .inserting request apicId cpus event [] self ∧ s'.isr = s.isr ∧
      s'.pending c = (s.pending c ||
        smp.smpSendIpcIpi (s.cpu t) request.sendMode request.destination c) ∧
      eventsOn SmpTrace.toRemoved c obs = [] ∧ eventsOn SmpTrace.toSent c obs =
        if smp.smpSendIpcIpi (s.cpu t) request.sendMode request.destination c then [event] else []) ∨
    (s.pending c = true ∧ s.isr c = .none ∧ s'.pending c = false ∧ s'.isr c = .entered ∧ obs = []) ∨
    (s'.pending c = s.pending c ∧ s.isr c = .entered ∧ s'.isr c ≠ .entered ∧
      (eventsOn SmpTrace.toRemoved c obs).length = 1 ∧ eventsOn SmpTrace.toSent c obs = []) ∨
    s'.pending c = s.pending c ∧ (s'.isr c = .entered ↔ s.isr c = .entered) ∧
      eventsOn SmpTrace.toRemoved c obs = [] ∧ eventsOn SmpTrace.toSent c obs = [] := by
  have hkept : ∀ {c' : Cpu} {isr : IsrPc Event}, s.isr c' ≠ .entered → isr ≠ .entered →
      (Function.update s.isr c' isr c = .entered ↔ s.isr c = .entered) := by
    intro c' isr hold hnew
    by_cases hc : c = c'
    · subst hc
      rw [Function.update_self]
      exact ⟨fun heq => absurd heq hnew,fun heq => absurd heq hold⟩
    · rw [Function.update_of_ne hc]
  cases he with
  | @send t request apicId cpus event self hpc =>
    left
    refine ⟨t,request,apicId,cpus,event,self,rfl,hpc,rfl,rfl,eventsOn_eq_nil ?_,?_⟩
    · intro x hx
      obtain ⟨_,_,rfl⟩ := List.mem_map.mp hx
      rfl
    · rw [eventsOn_sent]
      split_ifs with haccepts
      · rw [List.count_filter haccepts,List.count_eq_one_of_mem smp.nodup (smp.mem c)]
        rfl
      · rw [List.count_eq_zero.mpr fun hmem => haccepts (List.mem_filter.mp hmem).2]
        rfl
  | @interrupt c' hpending hisr =>
    right
    by_cases hc : c' = c
    · subst hc
      exact Or.inl ⟨hpending,hisr,Function.update_self _ _ _,Function.update_self _ _ _,rfl⟩
    · refine Or.inr (Or.inr ⟨Function.update_of_ne (Ne.symm hc) _ _,?_,rfl,rfl⟩)
      rw [setIsr_isr,if_neg (Ne.symm hc)]
  | @remove c' event rest hisr hlist =>
    right
    right
    by_cases hc : c' = c
    · subst hc
      refine Or.inl ⟨rfl,hisr,?_,by simp [eventsOn,SmpTrace.toRemoved],by
        simp [eventsOn,SmpTrace.toSent]⟩
      simp [setIsr_isr]
    · refine Or.inr ⟨rfl,?_,by simp [eventsOn,SmpTrace.toRemoved,hc],by
        simp [eventsOn,SmpTrace.toSent]⟩
      simp [setIsr_isr,Ne.symm hc]
  | call hisr =>
    exact Or.inr (Or.inr (Or.inr ⟨rfl,hkept (by simp [hisr]) (by simp),rfl,rfl⟩))
  | dereference hisr =>
    exact Or.inr (Or.inr (Or.inr ⟨rfl,hkept (by simp [hisr]) (by simp),
      eventsOn_freedTrace rfl fun _ => rfl,eventsOn_freedTrace rfl fun _ => rfl⟩))
  | signal hisr =>
    exact Or.inr (Or.inr (Or.inr ⟨rfl,hkept (by simp [hisr]) (by simp),rfl,rfl⟩))
  | finish hentered _ hnew =>
    refine Or.inr (Or.inr (Or.inr ⟨rfl,hkept hentered ?_,rfl,rfl⟩))
    rcases hnew with rfl | rfl <;> simp
  | release =>
    exact Or.inr (Or.inr (Or.inr ⟨rfl,Iff.rfl,eventsOn_freedTrace rfl fun _ => rfl,
      eventsOn_freedTrace rfl fun _ => rfl⟩))
  | _ => exact Or.inr (Or.inr (Or.inr ⟨rfl,Iff.rfl,rfl,rfl⟩))

theorem DeliveryInv.interrupts_step (h : DeliveryInv s record) (he : SmpEffect smp s action obs s')
    (hguard : DeliversIpi smp s action) (c : Cpu) :
    (eventsOn SmpTrace.toSent c (record ++ obs)).length =
      (eventsOn SmpTrace.toRemoved c (record ++ obs)).length + (if s'.pending c then 1 else 0) +
        (if s'.isr c = .entered then 1 else 0) := by
  have hold := h.interrupts c
  rw [eventsOn_append,eventsOn_append,List.length_append,List.length_append]
  rcases he.interrupt_cases c with ⟨t,request,apicId,cpus,event,self,rfl,hpc,hisr,hpending,hremoved,hsent⟩ |
    ⟨hpending,hisr,hpending',hisr',rfl⟩ | ⟨hpending,hisr,hisr',hremoved,hsent⟩ |
    ⟨hpending,hisr,hremoved,hsent⟩
  · rw [DeliversIpi,hpc] at hguard
    rw [hisr,hpending,hremoved,hsent]
    by_cases haccepts :
        smp.smpSendIpcIpi (s.cpu t) request.sendMode request.destination c = true
    · have hfree := hguard.2 c (smp.mem c) haccepts
      rw [hfree] at hold ⊢
      simp only [haccepts,if_true,Bool.false_or,List.length_nil,List.length_singleton,
        Bool.false_eq_true,if_false] at hold ⊢
      omega
    · simpa only [haccepts,Bool.or_false,Bool.false_eq_true,if_false,List.length_nil,
        Nat.add_zero] using hold
  · simp [hpending,hisr,hpending',hisr',eventsOn] at hold ⊢
    omega
  · rw [if_pos hisr] at hold
    rw [hpending,hremoved,hsent,if_neg hisr',List.length_nil]
    omega
  · rw [hpending,hremoved,hsent]
    simp only [hisr,List.length_nil]
    omega

theorem SmpEffect.sent_cases (he : SmpEffect smp s action obs s') (hmem : .sent c event ∈ obs) :
    ∃ t request apicId cpus self, action = .run t ∧
      s.pc t = .inserting request apicId cpus event [] self ∧ obs = (smp.cpuList.filter
        (smp.smpSendIpcIpi (s.cpu t) request.sendMode request.destination)).map (.sent · event) ∧
      s'.pc t = if request.waitForHandling then .waiting event else .idle := by
  cases he with
  | @send t request apicId cpus event' self hpc =>
    obtain ⟨c',_,hc⟩ := List.mem_map.mp hmem
    cases hc
    exact ⟨t,request,apicId,cpus,self,rfl,hpc,rfl,Function.update_self _ _ _⟩
  | release => simp [not_mem_freedTrace] at hmem
  | dereference => simp [not_mem_freedTrace] at hmem
  | _ => simp at hmem

theorem DeliveryInv.loop_step (h : DeliveryInv s record) (hentry : EntryInv s record)
    (he : SmpEffect smp s action obs s') : ∀ t request apicId cpus event left self,
    s'.pc t = .inserting request apicId cpus event left self → ∀ c, .sent c event ∉ record ++ obs ∧
      (c ∈ cpus → c ∉ left → .queued c event ∈ record ++ obs) := by
  intro t request apicId cpus event left self hpc c
  have hunsent : (s.pc t).event = some event → .sent c event ∉ obs := by
    intro hevent hmem
    obtain ⟨u,request',_,_,_,_,hu,_,hpc'⟩ := he.sent_cases hmem
    have hsame : u = t := hentry.owner u t event (by rw [hu]; rfl) hevent
    subst hsame
    rw [hpc] at hpc'
    split at hpc' <;> cases hpc'
  rcases he.inserting_cases hpc with hold | ⟨c',self',hold,rfl⟩ | ⟨hfree,rfl,hold,rfl,_⟩
  · obtain ⟨hsent,hqueued⟩ := h.loop t _ _ _ _ _ _ hold c
    refine ⟨?_,fun hc hleft => List.mem_append_left _ (hqueued hc hleft)⟩
    rw [List.mem_append]
    rintro (hmem | hmem)
    · exact hsent hmem
    · exact hunsent (by rw [hold]; rfl) hmem
  · obtain ⟨hsent,hqueued⟩ := h.loop t _ _ _ _ _ _ hold c
    refine ⟨by simpa using hsent,?_⟩
    intro hc hleft
    by_cases heq : c = c'
    · simp [heq]
    · exact List.mem_append_left _ (hqueued hc (by simp [heq,hleft]))
  · refine ⟨?_,fun hc hleft => absurd hc hleft⟩
    have hnone : ∀ u, ¬(s.pc u).inserts event := by
      rintro u ⟨_,_,_,_,_,hu⟩
      exact hentry.allocated u event (by rw [hu]; rfl) hfree
    have hunqueued : record.count (.queued c event) = 0 := by
      rw [List.count_eq_zero]
      intro hmem
      have hc := hentry.queuedFor c event hmem
      rw [hfree] at hc
      cases hc
    rw [List.append_nil,← List.count_eq_zero,← h.sent event hnone c,hunqueued]

theorem SmpEffect.loop_cases (he : SmpEffect smp s action obs s') {request : IpiRequest}
    {apicId : BitVec 8} {cpus left : List Cpu} {self : Bool}
    (hpc : s.pc t = .inserting request apicId cpus event left self) :
    (s'.pc t).inserts event ∨ left = [] ∧ action = .run t ∧ obs = (smp.cpuList.filter
      (smp.smpSendIpcIpi (s.cpu t) request.sendMode request.destination)).map (.sent · event) := by
  have hmove : ∀ u pc, t ≠ u → (Function.update s.pc u pc t).inserts event := by
    intro u pc hu
    rw [Function.update_of_ne hu,hpc]
    exact ⟨_,_,_,_,_,rfl⟩
  have hstay : (s.pc t).inserts event := by
    rw [hpc]
    exact ⟨_,_,_,_,_,rfl⟩
  cases he with
  | outside hold _ _ =>
    refine Or.inl (hmove _ _ ?_)
    rintro rfl
    rw [hpc] at hold
    cases hold
  | generate hold | wake hold | release hold =>
    refine Or.inl (hmove _ _ ?_)
    rintro rfl
    rw [hpc] at hold
    cases hold
  | @insert u request' apicId' cpus' left' event' c self' hold =>
    left
    by_cases hu : t = u
    · subst hu
      rw [hpc] at hold
      cases hold
      exact ⟨_,_,_,_,_,Function.update_self _ _ _⟩
    · exact hmove _ _ hu
  | @send u request' apicId' cpus' event' self' hold =>
    by_cases hu : t = u
    · subst hu
      rw [hpc] at hold
      cases hold
      exact Or.inr ⟨rfl,rfl,rfl⟩
    · exact Or.inl (hmove _ _ hu)
  | _ => exact Or.inl hstay

theorem DeliveryInv.sent_step (h : DeliveryInv s record) (hentry : EntryInv s record)
    (hwell : ∀ t, (s.pc t).WellFormed smp) (hguard : DeliversIpi smp s action)
    (he : SmpEffect smp s action obs s') : ∀ event, (∀ t, ¬(s'.pc t).inserts event) →
    ∀ c, (record ++ obs).count (.queued c event) = (record ++ obs).count (.sent c event) := by
  intro event hnone c
  rw [List.count_append,List.count_append]
  by_cases hin : ∃ t, (s.pc t).inserts event
  · obtain ⟨t,request,apicId,cpus,left,self,hpc⟩ := hin
    obtain ⟨hsent,hqueued⟩ := h.loop t _ _ _ _ _ _ hpc c
    obtain ⟨hcpus,_⟩ := hentry.inserting t _ _ _ _ _ _ hpc
    obtain ⟨rfl,rfl,rfl⟩ := (he.loop_cases hpc).resolve_left (hnone t)
    have hmatched := hwell t
    rw [hpc] at hmatched
    rw [DeliversIpi,hpc] at hguard
    obtain ⟨_,matched,hfilter⟩ := hmatched
    have hsame := (smp.matching_interrupted_iff hfilter).mpr hguard.1 c
    rw [List.count_eq_zero.mpr hsent,count_sent (by simp),count_sent_self,Nat.zero_add,Nat.add_zero]
    by_cases hc : c ∈ cpus
    · rw [List.count_filter (hsame.mp hc),List.count_eq_one_of_mem smp.nodup (smp.mem c)]
      have honce := hentry.queuedOnce c event
      have hpos := List.count_pos_iff.mpr (hqueued hc (by simp))
      omega
    · rw [List.count_eq_zero.mpr fun hmem => hc (hsame.mpr (List.mem_filter.mp hmem).2),
        List.count_eq_zero]
      intro hmem
      rw [← hcpus] at hc
      exact hc (hentry.queuedFor c event hmem)
  · have hold := h.sent event (fun t ht => hin ⟨t,ht⟩) c
    have hqueued : .queued c event ∉ obs := by
      intro hmem
      obtain ⟨_,_,t,_,_,_,_,_,_,hpc,_⟩ := he.queued_cases hmem
      exact hin ⟨t,_,_,_,_,_,hpc⟩
    have hsent : .sent c event ∉ obs := by
      intro hmem
      obtain ⟨t,_,_,_,_,_,hpc,_⟩ := he.sent_cases hmem
      exact hin ⟨t,_,_,_,_,_,hpc⟩
    rw [List.count_eq_zero.mpr hqueued,List.count_eq_zero.mpr hsent,hold]

theorem DeliveryInv.step (h : DeliveryInv s record) (hentry : EntryInv s record)
    (hwell : ∀ t, (s.pc t).WellFormed smp) (hguard : DeliversIpi smp s action)
    (he : SmpEffect smp s action obs s') : DeliveryInv s' (record ++ obs) :=
  ⟨fun c => (h.fifo_step he c).1,fun c => (h.fifo_step he c).2,h.loop_step hentry he,
    h.sent_step hentry hwell hguard he,h.interrupts_step he hguard⟩

omit [DecidableEq Thread] in
theorem DeliveryInv.init (h : s.Initial) : DeliveryInv s [] := by
  refine ⟨?_,?_,?_,fun _ _ _ => rfl,?_⟩
  · intro c
    rw [h.eventList c]
    rfl
  · intro c
    rw [h.eventList c,h.noOfEventsInList c]
    rfl
  · intro t request apicId cpus event left self hpc
    rw [h.pc t] at hpc
    cases hpc
  · intro c
    rw [h.pending c,h.isr c]
    rfl

omit [DecidableEq Thread] in
theorem DeliveryInv.sent_subperm (h : DeliveryInv s record) (c : Cpu) :
    (eventsOn SmpTrace.toSent c record).Subperm (eventsOn SmpTrace.toQueued c record) := by
  rw [List.subperm_ext_iff]
  intro event _
  rw [count_eventsOn toSent_iff,count_eventsOn toQueued_iff]
  by_cases hin : ∃ t, (s.pc t).inserts event
  · obtain ⟨t,request,apicId,cpus,left,self,hpc⟩ := hin
    rw [List.count_eq_zero.mpr (h.loop t _ _ _ _ _ _ hpc c).1]
    exact Nat.zero_le _
  · rw [h.sent event (fun t ht => hin ⟨t,ht⟩) c]

omit [DecidableEq Thread] in
theorem DeliveryInv.eventList_ne_nil (h : DeliveryInv s record) (hisr : s.isr c = .entered) :
    s.eventList c ≠ [] := by
  have hle := (h.sent_subperm c).length_le
  have hinterrupts := h.interrupts c
  rw [h.fifo c,List.length_append] at hle
  rw [if_pos hisr] at hinterrupts
  intro hnone
  rw [hnone,List.length_nil] at hle
  omega

omit [DecidableEq Thread] in
theorem DeliveryInv.eventList_eq_nil (h : DeliveryInv s record)
    (hloops : ∀ t event, ¬(s.pc t).inserts event) (hpending : s.pending c = false)
    (hisr : s.isr c ≠ .entered) : s.eventList c = [] := by
  have hperm : (eventsOn SmpTrace.toQueued c record).Perm (eventsOn SmpTrace.toSent c record) := by
    rw [List.perm_iff_count]
    intro event
    rw [count_eventsOn toQueued_iff,count_eventsOn toSent_iff]
    exact h.sent event (fun t => hloops t event) c
  have hlength := hperm.length_eq
  have hinterrupts := h.interrupts c
  rw [h.fifo c,List.length_append] at hlength
  rw [hpending,if_neg hisr] at hinterrupts
  apply List.length_eq_zero_iff.mp
  simp only [Bool.false_eq_true,if_false] at hinterrupts
  omega

/-- IPIs whose destination is kept, and which coalesce on no CPU, reach the CPUs that have their
events; each event is served once. -/
theorem ipi_delivered {p : SmpState Cpu Thread Event × List (SmpTrace Cpu Event)}
    (h : ((smpSystem smp).recording (smpTrace smp)).ReachableUnder
      (fun p action => DeliversIpi smp p.1 action) p) :
    (∀ event, (∀ t, ¬(p.1.pc t).inserts event) → ∀ c, .queued c event ∈ p.2 ↔ .sent c event ∈ p.2) ∧
    (∀ t request apicId cpus event self,
      p.1.pc t = .inserting request apicId cpus event [] self →
        ((∀ c, .queued c event ∈ p.2 ↔
          smp.smpSendIpcIpi (p.1.cpu t) request.sendMode request.destination c = true) ↔
          smp.DestinationKept (p.1.cpu t) request cpus)) ∧
    (∀ c, p.1.isr c = .entered → isrRun p.1 c ≠ none) ∧
    (∀ c, eventsOn SmpTrace.toQueued c p.2 =
      eventsOn SmpTrace.toRemoved c p.2 ++ p.1.eventList c) ∧
    ((∀ t event, ¬(p.1.pc t).inserts event) → (∀ c, p.1.pending c = false ∧ p.1.isr c = .none) →
      ∀ c, p.1.eventList c = []) := by
  have hinv : DeliveryInv p.1 p.2 := by
    induction h with
    | init hinit =>
      rw [hinit.2]
      exact .init hinit.1
    | @step p p' action hreach hguard hs ih =>
      have hreach := hreach.mono (fun _ _ _ => trivial)
      obtain ⟨hs,hobs⟩ := TransitionSystem.recording_step.mp hs
      rw [hobs]
      exact ih.step (ipcInv_of_reachable hreach).entry
        (wellFormed_of_reachable (TransitionSystem.Reachable.of_recording hreach)) hguard
        (smpStep_cases hs)
  have hreach := h.mono (fun _ _ _ => trivial)
  have hentry : EntryInv p.1 p.2 := (ipcInv_of_reachable hreach).entry
  have hwell := wellFormed_of_reachable (TransitionSystem.Reachable.of_recording hreach)
  refine ⟨?_,?_,?_,hinv.fifo,?_⟩
  · intro event hnone c
    rw [← List.count_pos_iff,← List.count_pos_iff,hinv.sent event hnone c]
  · intro t request apicId cpus event self hpc
    have hmatched := hwell t
    rw [hpc] at hmatched
    obtain ⟨_,matched,hfilter⟩ := hmatched
    obtain ⟨hcpus,_⟩ := hentry.inserting t _ _ _ _ _ _ hpc
    have hqueued : ∀ c, .queued c event ∈ p.2 ↔ c ∈ cpus := by
      intro c
      constructor
      · intro hmem
        rw [← hcpus]
        exact hentry.queuedFor c event hmem
      · intro hc
        exact (hinv.loop t _ _ _ _ _ _ hpc c).2 hc (by simp)
    rw [← smp.matching_interrupted_iff hfilter]
    exact forall_congr' fun c => by rw [hqueued c]
  · intro c hisr hfails
    have hnumber := hinv.number c
    cases hlist : p.1.eventList c with
    | nil => exact hinv.eventList_ne_nil hisr hlist
    | cons event rest =>
      rw [hlist] at hnumber
      simp [isrRun,hisr,hlist,hnumber] at hfails
  · intro hloops hquiet c
    refine hinv.eventList_eq_nil hloops (hquiet c).1 ?_
    rw [(hquiet c).2]
    simp

end Delivery

/-- Both threads run on CPU 0. -/
def twoSenders : SmpState (Fin 2) (Fin 2) (Fin 2) := .start fun _ => 0

/-- A thread queues its event on CPU 1, up to the IPI. -/
def queueOnOther (t event : Fin 2) : List (SmpAction (Fin 2) (Fin 2) (Fin 2)) :=
  [.smpSendGenericIpiEx t ⟨.sendToCpu,1,false,true⟩,.run t,.run t,
    .ipcGenerateEvent t (some event),.run t]

/-- The second IPI is sent when the first is in service. -/
theorem ipi_delivered_two : ∃ p : SmpState (Fin 2) (Fin 2) (Fin 2) × List (SmpTrace (Fin 2) (Fin 2)),
    ((smpSystem twoCpuSmp).recording (smpTrace twoCpuSmp)).ReachableUnder
      (fun p action => DeliversIpi twoCpuSmp p.1 action) p ∧
    eventsOn SmpTrace.toRemoved 1 p.2 = [0,1] ∧ ∀ c, p.1.eventList c = [] := by
  obtain ⟨p,hreach,hp⟩ := TransitionSystem.exists_reachable
    ((smpSystem twoCpuSmp).recording (smpTrace twoCpuSmp))
    (fun p action => DeliversIpi twoCpuSmp p.1 action) (twoSenders,[])
    ⟨SmpState.start_initial _,rfl⟩
    (queueOnOther 0 0 ++ queueOnOther 1 1 ++ [.run 0,.interrupt 1,.run 1] ++
      List.replicate 5 (.handle 1) ++ .interrupt 1 :: List.replicate 5 (.handle 1))
    (fun p => decide (p.1.pc 0 = .idle ∧ p.1.pc 1 = .idle ∧ (∀ c, p.1.pending c = false ∧
      p.1.isr c = .none) ∧ eventsOn SmpTrace.toRemoved 1 p.2 = [0,1]))
    (by decide +kernel) (by decide +kernel)
  obtain ⟨hidle,hidle',hquiet,hremoved⟩ := of_decide_eq_true hp
  refine ⟨p,hreach,hremoved,(ipi_delivered hreach).2.2.2.2 ?_ hquiet⟩
  rintro t event ⟨_,_,_,_,_,hpc⟩
  match t with
  | 0 =>
    rw [hidle] at hpc
    cases hpc
  | 1 =>
    rw [hidle'] at hpc
    cases hpc

/-- Thread 0 sends to itself and is migrated before the IPI: CPU 1 is interrupted, finds its list
empty, and the assertion fails. When two IPIs coalesce, CPU 1 is left with an event for good. -/
theorem ipi_not_delivered :
    (∃ s : SmpState (Fin 2) (Fin 2) (Fin 2), (smpSystem twoCpuSmp).Reachable s ∧
      s.eventList 0 = [0] ∧ s.isr 1 = .entered ∧ isrRun s 1 = none) ∧
    ∃ s : SmpState (Fin 2) (Fin 2) (Fin 2), (smpSystem twoCpuSmp).Reachable s ∧
      (∀ t, s.pc t = .idle) ∧ (∀ c, s.pending c = false ∧ s.isr c = .none) ∧
      s.eventList 1 = [1] := by
  constructor
  · obtain ⟨s,hreach,hs⟩ := TransitionSystem.exists_reachable (smpSystem twoCpuSmp)
      (fun _ _ => True) twoSenders (SmpState.start_initial _)
      [.smpSendGenericIpiEx 0 ⟨.sendToSelf,0,false,true⟩,.run 0,.run 0,.ipcGenerateEvent 0 (some 0),
        .run 0,.migrate 0 1,.run 0,.interrupt 1]
      (fun s => decide (s.eventList 0 = [0] ∧ s.isr 1 = .entered ∧ (isrRun s 1).isNone = true))
      (TransitionSystem.runSatisfies_of_forall (fun _ _ => trivial) _ _) (by decide +kernel)
    obtain ⟨hlist,hisr,hfails⟩ := of_decide_eq_true hs
    exact ⟨s,hreach,hlist,hisr,Option.isNone_iff_eq_none.mp hfails⟩
  · obtain ⟨s,hreach,hs⟩ := TransitionSystem.exists_reachable (smpSystem twoCpuSmp)
      (fun _ _ => True) twoSenders (SmpState.start_initial _)
      (queueOnOther 0 0 ++ queueOnOther 1 1 ++ [.run 0,.run 1,.interrupt 1] ++
        List.replicate 5 (.handle 1))
      (fun s => decide ((∀ t, s.pc t = .idle) ∧ (∀ c, s.pending c = false ∧ s.isr c = .none) ∧
        s.eventList 1 = [1]))
      (TransitionSystem.runSatisfies_of_forall (fun _ _ => trivial) _ _) (by decide +kernel)
    exact ⟨s,hreach,of_decide_eq_true hs⟩

end Hal9000
