import Hal9000.Memory.KernelHalf
import Hal9000.Memory.ReservationDisjoint

/-!
# Concurrent page faults

`VmmSolvePageFault` on any number of processors, one step for each of the locks it takes. The
handler installs its frame with `Invalidate = TRUE` and without looking at the page again, so
a page stays as it was populated only if each handler finds its page still absent.
-/

namespace Hal9000

/-- Where a handler is, and the locals that are still in use. -/
inductive FaultPc
  | idle
  | checkAccess (faultingAddress : Nat) (rightsRequested : PageRights)
  | reserveFrame (page : Nat) (grant : AccessGrant)
  | mapPage (page : Nat) (grant : AccessGrant) (frame : Nat)
  | readFile (page frame : Nat)
  | zeroRest (page frame bytesReadFromFile : Nat)

def FaultPc.isIdle : FaultPc → Bool
  | .idle => true
  | _ => false

structure FaultState (Cpu : Type) where
  memory : PhysicalMemory
  pagingData : PagingData
  /-- The frames the physical memory manager has not given out. -/
  isFree : Nat → Bool
  pc : Cpu → FaultPc
  pageFaults : Cpu → Nat

inductive FaultAction (Cpu : Type)
  | fault (cpu : Cpu) (faultingAddress : Nat) (rightsRequested : PageRights)
  | checkAccess (cpu : Cpu) (metadataAccess : Bool)
  | reserveFrame (cpu : Cpu) (pa : Nat)
  | mapPage (cpu : Cpu)
  /-- The result is the number of bytes read, or that the file could not be read. -/
  | readFile (cpu : Cpu) (result : Option Nat)
  | zeroRest (cpu : Cpu)

def vaHighestValidBit : Nat := 47

def vmIsKernelAddress (address : Nat) : Bool := address.testBit vaHighestValidBit

def mmuMapMemoryInternal (vmmData : VmmData) (memory : PhysicalMemory) (pagingData : PagingData)
    (physicalAddress size : Nat) (pageRights : PageRights) (virtualAddress : Nat)
    (invalidate uncacheable : Bool) : Option (WalkState PagingData) := do
  assert (size != 0)
  assert (isAddressAligned size pageSize)
  assert (virtualAddress != 0)
  assert (isAddressAligned virtualAddress pageSize)
  vmmMapMemoryInternal vmmData memory pagingData physicalAddress size virtualAddress pageRights
    invalidate uncacheable

section PageFault

variable {Cpu : Type} [DecidableEq Cpu]

def FaultState.setPc (s : FaultState Cpu) (cpu : Cpu) (pc : FaultPc) : FaultState Cpu :=
  { s with pc := Function.update s.pc cpu pc }

variable (vmmData : VmmData) (reservationSize : Nat) (space : VmmReservationSpace)

/-- The steps of `VmmSolvePageFault` in one address space; a refused fault is idle again. -/
def faultStep (s : FaultState Cpu) : FaultAction Cpu → Option (FaultState Cpu)
  | .fault cpu faultingAddress rightsRequested =>
    match s.pc cpu with
    | .idle =>
      if ¬ faultingAddress < qwordModulus then none
      else if alignAddressLower faultingAddress pageSize = 0 then some s
      else if vmIsKernelAddress faultingAddress ≠ s.pagingData.kernelSpace then some s
      else some (s.setPc cpu (.checkAccess faultingAddress rightsRequested))
    | _ => none
  | .checkAccess cpu metadataAccess =>
    match s.pc cpu with
    | .checkAccess faultingAddress rightsRequested => do
      match ← vmReservationCanAddressBeAccessed reservationSize space metadataAccess
          faultingAddress rightsRequested with
      | none => return s.setPc cpu .idle
      | some grant =>
        return s.setPc cpu (.reserveFrame (alignAddressLower faultingAddress pageSize) grant)
    | _ => none
  | .reserveFrame cpu pa =>
    match s.pc cpu with
    | .reserveFrame page grant => do
      assert (s.isFree pa)
      return { s with isFree := Function.update s.isFree pa false }.setPc cpu
        (.mapPage page grant pa)
    | _ => none
  | .mapPage cpu =>
    match s.pc cpu with
    | .mapPage page grant frame => do
      let mapped ← mmuMapMemoryInternal vmmData s.memory s.pagingData frame pageSize
        grant.memoryRights page true grant.uncacheable
      return { s with memory := mapped.memory, pagingData := mapped.context }.setPc cpu
        (if grant.backingFile.isSome then .readFile page frame else .zeroRest page frame 0)
    | _ => none
  | .readFile cpu result =>
    match s.pc cpu, result with
    | .readFile _ _, none => some (s.setPc cpu .idle)
    | .readFile page frame, some bytesReadFromFile => do
      assert (decide (bytesReadFromFile ≤ pageSize))
      return s.setPc cpu (.zeroRest page frame bytesReadFromFile)
    | _, _ => none
  | .zeroRest cpu =>
    match s.pc cpu with
    | .zeroRest _ _ _ =>
      some ({ s with pageFaults := Function.update s.pageFaults cpu (s.pageFaults cpu + 1) }.setPc
        cpu .idle)
    | _ => none

/-- Handlers start idle, on a tree of paging structures and frames that are page addresses. -/
def faultSystem : TransitionSystem (FaultState Cpu) (FaultAction Cpu) where
  init s := PagingTree s.memory s.pagingData ∧ (∀ cpu, s.pc cpu = .idle) ∧
    ∀ pa, s.isFree pa = true → PageAddress pa
  step := faultStep vmmData reservationSize space

/-- What is recorded of a run: the frames reserved for a page, and the frame of a page whose
population is finished. -/
inductive FaultEvent
  | reserved (page frame : Nat)
  | finished (page frame : Nat)
  deriving DecidableEq

def faultEvents (s : FaultState Cpu) : FaultAction Cpu → List FaultEvent
  | .reserveFrame cpu pa =>
    match s.pc cpu with
    | .reserveFrame page _ => [.reserved page pa]
    | _ => []
  | .zeroRest cpu =>
    match s.pc cpu with
    | .zeroRest page frame _ => [.finished page frame]
    | _ => []
  | _ => []

/-- The frame the first finished fault installed at a page. -/
def firstFinished (page : Nat) (record : List FaultEvent) : Option Nat :=
  record.findSome? fun event =>
    match event with
    | .finished page' frame => if page' = page then some frame else none
    | .reserved _ _ => none

def MapsTo (s : FaultState Cpu) (page frame : Nat) : Prop :=
  (s.memory.leafAt s.pagingData.basePhysicalAddress (tableOffsets page)).map
    (fun leaf => leaf.1.physicalAddress) = some frame

instance (s : FaultState Cpu) (page frame : Nat) : Decidable (MapsTo s page frame) :=
  inferInstanceAs (Decidable (_ = _))

/-- A handler that is about to map finds its page absent. -/
def FindsAbsentPage (s : FaultState Cpu) : FaultPc → Prop
  | .mapPage page _ _ => ¬ IsMapped s.memory s.pagingData page
  | _ => True

instance (s : FaultState Cpu) : ∀ pc, Decidable (FindsAbsentPage s pc)
  | .mapPage _ _ _ => inferInstanceAs (Decidable (¬ _))
  | .idle | .checkAccess _ _ | .reserveFrame _ _ | .readFile _ _ | .zeroRest _ _ _ =>
    .isTrue trivial

def MapsAbsentPage (s : FaultState Cpu) : FaultAction Cpu → Prop
  | .mapPage cpu => FindsAbsentPage s (s.pc cpu)
  | _ => True

instance (s : FaultState Cpu) : ∀ action, Decidable (MapsAbsentPage s action)
  | .mapPage cpu => inferInstanceAs (Decidable (FindsAbsentPage s (s.pc cpu)))
  | .fault _ _ _ | .checkAccess _ _ | .reserveFrame _ _ | .readFile _ _ | .zeroRest _ =>
    .isTrue trivial

/-- What a handler relies on where it is. -/
def PcInv (s : FaultState Cpu) : FaultPc → Prop
  | .idle => True
  | .checkAccess faultingAddress _ => faultingAddress < qwordModulus
  | .reserveFrame page _ => page < qwordModulus
  | .mapPage page _ frame => page < qwordModulus ∧ PageAddress frame
  | .readFile page frame => MapsTo s page frame
  | .zeroRest page frame _ => MapsTo s page frame

structure FaultInv (p : FaultState Cpu × List FaultEvent) : Prop where
  tree : PagingTree p.1.memory p.1.pagingData
  free_address : ∀ pa, p.1.isFree pa = true → PageAddress pa
  pc : ∀ cpu, PcInv p.1 (p.1.pc cpu)
  finished : ∀ page frame, .finished page frame ∈ p.2 → MapsTo p.1 page frame
  reserved : ∀ page frame, .reserved page frame ∈ p.2 →
    MapsTo p.1 page frame ∨ ∃ cpu grant, p.1.pc cpu = .mapPage page grant frame

variable {s s' : FaultState Cpu} {record : List FaultEvent}

omit [DecidableEq Cpu] in
private theorem PcInv.keeps (hkeeps : ∀ page frame, MapsTo s page frame → MapsTo s' page frame)
    {pc : FaultPc} (h : PcInv s pc) : PcInv s' pc := by
  cases pc with
  | idle => trivial
  | checkAccess => exact h
  | reserveFrame => exact h
  | mapPage => exact h
  | readFile page frame => exact hkeeps page frame h
  | zeroRest page frame => exact hkeeps page frame h

/-- What the record of a step promises of the state after it. -/
def EventInv (s : FaultState Cpu) (pc : FaultPc) : FaultEvent → Prop
  | .reserved page frame => ∃ grant, pc = .mapPage page grant frame
  | .finished page frame => MapsTo s page frame

private theorem FaultInv.next (h : FaultInv (s,record)) (s' : FaultState Cpu) (cpu : Cpu)
    (pc : FaultPc) (htree : PagingTree s'.memory s'.pagingData)
    (hfree : ∀ pa, s'.isFree pa = true → PageAddress pa)
    (hkeeps : ∀ page frame, MapsTo s page frame → MapsTo s' page frame)
    (hpcs : s'.pc = Function.update s.pc cpu pc) (hpc : PcInv s' pc)
    (hleft : ∀ page grant frame, s.pc cpu = .mapPage page grant frame → MapsTo s' page frame)
    (events : List FaultEvent) (hevents : ∀ event ∈ events, EventInv s' pc event) :
    FaultInv (s',record ++ events) := by
  have hself : s'.pc cpu = pc := by rw [hpcs,Function.update_self]
  have hother : ∀ other, other ≠ cpu → s'.pc other = s.pc other := by
    intro other hne
    rw [hpcs,Function.update_of_ne hne]
  refine ⟨htree,hfree,?_,?_,?_⟩
  · intro other
    by_cases hcpu : other = cpu
    · rw [hcpu,hself]
      exact hpc
    · rw [hother other hcpu]
      exact (h.pc other).keeps hkeeps
  · intro page frame hmem
    rcases List.mem_append.mp hmem with hold | hnew
    · exact hkeeps page frame (h.finished page frame hold)
    · exact hevents _ hnew
  · intro page frame hmem
    rcases List.mem_append.mp hmem with hold | hnew
    · rcases h.reserved page frame hold with hmapped | ⟨other,grant,hat⟩
      · exact Or.inl (hkeeps page frame hmapped)
      · by_cases hcpu : other = cpu
        · rw [hcpu] at hat
          exact Or.inl (hleft page grant frame hat)
        · refine Or.inr ⟨other,grant,?_⟩
          rw [hother other hcpu]
          exact hat
    · obtain ⟨grant,hat⟩ := hevents _ hnew
      exact Or.inr ⟨cpu,grant,hself.trans hat⟩

private theorem FaultInv.setPc (h : FaultInv (s,record)) (cpu : Cpu) (pc : FaultPc)
    (hpc : PcInv s pc)
    (hleft : ∀ page grant frame, s.pc cpu ≠ .mapPage page grant frame)
    (events : List FaultEvent) (hevents : ∀ event ∈ events, EventInv s pc event) :
    FaultInv (s.setPc cpu pc,record ++ events) :=
  h.next (s.setPc cpu pc) cpu pc h.tree h.free_address (fun _ _ hmapped => hmapped) rfl hpc
    (fun page grant frame hat => absurd hat (hleft page grant frame)) events hevents

private theorem mapPage_step (h : FaultInv (s,record)) {cpu : Cpu} {page frame : Nat}
    {grant : AccessGrant} (hat : s.pc cpu = .mapPage page grant frame)
    (habsent : ¬ IsMapped s.memory s.pagingData page) {mapped : WalkState PagingData}
    (hmap : mmuMapMemoryInternal vmmData s.memory s.pagingData frame pageSize grant.memoryRights
      page true grant.uncacheable = some mapped) {pc : FaultPc}
    (hpc : ∀ s' : FaultState Cpu, MapsTo s' page frame → PcInv s' pc) :
    FaultInv ({ s with memory := mapped.memory, pagingData := mapped.context }.setPc cpu pc,
      record ++ []) := by
  have hplace : page < qwordModulus ∧ PageAddress frame := by
    have := h.pc cpu
    rw [hat] at this
    exact this
  simp only [mmuMapMemoryInternal,Option.bind_eq_bind,Option.bind_eq_some_iff] at hmap
  obtain ⟨_,_,_,_,_,_,_,_,hmap⟩ := hmap
  have hpage := vmmMapMemoryInternal_page vmmData h.tree hplace.1 hmap
  have hbase : mapped.context.basePhysicalAddress = s.pagingData.basePhysicalAddress := by
    rw [hpage.pool]
  have hnew : MapsTo ({ s with memory := mapped.memory, pagingData := mapped.context }.setPc cpu pc)
      page frame := by
    have hdiff : ptrOffset frame (ptrDiff page page) = frame := by
      have := hplace.2.word
      simp only [ptrOffset,ptrDiff,Nat.add_sub_cancel_left,Nat.mod_self,Nat.add_zero]
      exact Nat.mod_eq_of_lt this
    show (mapped.memory.leafAt mapped.context.basePhysicalAddress (tableOffsets page)).map _ = _
    rw [hbase,hpage.leaf]
    simp [mapLeaf,mapEntry,pteMap,hdiff]
  refine h.next ({ s with memory := mapped.memory, pagingData := mapped.context }.setPc cpu pc) cpu
    pc hpage.tree h.free_address ?_ rfl (hpc _ hnew) ?_ [] (by simp)
  · intro page' frame' hmapped
    have hne : tableOffsets page' ≠ tableOffsets page := by
      intro heq
      apply habsent
      simp only [MapsTo,heq] at hmapped
      simp only [IsMapped]
      cases hleaf : s.memory.leafAt s.pagingData.basePhysicalAddress (tableOffsets page) with
      | none => simp [hleaf] at hmapped
      | some leaf => rfl
    show (mapped.memory.leafAt mapped.context.basePhysicalAddress (tableOffsets page')).map _ = _
    rw [hbase,hpage.others _ rfl hne]
    exact hmapped
  · intro page' grant' frame' hat'
    rw [hat] at hat'
    cases hat'
    exact hnew

private theorem FaultInv.step (h : FaultInv (s,record)) {action : FaultAction Cpu}
    (hguard : MapsAbsentPage s action)
    (hstep : faultStep vmmData reservationSize space s action = some s') :
    FaultInv (s',record ++ faultEvents s action) := by
  cases action with
  | fault cpu faultingAddress rightsRequested =>
    cases hpc : s.pc cpu <;> simp only [faultStep,hpc,reduceCtorEq] at hstep
    split_ifs at hstep with hword
    · obtain rfl := Option.some.inj hstep
      simpa [faultEvents] using h
    · obtain rfl := Option.some.inj hstep
      simpa [faultEvents] using h
    · obtain rfl := Option.some.inj hstep
      exact h.setPc cpu (.checkAccess faultingAddress rightsRequested) (by simpa [PcInv] using hword)
        (by simp [hpc]) [] (by simp)
  | checkAccess cpu metadataAccess =>
    cases hpc : s.pc cpu <;> simp only [faultStep,hpc,reduceCtorEq] at hstep
    rename_i faultingAddress rightsRequested
    have hword : faultingAddress < qwordModulus := by
      have := h.pc cpu
      rw [hpc] at this
      exact this
    obtain ⟨access,_,hstep⟩ := Option.bind_eq_some_iff.mp hstep
    cases access with
    | none =>
      obtain rfl := Option.some.inj hstep
      exact h.setPc cpu .idle trivial (by simp [hpc]) [] (by simp)
    | some grant =>
      obtain rfl := Option.some.inj hstep
      have hpage : alignAddressLower faultingAddress pageSize ≤ faultingAddress :=
        Nat.div_mul_le_self _ _
      exact h.setPc cpu (.reserveFrame (alignAddressLower faultingAddress pageSize) grant)
        (Nat.lt_of_le_of_lt hpage hword) (by simp [hpc]) [] (by simp)
  | reserveFrame cpu pa =>
    cases hpc : s.pc cpu <;> simp only [faultStep,hpc,reduceCtorEq] at hstep
    rename_i page grant
    obtain ⟨_,hfree,hstep⟩ := Option.bind_eq_some_iff.mp hstep
    obtain rfl := Option.some.inj hstep
    have hword : page < qwordModulus := by
      have := h.pc cpu
      rw [hpc] at this
      exact this
    have hframe := h.free_address pa (assert_eq_some.mp hfree)
    refine h.next ({ s with isFree := Function.update s.isFree pa false }.setPc cpu
      (.mapPage page grant pa)) cpu (.mapPage page grant pa) h.tree ?_
      (fun _ _ hmapped => hmapped) rfl ⟨hword,hframe⟩ ?_ _ ?_
    · intro pa' hpa'
      apply h.free_address
      by_cases hpa : pa' = pa
      · simp [FaultState.setPc,hpa] at hpa'
      · simpa [FaultState.setPc,hpa] using hpa'
    · simp [hpc]
    · simp [faultEvents,hpc,EventInv]
  | mapPage cpu =>
    cases hpc : s.pc cpu <;> simp only [faultStep,hpc,reduceCtorEq] at hstep
    rename_i page grant frame
    obtain ⟨mapped,hmap,hstep⟩ := Option.bind_eq_some_iff.mp hstep
    obtain rfl := Option.some.inj hstep
    have habsent : ¬ IsMapped s.memory s.pagingData page := by
      simpa only [MapsAbsentPage,FindsAbsentPage,hpc] using hguard
    apply mapPage_step vmmData h hpc habsent hmap
    intro s' hmapped
    cases grant.backingFile.isSome with
    | false => exact hmapped
    | true => exact hmapped
  | readFile cpu result =>
    cases hpc : s.pc cpu <;> cases result <;> simp only [faultStep,hpc,reduceCtorEq] at hstep
    · obtain rfl := Option.some.inj hstep
      exact h.setPc cpu .idle trivial (by simp [hpc]) [] (by simp)
    · rename_i page frame bytesReadFromFile
      obtain ⟨_,_,hstep⟩ := Option.bind_eq_some_iff.mp hstep
      obtain rfl := Option.some.inj hstep
      have hmapped := h.pc cpu
      rw [hpc] at hmapped
      exact h.setPc cpu (.zeroRest page frame bytesReadFromFile) hmapped (by simp [hpc]) [] (by simp)
  | zeroRest cpu =>
    cases hpc : s.pc cpu <;> simp only [faultStep,hpc,reduceCtorEq] at hstep
    obtain rfl := Option.some.inj hstep
    have hmapped := h.pc cpu
    rw [hpc] at hmapped
    refine h.next ({ s with
      pageFaults := Function.update s.pageFaults cpu (s.pageFaults cpu + 1) }.setPc cpu .idle) cpu
      .idle h.tree h.free_address (fun _ _ hmapped => hmapped) rfl trivial ?_ _ ?_
    · simp [hpc]
    · intro event hevent
      simp only [faultEvents,hpc,List.mem_singleton] at hevent
      rw [hevent]
      exact hmapped

theorem faultInv_of_reachable {p : FaultState Cpu × List FaultEvent}
    (h : ((faultSystem vmmData reservationSize space).recording faultEvents).ReachableUnder
      (fun p action => MapsAbsentPage p.1 action) p) : FaultInv p := by
  refine TransitionSystem.ReachableUnder.invariant ?_ ?_ h
  · intro p hinit
    obtain ⟨⟨htree,hidle,hfree⟩,hrecord⟩ := hinit
    refine ⟨htree,hfree,?_,?_,?_⟩
    · intro cpu
      rw [hidle cpu]
      trivial
    · simp [hrecord]
    · simp [hrecord]
  · intro p action p' _ hinv hguard hstep
    obtain ⟨hs,hrecord⟩ := TransitionSystem.recording_step.mp hstep
    have := hinv.step vmmData reservationSize space hguard hs
    rw [← hrecord] at this
    exact this

private theorem firstFinished_mem {page frame : Nat} {record : List FaultEvent}
    (h : firstFinished page record = some frame) : .finished page frame ∈ record := by
  obtain ⟨event,hmem,hevent⟩ := List.exists_of_findSome?_eq_some h
  cases event with
  | reserved => simp at hevent
  | finished page' frame' =>
    simp only [Option.ite_none_right_eq_some,Option.some.injEq] at hevent
    rw [← hevent.1,← hevent.2]
    exact hmem

/-- While every handler finds the page it maps absent, a page stays mapped to the frame of the
first fault that finished there, and no frame is lost: once every handler is done, each frame
reserved for a page is mapped there or free. -/
theorem finished_page_kept {p : FaultState Cpu × List FaultEvent}
    (h : ((faultSystem vmmData reservationSize space).recording faultEvents).ReachableUnder
      (fun p action => MapsAbsentPage p.1 action) p) :
    (∀ page frame, firstFinished page p.2 = some frame → MapsTo p.1 page frame) ∧
      ((∀ cpu, p.1.pc cpu = .idle) → ∀ page frame, .reserved page frame ∈ p.2 →
        MapsTo p.1 page frame ∨ p.1.isFree frame = true) := by
  have hinv := faultInv_of_reachable vmmData reservationSize space h
  refine ⟨?_,?_⟩
  · intro page frame hfirst
    exact hinv.finished page frame (firstFinished_mem hfirst)
  · intro hidle page frame hreserved
    rcases hinv.reserved page frame hreserved with hmapped | ⟨cpu,grant,hat⟩
    · exact Or.inl hmapped
    · rw [hidle cpu] at hat
      cases hat

end PageFault

/-- Two committed pages from 16 MB on. -/
def committedSpace : VmmReservationSpace :=
  ((vmReservationSpaceAllocRegion 56 exampleSpace
    ⟨0,0x2000,⟨true,true⟩,pageRightsReadWrite,false,none⟩).map (·.2.2)).getD exampleSpace

def exampleFaults : FaultState (Fin 2) where
  memory := emptyTables
  pagingData := ⟨0x100000,16,1,false⟩
  isFree pa := pa == 0x500000 || pa == 0x600000
  pc _ := .idle
  pageFaults _ := 0

private theorem exampleFaults_init : (faultSystem ⟨0,3⟩ 56 committedSpace).init exampleFaults := by
  refine ⟨(emptyTables_treeCondition ⟨by decide,by decide,by decide,by decide,by decide⟩ rfl).toPagingTree,
    fun _ => rfl,?_⟩
  intro pa hfree
  simp only [exampleFaults,Bool.or_eq_true,beq_iff_eq] at hfree
  rcases hfree with rfl | rfl
  · exact ⟨by decide,by decide,by decide⟩
  · exact ⟨by decide,by decide,by decide⟩

/-- Both processors reserve a frame before either maps, for the pages of these addresses. -/
def twoFaults (address₀ address₁ : Nat) : List (FaultAction (Fin 2)) :=
  [.fault 0 address₀ pageRightsReadWrite,.fault 1 address₁ pageRightsReadWrite,
    .checkAccess 0 false,.checkAccess 1 false,.reserveFrame 0 0x500000,.reserveFrame 1 0x600000,
    .mapPage 0,.zeroRest 0,.mapPage 1,.zeroRest 1]

/-- On two pages, each keeps the frame of its own handler. -/
theorem finished_page_kept_two : ∃ p : FaultState (Fin 2) × List FaultEvent,
    ((faultSystem ⟨0,3⟩ 56 committedSpace).recording faultEvents).ReachableUnder
      (fun p action => MapsAbsentPage p.1 action) p ∧
    firstFinished 0x1000000 p.2 = some 0x500000 ∧ MapsTo p.1 0x1000000 0x500000 ∧
      MapsTo p.1 0x1001000 0x600000 := by
  obtain ⟨p,hreach,hfirst⟩ := TransitionSystem.exists_reachable
    ((faultSystem ⟨0,3⟩ 56 committedSpace).recording faultEvents)
    (fun p action => MapsAbsentPage p.1 action) (exampleFaults,[])
    ⟨exampleFaults_init,rfl⟩ (twoFaults 0x1000010 0x1001020)
    (fun p => decide (firstFinished 0x1000000 p.2 = some 0x500000 ∧
      firstFinished 0x1001000 p.2 = some 0x600000)) (by decide +kernel) (by decide +kernel)
  obtain ⟨hfirst₀,hfirst₁⟩ := of_decide_eq_true hfirst
  have hkept := (finished_page_kept ⟨0,3⟩ 56 committedSpace hreach).1
  exact ⟨p,hreach,hfirst₀,hkept _ _ hfirst₀,hkept _ _ hfirst₁⟩

/-- On one page, the second handler replaces the frame of the finished first one, which is
then neither mapped nor free. -/
theorem finished_page_replaced : ∃ p : FaultState (Fin 2) × List FaultEvent,
    ((faultSystem ⟨0,3⟩ 56 committedSpace).recording faultEvents).Reachable p ∧
      (∀ cpu, p.1.pc cpu = .idle) ∧ firstFinished 0x1000000 p.2 = some 0x500000 ∧
      ¬ MapsTo p.1 0x1000000 0x500000 ∧ .reserved 0x1000000 0x500000 ∈ p.2 ∧
      p.1.isFree 0x500000 = false := by
  obtain ⟨p,hreach,hp⟩ := TransitionSystem.exists_reachable
    ((faultSystem ⟨0,3⟩ 56 committedSpace).recording faultEvents)
    (fun _ _ => True) (exampleFaults,[]) ⟨exampleFaults_init,rfl⟩
    (twoFaults 0x1000010 0x1000020)
    (fun p => decide ((∀ cpu, (p.1.pc cpu).isIdle = true) ∧
      firstFinished 0x1000000 p.2 = some 0x500000 ∧ ¬ MapsTo p.1 0x1000000 0x500000 ∧
      .reserved 0x1000000 0x500000 ∈ p.2 ∧ p.1.isFree 0x500000 = false))
    (TransitionSystem.runSatisfies_of_forall (fun _ _ => trivial) _ _) (by decide +kernel)
  obtain ⟨hidle,hrest⟩ := of_decide_eq_true hp
  refine ⟨p,hreach,?_,hrest⟩
  intro cpu
  have := hidle cpu
  cases hpc : p.1.pc cpu <;> simp_all [FaultPc.isIdle]

end Hal9000
