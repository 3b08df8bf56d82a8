import Hal9000.Memory.BackedFault
import Hal9000.Memory.TranslatedPages

/-!
# The steps of the fault handler

`VmmSolvePageFault` is one step where its result is in question, and one step for each lock where
other processors come between. What the one does the others do when nothing comes between.
-/

namespace Hal9000

variable {Cpu : Type} [DecidableEq Cpu] {Process : Type} [DecidableEq Process] {vmmData : VmmData}
  {reservationSize : Nat} {s s' : MemoryManager Process} {process : Option Process}
  {faultingAddress : Nat} {rightsRequested : PageRights} {metadataAccess solved : Bool}
  {fileRead : Option Nat}

omit [DecidableEq Process] in
theorem faultAccess_cases {access : Option AccessGrant}
    (h : faultAccess reservationSize s process faultingAddress rightsRequested metadataAccess =
      some access) :
    access = none ∧ (alignAddressLower faultingAddress pageSize = 0 ∨
        vmIsKernelAddress faultingAddress ≠ (s.pagingData process).kernelSpace) ∨
      alignAddressLower faultingAddress pageSize ≠ 0 ∧
        vmIsKernelAddress faultingAddress = (s.pagingData process).kernelSpace ∧
        vmReservationCanAddressBeAccessed reservationSize
          (vmmRetrieveReservationSpaceForAddress s process faultingAddress) metadataAccess
          faultingAddress rightsRequested = some access := by
  rw [faultAccess] at h
  split_ifs at h with hnull hkernel huser
  · exact Or.inl ⟨(Option.some.inj h).symm,Or.inl hnull⟩
  · left
    refine ⟨(Option.some.inj h).symm,Or.inr ?_⟩
    cases hva : vmIsKernelAddress faultingAddress <;> simp_all
  · left
    refine ⟨(Option.some.inj h).symm,Or.inr ?_⟩
    cases hva : vmIsKernelAddress faultingAddress <;> simp_all
  · refine Or.inr ⟨hnull,?_,h⟩
    cases hva : vmIsKernelAddress faultingAddress <;> simp_all

/-- The pages and the frames of a memory manager, as the handlers of one address space have them. -/
structure FaultState.Agrees (t : FaultState Cpu) (s : MemoryManager Process)
    (process : Option Process) : Prop where
  memory : t.memory = s.memory
  pagingData : t.pagingData = s.pagingData process
  free : ∀ frame, t.isFree (frame * pageSize) = true ↔ s.allocationBitmap.IsFree frame

omit [DecidableEq Process] in
/-- One frame is taken. -/
theorem pmmReserveMemory_one {bitmap bitmap' : Bitmap} {pa : Nat}
    (hreserve : pmmReserveMemory bitmap 1 = (pa,bitmap')) (hpa : pa ≠ 0) :
    ∃ index, pa = index * pageSize ∧ bitmap.IsFree index ∧
      ∀ frame, bitmap'.IsFree frame ↔ frame ≠ index ∧ bitmap.IsFree frame := by
  obtain ⟨index,hscan,rfl,rfl⟩ := (pmmReserveMemory_cases hreserve).resolve_left fun hnull =>
    hpa hnull.1
  obtain ⟨hbound,hclear⟩ := bitmapScanFrom_some hscan
  refine ⟨index,rfl,⟨by omega,hclear 0 (by omega)⟩,fun frame => ?_⟩
  simp only [Bitmap.IsFree,bitmapSetBits,Bool.or_eq_false_iff,decide_eq_false_iff_not]
  constructor
  · rintro ⟨hlt,hnot,hfree⟩
    exact ⟨by omega,hlt,hfree⟩
  · rintro ⟨hne,hlt,hfree⟩
    exact ⟨hlt,by omega,hfree⟩

omit [DecidableEq Cpu] in
theorem FaultState.Agrees.setReserved {t : FaultState Cpu} {pa : Nat} {bitmap : Bitmap}
    {mapped : WalkState PagingData} (h : t.Agrees s process)
    (hreserve : pmmReserveMemory s.allocationBitmap 1 = (pa,bitmap)) (hpa : pa ≠ 0)
    (pc : Cpu → FaultPc) (pageFaults : Cpu → Nat) :
    FaultState.Agrees ⟨mapped.memory,mapped.context,Function.update t.isFree pa false,pc,
      pageFaults⟩ (s.setReserved process bitmap mapped) process := by
  obtain ⟨index,rfl,_,hframes⟩ := pmmReserveMemory_one hreserve hpa
  refine ⟨rfl,?_,fun frame => ?_⟩
  · exact (Function.update_self process mapped.context s.pagingData).symm
  change Function.update t.isFree (index * pageSize) false (frame * pageSize) = true ↔
    bitmap.IsFree frame
  rw [hframes]
  by_cases heq : frame = index
  · rw [heq,Function.update_self]
    simp
  · have hne : frame * pageSize ≠ index * pageSize := by
      simp only [pageSize]
      omega
    rw [Function.update_of_ne hne,h.free]
    simp [heq]

/-- The steps of a handler that has the access granted. -/
def faultActions (cpu : Cpu) (faultingAddress : Nat) (rightsRequested : PageRights)
    (metadataAccess : Bool) (pa : Nat) (backingFile fileRead : Option Nat) :
    List (FaultAction Cpu) :=
  .fault cpu faultingAddress rightsRequested :: .checkAccess cpu metadataAccess ::
    .reserveFrame cpu pa :: .mapPage cpu :: match backingFile, fileRead with
      | none, _ => [.zeroRest cpu]
      | some _, none => [.readFile cpu none]
      | some _, some bytesRead => [.readFile cpu (some bytesRead),.zeroRest cpu]

section Steps

variable {space : VmmReservationSpace} {t : FaultState Cpu} {cpu : Cpu} {grant : AccessGrant}
  {pa page : Nat}

theorem fault_fault (hidle : t.pc cpu = .idle) (haddress : faultingAddress < qwordModulus)
    (hnull : alignAddressLower faultingAddress pageSize ≠ 0)
    (hkernel : vmIsKernelAddress faultingAddress = t.pagingData.kernelSpace) :
    faultStep vmmData reservationSize space t (.fault cpu faultingAddress rightsRequested) =
      some (t.setPc cpu (.checkAccess faultingAddress rightsRequested)) := by
  simp only [faultStep,hidle,haddress,not_true_eq_false,hnull,hkernel,ne_eq,if_false]

theorem fault_checkAccess (hpc : t.pc cpu = .checkAccess faultingAddress rightsRequested)
    (hgranted : vmReservationCanAddressBeAccessed reservationSize space metadataAccess
      faultingAddress rightsRequested = some (some grant)) :
    faultStep vmmData reservationSize space t (.checkAccess cpu metadataAccess) =
      some (t.setPc cpu (.reserveFrame (alignAddressLower faultingAddress pageSize) grant)) := by
  simp only [faultStep,hpc,hgranted,Option.bind_eq_bind,Option.bind_some]
  rfl

theorem fault_reserveFrame (hpc : t.pc cpu = .reserveFrame page grant)
    (hfree : t.isFree pa = true) :
    faultStep vmmData reservationSize space t (.reserveFrame cpu pa) =
      some ({ t with isFree := Function.update t.isFree pa false }.setPc cpu
        (.mapPage page grant pa)) := by
  simp only [faultStep,hpc,hfree,assert_true,Option.bind_eq_bind,Option.bind_some]
  rfl

theorem fault_mapPage {mapped : WalkState PagingData} (hpc : t.pc cpu = .mapPage page grant pa)
    (hmap : mmuMapMemoryInternal vmmData t.memory t.pagingData pa pageSize grant.memoryRights page
      true grant.uncacheable = some mapped) :
    faultStep vmmData reservationSize space t (.mapPage cpu) =
      some ({ t with memory := mapped.memory, pagingData := mapped.context }.setPc cpu
        (if grant.backingFile.isSome then .readFile page pa else .zeroRest page pa 0)) := by
  simp only [faultStep,hpc,hmap,Option.bind_eq_bind,Option.bind_some]
  rfl

theorem fault_readFile (hpc : t.pc cpu = .readFile page pa)
    (hread : ∀ bytesRead ∈ fileRead, bytesRead ≤ pageSize) :
    faultStep vmmData reservationSize space t (.readFile cpu fileRead) =
      some (t.setPc cpu (match fileRead with
        | some bytesRead => .zeroRest page pa bytesRead
        | none => .idle)) := by
  cases fileRead with
  | none => simp only [faultStep,hpc]
  | some bytesRead =>
    simp only [faultStep,hpc,decide_eq_true (hread bytesRead rfl),assert_true,Option.bind_eq_bind,
      Option.bind_some]
    rfl

theorem fault_zeroRest {bytesRead : Nat} (hpc : t.pc cpu = .zeroRest page pa bytesRead) :
    faultStep vmmData reservationSize space t (.zeroRest cpu) =
      some ({ t with pageFaults := Function.update t.pageFaults cpu (t.pageFaults cpu + 1) }.setPc
        cpu .idle) := by
  simp only [faultStep,hpc]

theorem FaultState.setPc_pc (pc : FaultPc) : (t.setPc cpu pc).pc cpu = pc :=
  Function.update_self _ _ _

theorem FaultState.setPc_setPc (pc pc' : FaultPc) :
    (t.setPc cpu pc).setPc cpu pc' = t.setPc cpu pc' := by
  simp only [FaultState.setPc,Function.update_idem]

private theorem faultRun_cons {t' : FaultState Cpu} {action : FaultAction Cpu}
    (h : faultStep vmmData reservationSize space t action = some t')
    (actions : List (FaultAction Cpu)) :
    (faultSystem vmmData reservationSize space).run t (action :: actions) =
      (faultSystem vmmData reservationSize space).run t' actions := by
  change (faultStep vmmData reservationSize space t action).bind _ = _
  rw [h,Option.bind_some]

theorem fault_mapped {mapped : WalkState PagingData} (hidle : t.pc cpu = .idle)
    (haddress : faultingAddress < qwordModulus)
    (hnull : alignAddressLower faultingAddress pageSize ≠ 0)
    (hkernel : vmIsKernelAddress faultingAddress = t.pagingData.kernelSpace)
    (hgranted : vmReservationCanAddressBeAccessed reservationSize space metadataAccess
      faultingAddress rightsRequested = some (some grant)) (hfree : t.isFree pa = true)
    (hmap : mmuMapMemoryInternal vmmData t.memory t.pagingData pa pageSize grant.memoryRights
      (alignAddressLower faultingAddress pageSize) true grant.uncacheable = some mapped)
    (actions : List (FaultAction Cpu)) :
    (faultSystem vmmData reservationSize space).run t
        (.fault cpu faultingAddress rightsRequested :: .checkAccess cpu metadataAccess ::
          .reserveFrame cpu pa :: .mapPage cpu :: actions) =
      (faultSystem vmmData reservationSize space).run
        (FaultState.setPc ⟨mapped.memory,mapped.context,Function.update t.isFree pa false,t.pc,
          t.pageFaults⟩ cpu (if grant.backingFile.isSome then
            .readFile (alignAddressLower faultingAddress pageSize) pa
          else .zeroRest (alignAddressLower faultingAddress pageSize) pa 0)) actions := by
  rw [faultRun_cons (fault_fault hidle haddress hnull hkernel),
    faultRun_cons (fault_checkAccess (FaultState.setPc_pc _) hgranted),FaultState.setPc_setPc,
    faultRun_cons (fault_reserveFrame (FaultState.setPc_pc _) hfree),
    faultRun_cons (fault_mapPage (FaultState.setPc_pc _) (by exact hmap))]
  simp only [FaultState.setPc,Function.update_idem]

theorem fault_granted {mapped : WalkState PagingData} (hidle : t.pc cpu = .idle)
    (haddress : faultingAddress < qwordModulus)
    (hnull : alignAddressLower faultingAddress pageSize ≠ 0)
    (hkernel : vmIsKernelAddress faultingAddress = t.pagingData.kernelSpace)
    (hgranted : vmReservationCanAddressBeAccessed reservationSize space metadataAccess
      faultingAddress rightsRequested = some (some grant)) (hfree : t.isFree pa = true)
    (hmap : mmuMapMemoryInternal vmmData t.memory t.pagingData pa pageSize grant.memoryRights
      (alignAddressLower faultingAddress pageSize) true grant.uncacheable = some mapped)
    (hread : ∀ bytesRead ∈ fileRead, bytesRead ≤ pageSize)
    (hsolved : solved = false ↔ grant.backingFile.isSome = true ∧ fileRead = none) :
    (faultSystem vmmData reservationSize space).run t (faultActions cpu faultingAddress
      rightsRequested metadataAccess pa grant.backingFile fileRead) =
        some ⟨mapped.memory,mapped.context,Function.update t.isFree pa false,t.pc,
          Function.update t.pageFaults cpu (t.pageFaults cpu + if solved then 1 else 0)⟩ := by
  have hback : Function.update t.pc cpu .idle = t.pc := by rw [← hidle,Function.update_eq_self]
  unfold faultActions
  rw [fault_mapped hidle haddress hnull hkernel hgranted hfree hmap]
  cases hfile : grant.backingFile with
  | none =>
    obtain rfl : solved = true := by simpa [hfile] using hsolved
    rw [Option.isSome_none,if_neg Bool.false_ne_true,
      faultRun_cons (fault_zeroRest (FaultState.setPc_pc _))]
    simp [TransitionSystem.run,FaultState.setPc,hback]
  | some file =>
    rw [Option.isSome_some,if_pos rfl]
    cases fileRead with
    | none =>
      obtain rfl : solved = false := by simpa [hfile] using hsolved
      rw [faultRun_cons (fault_readFile (FaultState.setPc_pc _) hread)]
      simp [TransitionSystem.run,FaultState.setPc,hback]
    | some bytesRead =>
      obtain rfl : solved = true := by simpa [hfile] using hsolved
      rw [faultRun_cons (fault_readFile (FaultState.setPc_pc _) hread),FaultState.setPc_setPc,
        faultRun_cons (fault_zeroRest (FaultState.setPc_pc _))]
      simp [TransitionSystem.run,FaultState.setPc,hback]

end Steps

theorem vmmSolvePageFault_faultSteps {t : FaultState Cpu} {cpu : Cpu} (h : t.Agrees s process)
    (hidle : t.pc cpu = .idle) (haddress : faultingAddress < qwordModulus)
    (hread : ∀ bytesRead ∈ fileRead, bytesRead ≤ pageSize)
    (hsolve : vmmSolveBackedPageFault vmmData reservationSize s process faultingAddress
      rightsRequested metadataAccess fileRead = some (solved,s')) :
    ∃ actions t', (faultSystem vmmData reservationSize
        (vmmRetrieveReservationSpaceForAddress s process faultingAddress)).run t actions =
          some t' ∧
      t'.Agrees s' process ∧ t'.pc = t.pc ∧ t'.pageFaults =
        Function.update t.pageFaults cpu (t.pageFaults cpu + if solved then 1 else 0) := by
  rcases vmmSolveBackedPageFault_cases hsolve with ⟨haccess,rfl,rfl⟩ |
    ⟨grant,pa,bitmap,mapped,haccess,hreserve,hpa,hmap,rfl,hsolved⟩
  · rcases faultAccess_cases haccess with ⟨-,hrefused⟩ | ⟨hnull,hspace,hrefused⟩
    · refine ⟨[.fault cpu faultingAddress rightsRequested],t,?_,h,rfl,by simp⟩
      rw [← h.pagingData] at hrefused
      simp only [TransitionSystem.run,faultSystem,faultStep,hidle,haddress]
      rcases hrefused with hnull | hspace
      · simp [hnull]
      · simp [hspace]
    · rw [← h.pagingData] at hspace
      refine ⟨[.fault cpu faultingAddress rightsRequested,.checkAccess cpu metadataAccess],
        t,?_,h,rfl,by simp⟩
      simp only [TransitionSystem.run,faultSystem,faultStep,hidle,haddress,FaultState.setPc]
      simp [hnull,hspace,hrefused,← hidle]
  · obtain ⟨hnull,hspace,hgranted⟩ : alignAddressLower faultingAddress pageSize ≠ 0 ∧ _ ∧ _ :=
      (faultAccess_cases haccess).resolve_left fun hrefused => by cases hrefused.1
    obtain ⟨index,rfl,hfree,-⟩ := pmmReserveMemory_one hreserve hpa
    have hfree : t.isFree (index * pageSize) = true := (h.free index).mpr hfree
    rw [← h.pagingData] at hspace
    have hmap : mmuMapMemoryInternal vmmData t.memory t.pagingData (index * pageSize) pageSize
        grant.memoryRights (alignAddressLower faultingAddress pageSize) true grant.uncacheable =
          some mapped := by rw [h.memory,h.pagingData,hmap]
    exact ⟨_,_,fault_granted hidle haddress hnull hspace hgranted hfree hmap hread hsolved,
      h.setReserved hreserve hpa t.pc _,rfl,rfl⟩

/-- The steps of a handler among the other calls of its address space. -/
def raceActions (cpu : Cpu) (faultingAddress : Nat) (rightsRequested : PageRights)
    (metadataAccess : Bool) (pa : Nat) (backingFile fileRead : Option Nat) :
    List (RaceAction Cpu) :=
  .fault cpu faultingAddress rightsRequested :: .checkAccess cpu metadataAccess ::
    .reserveFrames cpu pa :: .continue cpu :: match backingFile, fileRead with
      | none, _ => [.continue cpu]
      | some _, none => [.readFile cpu none]
      | some _, some bytesRead => [.readFile cpu (some bytesRead),.continue cpu]

theorem eq_of_mem_walkedPages {page walked : Nat} (hpage : page < qwordModulus)
    (h : walked ∈ walkedPages page pageSize) : walked = page := by
  obtain ⟨k,hk,rfl⟩ := (mem_walkedPages_iff rfl).mp h
  have hone : pageSize / pageSize = 1 := rfl
  obtain rfl : k = 0 := by omega
  rw [walkAddress,ptrOffset,Nat.zero_mul,Nat.add_zero,Nat.mod_eq_of_lt hpage]

section Race

variable {t : RegionState Cpu} {cpu : Cpu} {kernelSpace : Bool} {grant : AccessGrant} {pa page : Nat}

theorem race_fault (hidle : t.pc cpu = .idle) (haddress : faultingAddress < qwordModulus)
    (hnull : alignAddressLower faultingAddress pageSize ≠ 0)
    (hkernel : vmIsKernelAddress faultingAddress = kernelSpace) :
    raceStep reservationSize kernelSpace t (.fault cpu faultingAddress rightsRequested) =
      some (t.setPc cpu (.checkAccess faultingAddress rightsRequested)) := by
  simp only [raceStep,hidle,faultCall,haddress,not_true_eq_false,hnull,hkernel,ne_eq,if_false]

theorem race_checkAccess (hpc : t.pc cpu = .checkAccess faultingAddress rightsRequested)
    (hgranted : vmReservationCanAddressBeAccessed reservationSize t.space metadataAccess
      faultingAddress rightsRequested = some (some grant)) :
    raceStep reservationSize kernelSpace t (.checkAccess cpu metadataAccess) =
      some (t.setPc cpu (.reserveFrame (alignAddressLower faultingAddress pageSize) grant)) := by
  simp only [raceStep,hpc,hgranted,Option.bind_eq_bind,Option.bind_some]
  rfl

theorem race_reserveFrame (hpc : t.pc cpu = .reserveFrame page grant) (hpa : pa ≠ 0) :
    raceStep reservationSize kernelSpace t (.reserveFrames cpu pa) =
      some (t.setPc cpu (.mapPage page grant pa)) := by
  simp only [raceStep,hpc,bne_iff_ne.mpr hpa,assert_true,Option.bind_eq_bind,Option.bind_some]
  rfl

theorem race_mapPage {translation : Nat → Option Nat} (hpc : t.pc cpu = .mapPage page grant pa)
    (hmap : mapPages t.translation pa pageSize page true = some translation) :
    raceStep reservationSize kernelSpace t (.continue cpu) =
      some ((t.setTranslation translation).setPc cpu (match grant.backingFile with
        | some file => .readPage page file grant.fileOffset
        | none => .zeroPage page 0)) := by
  simp only [raceStep,continueStep,hpc,hmap,Option.bind_eq_bind,Option.bind_some]
  rfl

theorem race_readPage {file fileOffset : Nat}
    (hpc : t.pc cpu = .readPage page file fileOffset)
    (hread : ∀ bytesRead ∈ fileRead, bytesRead ≤ pageSize) :
    raceStep reservationSize kernelSpace t (.readFile cpu fileRead) =
      some (t.setPc cpu (match fileRead with
        | some bytesRead => .zeroPage page bytesRead
        | none => .idle)) := by
  cases fileRead with
  | none => simp only [raceStep,hpc]
  | some bytesRead =>
    simp only [raceStep,hpc,decide_eq_true (hread bytesRead rfl),assert_true,Option.bind_eq_bind,
      Option.bind_some]
    rfl

theorem race_zeroPage {bytesRead : Nat} (hpc : t.pc cpu = .zeroPage page bytesRead) :
    raceStep reservationSize kernelSpace t (.continue cpu) = some (t.setPc cpu .idle) := by
  simp only [raceStep,continueStep,hpc]

theorem RegionState.setPc_pc (pc : RegionPc) : (t.setPc cpu pc).pc cpu = pc :=
  Function.update_self _ _ _

theorem RegionState.setPc_setPc (pc pc' : RegionPc) :
    (t.setPc cpu pc).setPc cpu pc' = t.setPc cpu pc' := by
  simp only [RegionState.setPc,Function.update_idem]

private theorem raceRun_cons {t' : RegionState Cpu} {action : RaceAction Cpu}
    (h : raceStep reservationSize kernelSpace t action = some t')
    (actions : List (RaceAction Cpu)) :
    (raceSystem reservationSize kernelSpace).run t (action :: actions) =
      (raceSystem reservationSize kernelSpace).run t' actions := by
  change (raceStep reservationSize kernelSpace t action).bind _ = _
  rw [h,Option.bind_some]

theorem race_granted {translation : Nat → Option Nat} (hidle : t.pc cpu = .idle)
    (haddress : faultingAddress < qwordModulus)
    (hnull : alignAddressLower faultingAddress pageSize ≠ 0)
    (hkernel : vmIsKernelAddress faultingAddress = kernelSpace)
    (hgranted : vmReservationCanAddressBeAccessed reservationSize t.space metadataAccess
      faultingAddress rightsRequested = some (some grant)) (hpa : pa ≠ 0)
    (hmap : mapPages t.translation pa pageSize (alignAddressLower faultingAddress pageSize) true =
      some translation) (hread : ∀ bytesRead ∈ fileRead, bytesRead ≤ pageSize) :
    (raceSystem reservationSize kernelSpace).run t (raceActions cpu faultingAddress rightsRequested
      metadataAccess pa grant.backingFile fileRead) = some (t.setTranslation translation) := by
  have hback : (t.setTranslation translation).setPc cpu .idle = t.setTranslation translation := by
    simp only [RegionState.setPc,RegionState.setTranslation,← hidle,Function.update_eq_self]
  have hmoved (pc pc' : RegionPc) : ((t.setPc cpu pc).setTranslation translation).setPc cpu pc' =
      (t.setTranslation translation).setPc cpu pc' := by
    simp only [RegionState.setPc,RegionState.setTranslation,Function.update_idem]
  unfold raceActions
  rw [raceRun_cons (race_fault hidle haddress hnull hkernel),
    raceRun_cons (race_checkAccess (RegionState.setPc_pc _) hgranted),RegionState.setPc_setPc,
    raceRun_cons (race_reserveFrame (RegionState.setPc_pc _) hpa),RegionState.setPc_setPc,
    raceRun_cons (race_mapPage (RegionState.setPc_pc _) hmap),hmoved]
  cases grant.backingFile with
  | none =>
    rw [raceRun_cons (race_zeroPage (RegionState.setPc_pc _)),RegionState.setPc_setPc,hback]
    rfl
  | some file =>
    cases fileRead with
    | none =>
      rw [raceRun_cons (race_readPage (RegionState.setPc_pc _) hread),RegionState.setPc_setPc,hback]
      rfl
    | some bytesRead =>
      rw [raceRun_cons (race_readPage (RegionState.setPc_pc _) hread),RegionState.setPc_setPc,
        raceRun_cons (race_zeroPage (RegionState.setPc_pc _)),RegionState.setPc_setPc,hback]
      rfl

end Race

theorem vmmSolvePageFault_raceSteps {t : RegionState Cpu} {cpu : Cpu} {pages : Set Nat}
    {paths : Finset (List (Fin 512))} (hpaths : ∀ path ∈ paths, path.length ≤ 3)
    (hwalk : WalkInv paths s.memory (s.pagingData process))
    (hsub : rangePaths (alignAddressLower faultingAddress pageSize) 1 ⊆ paths)
    (hpage : alignAddressLower faultingAddress pageSize ∈ pages)
    (h : Translates pages s.memory (s.pagingData process).basePhysicalAddress t.translation)
    (hspace : t.space = vmmRetrieveReservationSpaceForAddress s process faultingAddress)
    (hidle : t.pc cpu = .idle) (haddress : faultingAddress < qwordModulus)
    (hread : ∀ bytesRead ∈ fileRead, bytesRead ≤ pageSize)
    (hsolve : vmmSolveBackedPageFault vmmData reservationSize s process faultingAddress
      rightsRequested metadataAccess fileRead = some (solved,s')) :
    ∃ actions translation, (raceSystem reservationSize (s.pagingData process).kernelSpace).run t
        actions = some (t.setTranslation translation) ∧
      Translates pages s'.memory (s'.pagingData process).basePhysicalAddress translation := by
  rcases vmmSolveBackedPageFault_cases hsolve with ⟨haccess,rfl,rfl⟩ |
    ⟨grant,pa,bitmap,mapped,haccess,hreserve,hpa,hmap,rfl,hsolved⟩
  · rcases faultAccess_cases haccess with ⟨-,hrefused⟩ | ⟨hnull,hkernel,hrefused⟩
    · refine ⟨[.fault cpu faultingAddress rightsRequested],t.translation,?_,h⟩
      simp only [TransitionSystem.run,raceSystem,raceStep,faultCall,hidle,haddress]
      rcases hrefused with hnull | hkernel
      · simp [hnull,RegionState.setTranslation]
      · simp [hkernel,RegionState.setTranslation]
    · rw [← hspace] at hrefused
      refine ⟨[.fault cpu faultingAddress rightsRequested,.checkAccess cpu metadataAccess],
        t.translation,?_,h⟩
      simp only [TransitionSystem.run,raceSystem,raceStep,faultCall,hidle,haddress,
        RegionState.setPc]
      simp [hnull,hkernel,hrefused,← hidle,RegionState.setTranslation]
  · obtain ⟨hnull,hkernel,hgranted⟩ : alignAddressLower faultingAddress pageSize ≠ 0 ∧ _ ∧ _ :=
      (faultAccess_cases haccess).resolve_left fun hrefused => by cases hrefused.1
    rw [← hspace] at hgranted
    have hva : alignAddressLower faultingAddress pageSize < qwordModulus :=
      lt_of_le_of_lt (Nat.div_mul_le_self _ _) haddress
    have hone : pageSize / pageSize = 1 := rfl
    have hpages : ∀ walked ∈ walkedPages (alignAddressLower faultingAddress pageSize) pageSize,
        walked ∈ pages := by
      intro walked hwalked
      rw [eq_of_mem_walkedPages hva hwalked]
      exact hpage
    rw [← hone] at hsub
    obtain ⟨translation,htranslation,htranslates⟩ := mapPages_refines
      (s := ⟨s.memory,s.pagingData process⟩) hpaths hva (by decide) hsub hwalk h hpages hmap
    refine ⟨raceActions cpu faultingAddress rightsRequested metadataAccess pa grant.backingFile
      fileRead,translation,?_,?_⟩
    · exact race_granted hidle haddress hnull hkernel hgranted hpa htranslation hread
    · have hroot : (Function.update s.pagingData process mapped.context process) = mapped.context :=
        Function.update_self _ _ _
      change Translates pages mapped.memory
        (Function.update s.pagingData process mapped.context process).basePhysicalAddress translation
      rw [hroot]
      exact htranslates

end Hal9000
