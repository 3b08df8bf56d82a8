import Hal9000.Memory.RegionBacking

/-!
# Faults on pages of a file

`VmmSolvePageFault` with the read of the backing file. The page is mapped before its contents are
read, and what was done for it stays if the read fails.
-/

namespace Hal9000

section Functions

variable {Process : Type} [DecidableEq Process]
variable (vmmData : VmmData) (reservationSize : Nat) (s : MemoryManager Process)
  (process : Option Process) (faultingAddress : Nat) (rightsRequested : PageRights)
  (metadataAccess : Bool)

/-- What is known of the access before the `__try` block; the inner `none` is `FALSE`. -/
def faultAccess : Option (Option AccessGrant) :=
  if alignAddressLower faultingAddress pageSize = 0 then some none
  else if vmIsKernelAddress faultingAddress && !(s.pagingData process).kernelSpace then some none
  else if !vmIsKernelAddress faultingAddress && (s.pagingData process).kernelSpace then some none
  else vmReservationCanAddressBeAccessed reservationSize
    (vmmRetrieveReservationSpaceForAddress s process faultingAddress) metadataAccess faultingAddress
    rightsRequested

/-- `VmmSolvePageFault`. `fileRead` is the number of bytes `IoReadFile` reads, if it does. -/
def vmmSolveBackedPageFault (fileRead : Option Nat) : Option (Bool × MemoryManager Process) := do
  match ← faultAccess reservationSize s process faultingAddress rightsRequested metadataAccess with
  | none => return (false,s)
  | some grant =>
    let (pa, bitmap) := pmmReserveMemory s.allocationBitmap 1
    assert (pa != 0)
    let mapped ← mmuMapMemoryInternal vmmData s.memory (s.pagingData process) pa pageSize
      grant.memoryRights (alignAddressLower faultingAddress pageSize) true grant.uncacheable
    let s := s.setReserved process bitmap mapped
    match grant.backingFile, fileRead with
    | none, _ => return (true,s)
    | some _, none => return (false,s)
    | some _, some bytesReadFromFile =>
      assert (decide (bytesReadFromFile ≤ pageSize))
      return (true,s)

theorem vmmSolveBackedPageFault_read {bytesReadFromFile : Nat} (hread : bytesReadFromFile ≤ pageSize) :
    vmmSolveBackedPageFault vmmData reservationSize s process faultingAddress rightsRequested
        metadataAccess (some bytesReadFromFile) =
      vmmSolvePageFault vmmData reservationSize s process faultingAddress rightsRequested
        metadataAccess := by
  simp only [vmmSolveBackedPageFault,faultAccess,vmmSolvePageFault]
  split
  · rfl
  · split
    · rfl
    · split
      · rfl
      · congr 1
        funext access
        cases access with
        | none => rfl
        | some grant =>
          simp only [Option.bind_eq_bind]
          cases assert ((pmmReserveMemory s.allocationBitmap 1).1 != 0) with
          | none => rfl
          | some _ =>
            simp only [Option.bind_some]
            generalize mmuMapMemoryInternal _ _ _ _ _ _ _ _ _ = mapped
            cases mapped with
            | none => rfl
            | some mapped =>
              cases hfile : grant.backingFile with
              | none => rfl
              | some file =>
                simp only [decide_eq_true hread,assert_true]
                rfl

end Functions

section Fault

variable {Process : Type} [DecidableEq Process] {vmmData : VmmData} {reservationSize : Nat}
  {s s' : MemoryManager Process} {process : Option Process} {faultingAddress : Nat}
  {rightsRequested : PageRights} {metadataAccess solved : Bool} {fileRead : Option Nat}

/-- The access is refused, or a frame is taken and mapped; the latter ends in `FALSE` where there
is a file that cannot be read. -/
theorem vmmSolveBackedPageFault_cases
    (h : vmmSolveBackedPageFault vmmData reservationSize s process faultingAddress rightsRequested
      metadataAccess fileRead = some (solved,s')) :
    faultAccess reservationSize s process faultingAddress rightsRequested metadataAccess =
        some none ∧ solved = false ∧ s' = s ∨
      ∃ grant pa bitmap mapped, faultAccess reservationSize s process faultingAddress
          rightsRequested metadataAccess = some (some grant) ∧
        pmmReserveMemory s.allocationBitmap 1 = (pa,bitmap) ∧ pa ≠ 0 ∧
        mmuMapMemoryInternal vmmData s.memory (s.pagingData process) pa pageSize grant.memoryRights
          (alignAddressLower faultingAddress pageSize) true grant.uncacheable = some mapped ∧
        s' = s.setReserved process bitmap mapped ∧
        (solved = false ↔ grant.backingFile.isSome = true ∧ fileRead = none) := by
  obtain ⟨access,haccess,h⟩ := Option.bind_eq_some_iff.mp h
  cases access with
  | none =>
    obtain ⟨rfl,rfl⟩ := Prod.mk.inj (Option.some.inj h)
    exact Or.inl ⟨haccess,rfl,rfl⟩
  | some grant =>
    cases hreserve : pmmReserveMemory s.allocationBitmap 1 with
    | mk pa bitmap =>
      simp only [hreserve,Option.bind_eq_bind,Option.bind_eq_some_iff] at h
      obtain ⟨_,hpa,mapped,hmap,h⟩ := h
      have hpa : pa ≠ 0 := bne_iff_ne.mp (assert_eq_some.mp hpa)
      refine Or.inr ⟨grant,pa,bitmap,mapped,haccess,rfl,hpa,hmap,?_⟩
      cases hfile : grant.backingFile with
      | none =>
        rw [hfile] at h
        obtain ⟨rfl,rfl⟩ := Prod.mk.inj (Option.some.inj h)
        simp
      | some file =>
        rw [hfile] at h
        cases hread : fileRead with
        | none =>
          rw [hread] at h
          obtain ⟨rfl,rfl⟩ := Prod.mk.inj (Option.some.inj h)
          simp
        | some bytesReadFromFile =>
          rw [hread] at h
          obtain ⟨_,_,h⟩ := Option.bind_eq_some_iff.mp h
          obtain ⟨rfl,rfl⟩ := Prod.mk.inj (Option.some.inj h)
          simp

/-- The page tables, and which frames are free and which are to be zeroed, are as they were. -/
structure TablesAndFramesKept (s s' : MemoryManager Process) : Prop where
  tables : s'.memory = s.memory
  roots : s'.roots = s.roots
  free : ∀ frame, s'.allocationBitmap.IsFree frame ↔ s.allocationBitmap.IsFree frame
  queued : s'.framesToZero = s.framesToZero

/-- The access is allowed, and the page is one of a file that cannot be read. -/
def BackingReadFails (reservationSize : Nat) (s : MemoryManager Process) (process : Option Process)
    (faultingAddress : Nat) (rightsRequested : PageRights) (metadataAccess : Bool)
    (fileRead : Option Nat) : Prop :=
  ∃ grant, faultAccess reservationSize s process faultingAddress rightsRequested metadataAccess =
    some (some grant) ∧ grant.backingFile.isSome = true ∧ fileRead = none

omit [DecidableEq Process] in
theorem pmmReserveMemory_takes {bitmap bitmap' : Bitmap} {pa count : Nat} (hcount : 0 < count)
    (hreserve : pmmReserveMemory bitmap count = (pa,bitmap')) (hpa : pa ≠ 0) :
    bitmap.IsFree (pa / pageSize) ∧ ¬ bitmap'.IsFree (pa / pageSize) := by
  obtain ⟨index,hscan,rfl,rfl⟩ := (pmmReserveMemory_cases hreserve).resolve_left fun hnull =>
    hpa hnull.1
  obtain ⟨hbound,hclear⟩ := bitmapScanFrom_some hscan
  have hindex : index * pageSize / pageSize = index := Nat.mul_div_cancel _ (by decide)
  rw [hindex]
  refine ⟨⟨by omega,hclear 0 hcount⟩,?_⟩
  intro hfree
  have hset : (bitmapSetBits bitmap index count).bits index = true := by
    simp only [bitmapSetBits,le_refl,true_and,Bool.or_eq_true,decide_eq_true_eq]
    exact Or.inl (by omega)
  exact Bool.false_ne_true (hfree.2.symm.trans hset)

/-- A fault that is not solved leaves no trace if and only if it is not one of a page whose file
cannot be read. -/
theorem unsolved_fault_kept_iff
    (hcall : vmmSolveBackedPageFault vmmData reservationSize s process faultingAddress
      rightsRequested metadataAccess fileRead = some (solved,s')) :
    (solved = false → TablesAndFramesKept s s') ↔
      ¬ BackingReadFails reservationSize s process faultingAddress rightsRequested metadataAccess
        fileRead := by
  rcases vmmSolveBackedPageFault_cases hcall with
    ⟨haccess,rfl,rfl⟩ | ⟨grant,pa,bitmap,mapped,haccess,hreserve,hpa,hmap,rfl,hsolved⟩
  · refine iff_of_true (fun _ => ⟨rfl,rfl,fun _ => Iff.rfl,rfl⟩) ?_
    rintro ⟨grant,hgrant,-⟩
    rw [haccess] at hgrant
    cases hgrant
  · have hfails : BackingReadFails reservationSize s process faultingAddress rightsRequested
        metadataAccess fileRead ↔ solved = false := by
      rw [hsolved]
      constructor
      · rintro ⟨grant',hgrant',hfile⟩
        obtain rfl : grant = grant' :=
          Option.some.inj (Option.some.inj (haccess.symm.trans hgrant'))
        exact hfile
      · intro hfile
        exact ⟨grant,haccess,hfile⟩
    rw [hfails]
    constructor
    · intro hkept hfalse
      obtain ⟨hfree,htaken⟩ := pmmReserveMemory_takes Nat.one_pos hreserve hpa
      exact htaken (((hkept hfalse).free _).mpr hfree)
    · intro hnot hfalse
      exact absurd hfalse hnot

theorem mmuMapMemoryInternal_mappedTo {size virtualAddress pa : Nat} {rights : PageRights}
    {uncacheable : Bool} {mapped : WalkState PagingData}
    (hforest : PagingForest s.memory s.pagingData) (hva : virtualAddress < qwordModulus)
    (hsize : size ≤ 2 ^ 48)
    (hmap : mmuMapMemoryInternal vmmData s.memory (s.pagingData process) pa size rights
      virtualAddress true uncacheable = some mapped) :
    (s.setMapped process mapped).roots = s.roots ∧ ∀ k < size / pageSize,
      mappedTo mapped.memory (s.roots process) (walkAddress virtualAddress k) =
        some (ptrOffset pa (k * pageSize)) := by
  simp only [mmuMapMemoryInternal,Option.bind_eq_bind,Option.bind_eq_some_iff] at hmap
  obtain ⟨_,_,_,_,_,_,_,haligned,hmap⟩ := hmap
  have hm := vmmMapMemoryInternal_forest vmmData hforest process (assert_eq_some.mp haligned) hsize
    (Or.inl rfl) hmap
  have hroots : (s.setMapped process mapped).roots = s.roots := rootsOf_update hm.pool
  refine ⟨hroots,?_⟩
  intro k hk
  obtain ⟨page,hof⟩ := hm.mapped k (Nat.zero_le k) hk
  have hold := (hm.entries page _).mpr (Or.inl ⟨k,Nat.zero_le k,hk,hof,rfl⟩)
  have hdiff : ptrDiff (walkAddress virtualAddress k) virtualAddress = k * pageSize := by
    simp only [walkAddress,ptrDiff,ptrOffset,qwordModulus,pageSize] at hva hsize hk ⊢
    omega
  have hframe : mappedTo mapped.memory (rootsOf s.pagingData process)
      (walkAddress virtualAddress k) = some (ptrOffset pa (ptrDiff (walkAddress virtualAddress k)
        virtualAddress)) := by
    rw [mappedTo,hof.leafAt,hold.entry_eq,if_pos hold.present]
    rfl
  rwa [hdiff] at hframe

theorem failed_read_page_mapped (hforest : PagingForest s.memory s.pagingData)
    (hcount : s.allocationBitmap.bitCount ≤ maxDword) (hword : faultingAddress < qwordModulus)
    (hfails : BackingReadFails reservationSize s process faultingAddress rightsRequested
      metadataAccess fileRead)
    (hcall : vmmSolveBackedPageFault vmmData reservationSize s process faultingAddress
      rightsRequested metadataAccess fileRead = some (solved,s')) :
    solved = false ∧ ∃ pa, (pmmReserveMemory s.allocationBitmap 1).1 = pa ∧ pa ≠ 0 ∧
      mappedTo s'.memory (s'.roots process) (alignAddressLower faultingAddress pageSize) =
        some pa := by
  obtain ⟨grant,haccess,hfile⟩ := hfails
  rcases vmmSolveBackedPageFault_cases hcall with
    ⟨hrefused,-⟩ | ⟨grant',pa,bitmap,mapped,haccess',hreserve,hpa,hmap,rfl,hsolved⟩
  · rw [haccess] at hrefused
    cases hrefused
  · obtain rfl : grant = grant' := Option.some.inj (Option.some.inj (haccess.symm.trans haccess'))
    refine ⟨hsolved.mpr hfile,pa,by rw [hreserve],hpa,?_⟩
    have hbelow : alignAddressLower faultingAddress pageSize < qwordModulus :=
      (Nat.div_mul_le_self _ _).trans_lt hword
    obtain ⟨hroots,hpages⟩ := mmuMapMemoryInternal_mappedTo hforest hbelow (by decide) hmap
    have hfirst := hpages 0 (by decide)
    rw [walkAddress_zero hbelow,Nat.zero_mul] at hfirst
    have hroots' : (s.setReserved process bitmap mapped).roots = s.roots := hroots
    rw [hroots']
    have hpaWord : ptrOffset pa 0 = pa := by
      obtain ⟨hfree,-⟩ := pmmReserveMemory_takes Nat.one_pos hreserve hpa
      have hindex := hfree.1
      apply Nat.mod_eq_of_lt
      simp only [maxDword,pageSize,qwordModulus] at hcount hindex ⊢
      omega
    rw [← hpaWord]
    exact hfirst

end Fault

/-- Two pages wherever there is room, populated from a file when they are accessed. -/
def fileRegion : BackedRequest where
  region := ⟨0,0x2000,⟨true,true⟩,false,pageRightsReadWrite,false,null_lt⟩
  zero := false
  fileObject := some 7
  mdl := none

instance (bitmap : Bitmap) (frame : Nat) : Decidable (bitmap.IsFree frame) :=
  inferInstanceAs (Decidable (_ ∧ _))

private theorem fileRegion_fault (address : Nat) (rights : PageRights) (solved : Bool)
    (check : MemoryManager Unit → MemoryManager Unit → Bool)
    (hcheck : ((vmmAllocBackedRegion ⟨0,3⟩ 56 exampleManager (some ()) (some ()) fileRegion none).any
      fun made => decide (made.1 = 0x1000000) &&
        (vmmSolveBackedPageFault ⟨0,3⟩ 56 made.2 (some ()) address rights false none).any
          fun fault => fault.1 == solved && check made.2 fault.2) = true) :
    ∃ s s' : MemoryManager Unit,
      vmmAllocBackedRegion ⟨0,3⟩ 56 exampleManager (some ()) (some ()) fileRegion none =
        some (0x1000000,s) ∧
      vmmSolveBackedPageFault ⟨0,3⟩ 56 s (some ()) address rights false none = some (solved,s') ∧
      check s s' = true := by
  obtain ⟨⟨base,s⟩,hmade,h⟩ := Option.any_eq_true _ _ |>.mp hcheck
  obtain ⟨hbase,hany⟩ := Bool.and_eq_true_iff.mp h
  obtain ⟨⟨solved',s'⟩,hfault,h⟩ := Option.any_eq_true _ _ |>.mp hany
  obtain ⟨hsolved,hkept⟩ := Bool.and_eq_true_iff.mp h
  obtain rfl : base = 0x1000000 := of_decide_eq_true hbase
  obtain rfl : solved' = solved := beq_iff_eq.mp hsolved
  exact ⟨s,s',hmade,hfault,hkept⟩

/-- An access to execute is refused. -/
theorem unsolved_fault_kept_refused : ∃ s s' : MemoryManager Unit,
    vmmSolveBackedPageFault ⟨0,3⟩ 56 s (some ()) 0x1000234 ⟨false,false,true⟩ false none =
      some (false,s') ∧ (false = false → TablesAndFramesKept s s') := by
  obtain ⟨s,s',_,hfault,hrefused⟩ := fileRegion_fault 0x1000234
    ⟨false,false,true⟩ false
    (fun s _ => (faultAccess 56 s (some ()) 0x1000234 ⟨false,false,true⟩ false).any Option.isNone)
    (by decide +kernel)
  refine ⟨s,s',hfault,(unsolved_fault_kept_iff hfault).mpr ?_⟩
  rintro ⟨grant,hgrant,-⟩
  rw [hgrant] at hrefused
  cases hrefused

/-- The first page cannot be read: it stays mapped to frame 1. -/
theorem unread_page_mapped : ∃ s s' : MemoryManager Unit,
    vmmAllocBackedRegion ⟨0,3⟩ 56 exampleManager (some ()) (some ()) fileRegion none = some (0x1000000,s) ∧
    vmmSolveBackedPageFault ⟨0,3⟩ 56 s (some ()) 0x1000234 pageRightsReadWrite false none =
      some (false,s') ∧
    mappedTo s.memory (s.roots (some ())) 0x1000000 = none ∧ s.allocationBitmap.IsFree 1 ∧
    mappedTo s'.memory (s'.roots (some ())) 0x1000000 = some 0x1000 ∧
    ¬ s'.allocationBitmap.IsFree 1 ∧ ¬ TablesAndFramesKept s s' := by
  obtain ⟨s,s',hmade,hfault,hcheck⟩ := fileRegion_fault 0x1000234
    pageRightsReadWrite false
    (fun s s' => decide (mappedTo s.memory (s.roots (some ())) 0x1000000 = none ∧
      s.allocationBitmap.IsFree 1 ∧
      mappedTo s'.memory (s'.roots (some ())) 0x1000000 = some 0x1000 ∧
      ¬ s'.allocationBitmap.IsFree 1)) (by decide +kernel)
  obtain ⟨hnone,hfree,hmapped,htaken⟩ := of_decide_eq_true hcheck
  refine ⟨s,s',hmade,hfault,hnone,hfree,hmapped,htaken,?_⟩
  intro hkept
  exact htaken ((hkept.free 1).mpr hfree)

end Hal9000
