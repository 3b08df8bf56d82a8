import Hal9000.Memory.Decommit
import Hal9000.Memory.Mdl

/-!
# What is behind a region

`VmmAllocRegionEx` for regions of all three kinds: those whose frames a memory descriptor list
gives, those that get frames of their own, and those whose frames a file is read into. The frames
are mapped before the call can fail for the last time.
-/

namespace Hal9000

/-- The arguments of `VmmAllocRegionEx`. -/
structure BackedRequest where
  region : RegionRequest
  zero : Bool
  fileObject : Option Nat
  mdl : Option MemoryDescriptorList

def BackedRequest.allocRequest (request : BackedRequest) : AllocRequest :=
  { request.region.allocRequest with
    fileObject := request.fileObject }

/-- What the `__finally` block finds in the local variables; `0` is `NULL`. -/
structure AllocLocals where
  succeeded : Bool
  baseAddress : Nat
  alignedSize : Nat
  pa : Nat
  deriving DecidableEq

section Functions

variable {Process : Type} [DecidableEq Process]
variable (vmmData : VmmData) (reservationSize : Nat)

/-- The pairs are mapped one behind the other, where nothing is mapped yet. -/
def vmmMapDescribedRegion (baseAddress : Nat) (rights : PageRights) :
    List MdlTranslationPair → Nat → WalkState PagingData → Option (WalkState PagingData)
  | [], _, s => some s
  | pair :: pairs, currentOffset, s => do
    let s ← mmuMapMemoryInternal vmmData s.memory s.context pair.alignedPa pair.alignedPaSize rights
      (ptrOffset baseAddress currentOffset) false false
    vmmMapDescribedRegion baseAddress rights pairs
      ((currentOffset + pair.alignedPaSize) % qwordModulus) s

/-- The `__try` block, for an address space and tables given by their processes. `fileRead` is the
number of bytes `IoReadFile` reads, if it does. -/
def vmmAllocRegionTry (s : MemoryManager Process) (vaSpace pagingData : Option Process)
    (request : BackedRequest) (fileRead : Option Nat) :
    Option (AllocLocals × MemoryManager Process) := do
  let region := request.region
  assert (region.size != 0)
  assert (region.allocType.commit || region.allocType.reserve)
  assert (request.mdl.isNone || region.notLazy)
  assert (!request.zero)
  assert (request.mdl.isNone || request.fileObject.isNone)
  match ← vmReservationSpaceAllocRegion reservationSize (s.space vaSpace) request.allocRequest with
  | (.success, some (base, alignedSize), space) =>
    let s := s.setSpace vaSpace space
    assert (base != 0)
    if !region.notLazy then return (⟨true,base,alignedSize,0⟩,s)
    assert region.allocType.commit
    match request.mdl with
    | some mdl =>
      assert (decide (mdl.byteCount ≤ alignedSize))
      assert (isAddressAligned base pageSize)
      let mapped ← vmmMapDescribedRegion vmmData base region.rights mdl.translations 0
        ⟨s.memory,s.pagingData pagingData⟩
      return (⟨true,base,alignedSize,0⟩,s.setMapped pagingData mapped)
    | none =>
      let noOfFrames := alignedSize / pageSize
      assert (noOfFrames ≤ maxDword)
      let (pa, bitmap) := pmmReserveMemory s.allocationBitmap noOfFrames
      let s := { s with allocationBitmap := bitmap }
      -- `__leave`, with the status that succeeded
      if pa = 0 then return (⟨true,base,alignedSize,0⟩,s)
      let mapped ← mmuMapMemoryInternal vmmData s.memory (s.pagingData pagingData) pa alignedSize
        region.rights base true region.uncacheable
      let s := s.setMapped pagingData mapped
      match request.fileObject, fileRead with
      | none, _ => return (⟨true,base,alignedSize,pa⟩,s)
      | some _, none => return (⟨false,base,alignedSize,pa⟩,s)
      | some _, some bytesRead =>
        assert (decide (ptrDiff alignedSize bytesRead ≤ maxDword))
        return (⟨true,base,alignedSize,pa⟩,s)
  | (_, _, space) => return (⟨false,0,0,0⟩,s.setSpace vaSpace space)

/-- `_VmUninitializeReservation` of the copy of a released reservation, as far as memory goes. -/
def vmUninitializeReservation (s : MemoryManager Process) :
    Option VmmReservation → Option (MemoryManager Process)
  | none => some s
  | some reservation =>
    s.unmap none reservation.commitBitmap.bitmapBuffer reservation.commitBitmap.bufferSize true

/-- The `__finally` block. A reservation is released by its address. -/
def vmmAllocRegionFinally (s : MemoryManager Process) (vaSpace pagingData : Option Process)
    (locals : AllocLocals) : Option (Nat × MemoryManager Process) := do
  if locals.succeeded then return (locals.baseAddress,s)
  if locals.baseAddress = 0 then
    assert (locals.pa == 0)
    return (0,s)
  let ((alignedAddress, alignedSize), uninitialized, space) ←
    vmReservationSpaceFreeRegion reservationSize (s.space vaSpace) locals.baseAddress .release
  let s ← vmUninitializeReservation (s.setSpace vaSpace space) uninitialized
  assert (alignedAddress == locals.baseAddress)
  if locals.pa = 0 then return (0,s)
  let s ← s.unmap pagingData alignedAddress (alignedSize % 2 ^ 32) true
  return (0,s)

/-- `VmmAllocRegionEx` with a file or a list. -/
def vmmAllocBackedRegion (s : MemoryManager Process) (vaSpace pagingData : Option Process)
    (request : BackedRequest) (fileRead : Option Nat) : Option (Nat × MemoryManager Process) := do
  let (locals, s) ← vmmAllocRegionTry vmmData reservationSize s vaSpace pagingData request fileRead
  vmmAllocRegionFinally reservationSize s vaSpace pagingData locals

theorem vmmAllocBackedRegion_plain (s : MemoryManager Process) (process : Option Process)
    (region : RegionRequest) (fileRead : Option Nat) :
    vmmAllocBackedRegion vmmData reservationSize s process process ⟨region,false,none,none⟩ fileRead =
      vmmAllocRegionEx vmmData reservationSize s process region := by
  have hrequest : BackedRequest.allocRequest ⟨region,false,none,none⟩ = region.allocRequest := rfl
  rw [vmmAllocBackedRegion,vmmAllocRegionTry,vmmAllocRegionEx,hrequest]
  cases assert (region.size != 0) with
  | none => rfl
  | some _ =>
    cases assert (region.allocType.commit || region.allocType.reserve) with
    | none => rfl
    | some _ =>
      simp only [Option.bind_eq_bind,Option.bind_some,Option.isNone_none,Bool.true_or,assert_true,
        Bool.not_false]
      cases vmReservationSpaceAllocRegion reservationSize (s.space process)
          region.allocRequest with
      | none => rfl
      | some result =>
        obtain ⟨status,range,space⟩ := result
        cases range with
        | none => cases status <;> rfl
        | some range =>
          cases status with
          | success =>
            simp only [Option.bind_some]
            cases assert (range.1 != 0) with
            | none => rfl
            | some _ =>
              cases region.notLazy with
              | false => rfl
              | true =>
                simp only [Option.bind_some,Bool.not_true,if_true]
                cases assert region.allocType.commit with
                | none => rfl
                | some _ =>
                  cases assert (decide (range.2 / pageSize ≤ maxDword)) with
                  | none => rfl
                  | some _ =>
                    by_cases hpa : (pmmReserveMemory s.allocationBitmap
                        (range.2 / pageSize)).1 = 0
                    · simp only [Option.bind_some,MemoryManager.setSpace,hpa,Bool.false_eq_true,
                        if_false,if_true]
                      rfl
                    · simp only [Option.bind_some,MemoryManager.setSpace,hpa,Bool.false_eq_true,
                        if_false]
                      generalize mmuMapMemoryInternal _ _ _ _ _ _ _ _ _ = mapped
                      cases mapped with
                      | none => rfl
                      | some mapped => rfl
          | _ => rfl

end Functions

section Try

variable {Process : Type} [DecidableEq Process] {vmmData : VmmData} {reservationSize : Nat}

/-- Where the block ends, with the locals and the state. -/
inductive TryEnds (vmmData : VmmData) (reservationSize : Nat) (s : MemoryManager Process)
    (vaSpace pagingData : Option Process) (request : BackedRequest) (fileRead : Option Nat) :
    AllocLocals → MemoryManager Process → Prop
  | refused {status : Status} {range : Option (Nat × Nat)} {space : VmmReservationSpace}
      (halloc : vmReservationSpaceAllocRegion reservationSize (s.space vaSpace)
        request.allocRequest = some (status,range,space))
      (hfailed : status ≠ .success ∨ range = none) :
      TryEnds vmmData reservationSize s vaSpace pagingData request fileRead ⟨false,0,0,0⟩
        (s.setSpace vaSpace space)
  | unbacked {base size : Nat} {space : VmmReservationSpace}
      (halloc : vmReservationSpaceAllocRegion reservationSize (s.space vaSpace)
        request.allocRequest = some (.success,some (base,size),space))
      (hbase : base ≠ 0) (hlazy : request.region.notLazy = false) :
      TryEnds vmmData reservationSize s vaSpace pagingData request fileRead ⟨true,base,size,0⟩
        (s.setSpace vaSpace space)
  | described {base size : Nat} {space : VmmReservationSpace} {mdl : MemoryDescriptorList}
      {mapped : WalkState PagingData}
      (halloc : vmReservationSpaceAllocRegion reservationSize (s.space vaSpace)
        request.allocRequest = some (.success,some (base,size),space))
      (hbase : base ≠ 0) (hmdl : request.mdl = some mdl) (haligned : base % pageSize = 0)
      (hmap : vmmMapDescribedRegion vmmData base request.region.rights mdl.translations 0
        ⟨s.memory,s.pagingData pagingData⟩ = some mapped) :
      TryEnds vmmData reservationSize s vaSpace pagingData request fileRead ⟨true,base,size,0⟩
        ((s.setSpace vaSpace space).setMapped pagingData mapped)
  | noFrames {base size : Nat} {space : VmmReservationSpace} {bitmap : Bitmap}
      (halloc : vmReservationSpaceAllocRegion reservationSize (s.space vaSpace)
        request.allocRequest = some (.success,some (base,size),space))
      (hbase : base ≠ 0) (hmdl : request.mdl = none)
      (hreserve : pmmReserveMemory s.allocationBitmap (size / pageSize) = (0,bitmap)) :
      TryEnds vmmData reservationSize s vaSpace pagingData request fileRead ⟨true,base,size,0⟩
        { s.setSpace vaSpace space with
          allocationBitmap := bitmap }
  | mapped {base size pa : Nat} {space : VmmReservationSpace} {bitmap : Bitmap}
      {mapped : WalkState PagingData} {succeeded : Bool}
      (halloc : vmReservationSpaceAllocRegion reservationSize (s.space vaSpace)
        request.allocRequest = some (.success,some (base,size),space))
      (hbase : base ≠ 0) (hmdl : request.mdl = none) (hcommit : request.region.allocType.commit = true)
      (hframes : size / pageSize ≤ maxDword)
      (hreserve : pmmReserveMemory s.allocationBitmap (size / pageSize) = (pa,bitmap)) (hpa : pa ≠ 0)
      (hmap : mmuMapMemoryInternal vmmData s.memory (s.pagingData pagingData) pa size
        request.region.rights base true request.region.uncacheable = some mapped)
      (hread : succeeded = false ↔ request.fileObject.isSome = true ∧ fileRead = none) :
      TryEnds vmmData reservationSize s vaSpace pagingData request fileRead ⟨succeeded,base,size,pa⟩
        ((s.setSpace vaSpace space).setReserved pagingData bitmap mapped)

theorem vmmAllocRegionTry_ends {s s' : MemoryManager Process} {vaSpace pagingData : Option Process}
    {request : BackedRequest} {fileRead : Option Nat} {locals : AllocLocals}
    (h : vmmAllocRegionTry vmmData reservationSize s vaSpace pagingData request fileRead =
      some (locals,s')) :
    TryEnds vmmData reservationSize s vaSpace pagingData request fileRead locals s' := by
  simp only [vmmAllocRegionTry,Option.bind_eq_bind,Option.bind_eq_some_iff] at h
  obtain ⟨_,_,_,_,_,_,_,_,_,_,⟨status,range,space⟩,halloc,h⟩ := h
  rcases range with _ | ⟨base,size⟩
  · obtain ⟨rfl,rfl⟩ : ⟨false,0,0,0⟩ = locals ∧ s.setSpace vaSpace space = s' := by
      cases status <;> exact Prod.mk.inj (Option.some.inj h)
    exact .refused halloc (Or.inr rfl)
  · cases status
    case success =>
      obtain ⟨_,hbase,h⟩ := Option.bind_eq_some_iff.mp h
      have hbase : base ≠ 0 := bne_iff_ne.mp (assert_eq_some.mp hbase)
      cases hlazy : request.region.notLazy with
      | false =>
        rw [hlazy] at h
        obtain ⟨rfl,rfl⟩ := Prod.mk.inj (Option.some.inj h)
        exact .unbacked halloc hbase hlazy
      | true =>
        rw [hlazy,if_neg (by decide)] at h
        obtain ⟨_,hcommit,h⟩ := Option.bind_eq_some_iff.mp h
        have hcommit := assert_eq_some.mp hcommit
        cases hmdl : request.mdl with
        | some mdl =>
          simp only [hmdl,Option.bind_eq_some_iff] at h
          obtain ⟨_,_,_,haligned,mapped,hmap,h⟩ := h
          obtain ⟨rfl,rfl⟩ := Prod.mk.inj (Option.some.inj h)
          exact .described halloc hbase hmdl (beq_iff_eq.mp (assert_eq_some.mp haligned)) hmap
        | none =>
          simp only [hmdl,Option.bind_eq_some_iff] at h
          obtain ⟨_,hframes,h⟩ := h
          have hframes : size / pageSize ≤ maxDword := of_decide_eq_true (assert_eq_some.mp hframes)
          cases hreserve : pmmReserveMemory s.allocationBitmap (size / pageSize) with
          | mk pa bitmap =>
            have hreserve' : pmmReserveMemory (s.setSpace vaSpace space).allocationBitmap
                (size / pageSize) = (pa,bitmap) := hreserve
            rw [hreserve'] at h
            by_cases hpa : pa = 0
            · rw [if_pos hpa] at h
              subst hpa
              obtain ⟨rfl,rfl⟩ := Prod.mk.inj (Option.some.inj h)
              exact .noFrames halloc hbase hmdl hreserve
            · rw [if_neg hpa] at h
              obtain ⟨mapped,hmap,h⟩ := Option.bind_eq_some_iff.mp h
              have hend {succeeded : Bool}
                  (hread : succeeded = false ↔ request.fileObject.isSome = true ∧ fileRead = none) :=
                TryEnds.mapped halloc hbase hmdl hcommit hframes hreserve hpa hmap hread
              cases hfile : request.fileObject with
              | none =>
                rw [hfile] at h hend
                obtain ⟨rfl,rfl⟩ := Prod.mk.inj (Option.some.inj h)
                exact hend (by simp)
              | some file =>
                rw [hfile] at h hend
                cases fileRead with
                | none =>
                  obtain ⟨rfl,rfl⟩ := Prod.mk.inj (Option.some.inj h)
                  exact hend (by simp)
                | some bytesRead =>
                  obtain ⟨_,_,h⟩ := Option.bind_eq_some_iff.mp h
                  obtain ⟨rfl,rfl⟩ := Prod.mk.inj (Option.some.inj h)
                  exact hend (by simp)
    all_goals
      obtain ⟨rfl,rfl⟩ := Prod.mk.inj (Option.some.inj h)
      exact .refused halloc (Or.inl (by simp))

end Try

section Mapped

variable {vmmData : VmmData} {paths : Finset (List (Fin 512))} {s s' : WalkState PagingData}
  {physicalAddress size virtualAddress : Nat} {rights : PageRights} {invalidate uncacheable : Bool}

theorem tableOffsets_walkAddress (baseAddress k : Nat) :
    tableOffsets (walkAddress baseAddress k) = tableOffsets (pageAt baseAddress k) :=
  tableOffsets_ptrOffset _ _

/-- What a mapping of pages leaves, of which some may stay as they were. -/
structure PagesPut (paths : Finset (List (Fin 512))) (s : WalkState PagingData)
    (baseAddress count : Nat) (put : Nat → Option Nat → Option Nat) (s' : WalkState PagingData) :
    Prop where
  walk : WalkInv paths s'.memory s'.context
  pool : s.context.SamePool s'.context
  pages : ∀ k < count, mappedTo s'.memory s.context.basePhysicalAddress (walkAddress baseAddress k) =
    put k (mappedTo s.memory s.context.basePhysicalAddress (walkAddress baseAddress k))
  others : ∀ path, path.length = 4 →
    (∀ k < count, path ≠ tableOffsets (walkAddress baseAddress k)) →
    s'.memory.leafAt s.context.basePhysicalAddress path =
      s.memory.leafAt s.context.basePhysicalAddress path

theorem mmuMapMemoryInternal_range (hva : virtualAddress < qwordModulus) (hsize : size ≤ 2 ^ 48)
    (hmap : mmuMapMemoryInternal vmmData s.memory s.context physicalAddress size rights
      virtualAddress invalidate uncacheable = some s') :
    PageRange virtualAddress size ∧ physicalAddress % pageSize = 0 := by
  simp only [mmuMapMemoryInternal,Option.bind_eq_bind,Option.bind_eq_some_iff] at hmap
  obtain ⟨_,hsize',_,hsizes,_,hbase,_,haligned,hwalk⟩ := hmap
  simp only [vmmMapMemoryInternal,Option.bind_eq_bind,Option.bind_eq_some_iff] at hwalk
  obtain ⟨_,hphysical,_,_,hwalk⟩ := hwalk
  have hsizes := assert_eq_some.mp hsizes
  have haligned := assert_eq_some.mp haligned
  have hwhole : size % pageSize = 0 := beq_iff_eq.mp hsizes
  have hstart : virtualAddress % pageSize = 0 := beq_iff_eq.mp haligned
  have hends : virtualAddress + size ≤ qwordModulus := by
    by_contra hover
    refine walkPages_nonzero (fun _ _ _ => rfl) hwalk ((qwordModulus - virtualAddress) / pageSize)
      ?_ ?_
    · simp only [pageSize,qwordModulus] at *
      omega
    · simp only [ptrOffset,pageSize,qwordModulus] at *
      omega
  exact ⟨⟨haligned,hsizes,bne_iff_ne.mp (assert_eq_some.mp hsize'),hends,
    bne_iff_ne.mp (assert_eq_some.mp hbase),hsize⟩,beq_iff_eq.mp (assert_eq_some.mp hphysical)⟩

theorem mmuMapMemoryInternal_put (hpaths : ∀ path ∈ paths, path.length ≤ 3)
    (hva : virtualAddress < qwordModulus) (hsize : size ≤ 2 ^ 48)
    (hsub : rangePaths virtualAddress (size / pageSize) ⊆ paths)
    (h : WalkInv paths s.memory s.context)
    (hmap : mmuMapMemoryInternal vmmData s.memory s.context physicalAddress size rights
      virtualAddress invalidate uncacheable = some s') :
    PagesPut paths s virtualAddress (size / pageSize)
      (fun k old => if invalidate then some (ptrOffset physicalAddress (k * pageSize))
        else old.or (some (ptrOffset physicalAddress (k * pageSize)))) s' := by
  obtain ⟨hrange,hphysical⟩ := mmuMapMemoryInternal_range hva hsize hmap
  have hphysical : isAddressAligned physicalAddress pageSize = true := beq_iff_eq.mpr hphysical
  simp only [mmuMapMemoryInternal,Option.bind_eq_bind,Option.bind_eq_some_iff] at hmap
  obtain ⟨_,_,_,_,_,_,_,_,hmap⟩ := hmap
  have hsmall : RangeHasNoLargePages s.memory s.context virtualAddress size :=
    fun path offset table hin => h.small path offset table (hsub hin)
  have hbalanced := vmmMapMemoryInternal_balanced hpaths hrange hsub h hmap
  have henough : EnoughFrames s.memory s.context virtualAddress size := by
    have hrangeBalanced := vmmMapMemoryInternal_balanced rangePaths_length hrange subset_rfl
      ⟨h.tree,hsmall⟩ hmap
    have hnone : s'.missing (rangePaths virtualAddress (size / pageSize)) = ∅ := by
      apply Finset.eq_empty_of_forall_notMem
      intro path hpath
      exact hrangeBalanced.covered path (Finset.mem_filter.mp hpath).1 hpath
    have hbalance := hrangeBalanced.balance
    rw [hnone,Finset.card_empty,Nat.add_zero] at hbalance
    have hframes : s'.context.numberOfFrames = s.context.numberOfFrames := by
      rw [hrangeBalanced.pool]
    unfold EnoughFrames
    rw [← hframes]
    exact hbalance.symm.trans_le hbalanced.walk.tree.wellFormed.used_le
  obtain ⟨s₁,hmap₁,-,-,-,hleaves,hothers⟩ := vmmMapMemoryInternal_spec vmmData h.tree hrange hsmall
    henough hphysical rights invalidate uncacheable
  obtain rfl := Option.some.inj (hmap.symm.trans hmap₁)
  refine ⟨hbalanced.walk,hbalanced.pool,?_,?_⟩
  · intro k hk
    have hword := (pageAt_word hrange hk).1
    have hdiff : ptrDiff (pageAt virtualAddress k) virtualAddress = k * pageSize := by
      simp only [pageAt,ptrDiff,qwordModulus,pageSize] at hword ⊢
      omega
    rw [mappedTo,mappedTo,tableOffsets_walkAddress,hleaves k hk,mapLeaf]
    cases invalidate with
    | true =>
      simp only [Bool.true_or,if_true,Option.map_some,mapEntry,pteMap,hdiff]
    | false =>
      cases s.memory.leafAt s.context.basePhysicalAddress (tableOffsets (pageAt virtualAddress k)) with
      | none => simp only [Option.isNone_none,Bool.or_true,if_true,Option.map_some,mapEntry,pteMap,
          hdiff,Bool.false_eq_true,if_false,Option.map_none,Option.none_or]
      | some leaf => rfl
  · intro path hlength hnot
    refine hothers path hlength fun k hk heq => hnot k hk ?_
    rw [tableOffsets_walkAddress]
    exact heq

theorem walkAddress_add (baseAddress n k : Nat) :
    walkAddress (walkAddress baseAddress n) k = walkAddress baseAddress (n + k) := by
  simp only [walkAddress,ptrOffset,pageSize,qwordModulus]
  omega

theorem walkAddress_zero {baseAddress : Nat} (hword : baseAddress < qwordModulus) :
    walkAddress baseAddress 0 = baseAddress := by
  rw [walkAddress,Nat.zero_mul,ptrOffset,Nat.add_zero,Nat.mod_eq_of_lt hword]

theorem PagesPut.congr {baseAddress count : Nat} {put put' : Nat → Option Nat → Option Nat}
    (h : PagesPut paths s baseAddress count put s') (hput : ∀ k < count, put k = put' k) :
    PagesPut paths s baseAddress count put' s' := by
  refine ⟨h.walk,h.pool,?_,h.others⟩
  intro k hk
  rw [← hput k hk]
  exact h.pages k hk

theorem PagesPut.append {baseAddress n m : Nat} {put put' : Nat → Option Nat → Option Nat}
    {s₁ : WalkState PagingData} (haligned : baseAddress % pageSize = 0) (hbound : n + m ≤ 2 ^ 36)
    (h : PagesPut paths s baseAddress n put s₁)
    (h' : PagesPut paths s₁ (walkAddress baseAddress n) m put' s') :
    PagesPut paths s baseAddress (n + m) (fun k => if k < n then put k else put' (k - n)) s' := by
  have hroot : s₁.context.basePhysicalAddress = s.context.basePhysicalAddress := by rw [h.pool]
  have haligned' : isAddressAligned baseAddress pageSize = true := beq_iff_eq.mpr haligned
  have hapart (j k : Nat) (hj : j < n) (hk : k < m) :
      tableOffsets (walkAddress baseAddress j) ≠ tableOffsets (walkAddress baseAddress (n + k)) := by
    intro heq
    have hsame := walkAddress_injective haligned' (by omega) (by omega) heq
    omega
  have hpages' := h'.pages
  have hothers' := h'.others
  simp only [hroot,walkAddress_add] at hpages' hothers'
  refine ⟨h'.walk,?_,?_,?_⟩
  · rw [PagingData.SamePool,h'.pool,h.pool]
  · intro k hk
    by_cases hfirst : k < n
    · rw [if_pos hfirst,← h.pages k hfirst,mappedTo,mappedTo,hothers' _ rfl]
      exact fun j hj => hapart k j hfirst hj
    · rw [if_neg hfirst]
      have hsum : n + (k - n) = k := by omega
      have hpage := hpages' (k - n) (by omega)
      rw [hsum] at hpage
      have hbefore : mappedTo s₁.memory s.context.basePhysicalAddress (walkAddress baseAddress k) =
          mappedTo s.memory s.context.basePhysicalAddress (walkAddress baseAddress k) := by
        rw [mappedTo,mappedTo,h.others _ rfl]
        intro j hj heq
        rw [← hsum] at heq
        exact hapart j (k - n) hj (by omega) heq.symm
      rw [hpage,hbefore]
  · intro path hlength hnot
    rw [hothers' path hlength fun k hk => hnot (n + k) (by omega),
      h.others path hlength fun k hk => hnot k (by omega)]

theorem vmmMapDescribedRegion_put (hpaths : ∀ path ∈ paths, path.length ≤ 3) {baseAddress : Nat}
    (haligned : baseAddress % pageSize = 0) (pairs : List MdlTranslationPair)
    (hwhole : ∀ pair ∈ pairs, pair.Whole) (first : Nat)
    (hbound : first + (pairs.flatMap MdlTranslationPair.frames).length ≤ 2 ^ 36)
    (hsub : rangePaths baseAddress (first + (pairs.flatMap MdlTranslationPair.frames).length) ⊆ paths)
    (h : WalkInv paths s.memory s.context)
    (hmap : vmmMapDescribedRegion vmmData baseAddress rights pairs (first * pageSize) s = some s') :
    PagesPut paths s (walkAddress baseAddress first)
      (pairs.flatMap MdlTranslationPair.frames).length
      (fun k old => old.or (pairs.flatMap MdlTranslationPair.frames)[k]?) s' := by
  induction pairs generalizing first s with
  | nil =>
    obtain rfl := Option.some.inj hmap
    exact ⟨h,rfl,fun k hk => absurd hk (Nat.not_lt_zero k),fun _ _ _ => rfl⟩
  | cons pair pairs ih =>
    simp only [vmmMapDescribedRegion,Option.bind_eq_bind,Option.bind_eq_some_iff] at hmap
    obtain ⟨s₁,hpair,hrest⟩ := hmap
    have hpairWhole := hwhole pair List.mem_cons_self
    have hsize := hpairWhole.alignedPaSize_eq
    have hframes : pair.frames.length = pair.alignedPaSize / pageSize := by
      rw [MdlTranslationPair.frames,List.length_map,List.length_range]
    rw [List.flatMap_cons,List.length_append] at hbound hsub ⊢
    have hlower : pair.alignedPaSize % pageSize = 0 := by
      obtain ⟨_,hend,_⟩ := hpairWhole
      rw [hsize]
      simp only [addressOffset,pageSize] at *
      omega
    have hend : pair.alignedPa + pair.alignedPaSize < 2 ^ 63 := by
      have hend := hpairWhole.bounded
      rw [hsize,MdlTranslationPair.alignedPa]
      simp only [alignAddressLower,addressOffset,pageSize]
      omega
    have hsizeBound : pair.alignedPaSize ≤ 2 ^ 48 := by
      simp only [pageSize] at *
      omega
    have hsubPair : rangePaths (walkAddress baseAddress first) (pair.alignedPaSize / pageSize) ⊆
        paths := by
      intro path hpath
      apply hsub
      simp only [rangePaths,Finset.mem_biUnion,Finset.mem_range] at hpath ⊢
      obtain ⟨k,hk,hpath⟩ := hpath
      refine ⟨first + k,by omega,?_⟩
      rw [← tableOffsets_walkAddress,walkAddress_add,tableOffsets_walkAddress] at hpath
      exact hpath
    have hword : walkAddress baseAddress first < qwordModulus := Nat.mod_lt _ (by decide)
    have hput := mmuMapMemoryInternal_put hpaths hword hsizeBound hsubPair h hpair
    have hoffset : (first * pageSize + pair.alignedPaSize) % qwordModulus =
        (first + pair.alignedPaSize / pageSize) * pageSize := by
      simp only [pageSize,qwordModulus] at *
      omega
    rw [hoffset] at hrest
    have hnext := ih (fun p hp => hwhole p (List.mem_cons_of_mem _ hp))
      (first + pair.alignedPaSize / pageSize) (by omega)
      (by rw [Nat.add_assoc,← hframes]; exact hsub) hput.walk hrest
    rw [← walkAddress_add] at hnext
    have hstart : walkAddress baseAddress first % pageSize = 0 := by
      simp only [walkAddress,ptrOffset,pageSize,qwordModulus] at *
      omega
    have hboth := hput.append hstart (by omega) hnext
    rw [← hframes] at hboth
    refine hboth.congr fun k hk => ?_
    funext old
    by_cases hk' : k < pair.frames.length
    · have hget : pair.frames[k]? = some (pair.alignedPa + k * pageSize) := by
        rw [MdlTranslationPair.frames,List.getElem?_map,List.getElem?_range (by omega)]
        rfl
      have hnowrap : ptrOffset pair.alignedPa (k * pageSize) = pair.alignedPa + k * pageSize := by
        have hlast : k * pageSize < pair.alignedPaSize := by
          rw [hframes] at hk'
          exact (Nat.mul_lt_mul_of_pos_right hk' (by decide)).trans_le (Nat.div_mul_le_self _ _)
        exact Nat.mod_eq_of_lt (by rw [qwordModulus]; omega)
      rw [if_pos hk',List.getElem?_append_left hk',hget,← hnowrap]
      rfl
    · rw [if_neg hk',List.getElem?_append_right (by omega)]

end Mapped

/-- As many free frames one behind the other. -/
def Bitmap.FreeRun (bitmap : Bitmap) (index count : Nat) : Prop :=
  index + count ≤ bitmap.bitCount ∧ ∀ offset < count, bitmap.bits (index + offset) = false

theorem pmmReserveMemory_ne_zero {bitmap : Bitmap} {count : Nat} (hcount : count ≠ 0) :
    (pmmReserveMemory bitmap count).1 ≠ 0 ↔
      (∃ index, bitmap.FreeRun index count) ∧ ¬ bitmap.FreeRun 0 count := by
  have hfree (index : Nat) : (decide (0 ≤ index) && decide (index + count ≤ bitmap.bitCount) &&
      (List.range count).all fun offset => !bitmap.bits (index + offset)) = true ↔
        bitmap.FreeRun index count := by
    simp [Bitmap.FreeRun]
  have hscan : bitmapScanFromAndFlip bitmap (0 / pageSize) count =
      (bitmapScanFrom bitmap 0 count).map fun index =>
        (index,bitmapSetBits bitmap index count) := by
    rw [bitmapScanFromAndFlip,Nat.zero_div]
  have haligned : isAddressAligned 0 pageSize = true := rfl
  have hfirst : ¬ maxDword < 0 / pageSize := by decide
  rw [pmmReserveMemory,pmmReserveMemoryEx,if_neg hcount,if_neg (not_not_intro haligned),
    if_neg hfirst,hscan]
  cases hfound : bitmapScanFrom bitmap 0 count with
  | none =>
    refine iff_of_false (fun hne => hne rfl) ?_
    rintro ⟨⟨index,hrun⟩,-⟩
    rw [bitmapScanFrom,List.find?_range_eq_none] at hfound
    have hindex : index < bitmap.bitCount := by
      have hlength := hrun.1
      omega
    have hnone := hfound index hindex
    rw [(hfree index).mpr hrun] at hnone
    exact absurd hnone (by decide)
  | some index =>
    rw [bitmapScanFrom,List.find?_range_eq_some] at hfound
    obtain ⟨hrun,-,hbefore⟩ := hfound
    have hrun := (hfree index).mp hrun
    simp only [Option.map_some]
    constructor
    · intro hne
      refine ⟨⟨index,hrun⟩,?_⟩
      intro hzero
      have hpositive : 0 < index := by
        by_contra hnot
        apply hne
        rw [Nat.eq_zero_of_not_pos hnot,Nat.zero_mul]
      have hnone := hbefore 0 hpositive
      rw [(hfree 0).mpr hzero] at hnone
      exact absurd hnone (by decide)
    · rintro ⟨-,hzero⟩ hnull
      have hindex : index = 0 := by
        simp only [pageSize] at hnull
        omega
      exact hzero (hindex ▸ hrun)

section Eager

variable {Process : Type} [DecidableEq Process] {vmmData : VmmData} {reservationSize : Nat}
  {s s' : MemoryManager Process} {vaSpace pagingData : Option Process} {request : BackedRequest}
  {base size : Nat} {fileRead : Option Nat}

/-- Every page of the region is mapped: to the frame of the list, or to one of the frames that the
physical memory manager has reserved for the call. -/
def RegionBacked (s s' : MemoryManager Process) (pagingData : Option Process) (request : BackedRequest)
    (base size : Nat) : Prop :=
  match request.mdl with
  | some mdl => ∀ k < size / pageSize, ∃ frame, mdl.frames[k]? = some frame ∧
      mappedTo s'.memory (s'.roots pagingData) (walkAddress base k) = some frame
  | none => ∃ pa, pa ≠ 0 ∧ pmmReserveMemory s.allocationBitmap (size / pageSize) =
      (pa,s'.allocationBitmap) ∧ ∀ k < size / pageSize,
        mappedTo s'.memory (s'.roots pagingData) (walkAddress base k) =
          some (ptrOffset pa (k * pageSize))

/-- There are as many free frames in a row, and the first ones are not those from frame zero on, or
the list has a frame for each page, and no page is mapped to another one. -/
def FramesAtHand (s : MemoryManager Process) (pagingData : Option Process) (request : BackedRequest)
    (base size : Nat) : Prop :=
  match request.mdl with
  | some mdl => ∀ k < size / pageSize, ∃ frame, mdl.frames[k]? = some frame ∧
      ∀ frame' ∈ mappedTo s.memory (s.roots pagingData) (walkAddress base k), frame' = frame
  | none => (∃ index, s.allocationBitmap.FreeRun index (size / pageSize)) ∧
      ¬ s.allocationBitmap.FreeRun 0 (size / pageSize)

theorem vmmAllocRegionFinally_address {locals : AllocLocals}
    (hfinally : vmmAllocRegionFinally reservationSize s vaSpace pagingData locals = some (base,s'))
    (hbase : base ≠ 0) : locals.succeeded = true ∧ locals.baseAddress = base ∧ s = s' := by
  cases hsucceeded : locals.succeeded with
  | true =>
    simp only [vmmAllocRegionFinally,hsucceeded,if_true] at hfinally
    obtain ⟨hsame,hstate⟩ := Prod.mk.inj (Option.some.inj hfinally)
    exact ⟨rfl,hsame,hstate⟩
  | false =>
    exfalso
    apply hbase
    simp only [vmmAllocRegionFinally,hsucceeded,Bool.false_eq_true,if_false,Option.bind_eq_bind]
      at hfinally
    by_cases haddress : locals.baseAddress = 0
    · rw [if_pos haddress] at hfinally
      obtain ⟨_,_,hfinally⟩ := Option.bind_eq_some_iff.mp hfinally
      exact (Prod.mk.inj (Option.some.inj hfinally)).1.symm
    · rw [if_neg haddress] at hfinally
      obtain ⟨⟨⟨alignedAddress,alignedSize⟩,uninitialized,space⟩,_,hfinally⟩ :=
        Option.bind_eq_some_iff.mp hfinally
      obtain ⟨s₁,_,hfinally⟩ := Option.bind_eq_some_iff.mp hfinally
      obtain ⟨_,_,hfinally⟩ := Option.bind_eq_some_iff.mp hfinally
      by_cases hpa : locals.pa = 0
      · rw [if_pos hpa] at hfinally
        exact (Prod.mk.inj (Option.some.inj hfinally)).1.symm
      · rw [if_neg hpa] at hfinally
        obtain ⟨s₂,_,hfinally⟩ := Option.bind_eq_some_iff.mp hfinally
        exact (Prod.mk.inj (Option.some.inj hfinally)).1.symm

private theorem vmChangeVaReservationState_whole {space space' : VmmReservationSpace}
    {change : VaReservationChange} {rights : PageRights} {uncacheable : Bool} {file : Option Nat}
    {status : Status}
    (h : vmChangeVaReservationState reservationSize space base size change rights uncacheable file =
      some (status,space')) : size ≠ 0 ∧ size % pageSize = 0 := by
  simp only [vmChangeVaReservationState,Option.bind_eq_bind,Option.bind_eq_some_iff] at h
  obtain ⟨_,_,_,hsize,_,_,_,haligned,_⟩ := h
  exact ⟨bne_iff_ne.mp (assert_eq_some.mp hsize),beq_iff_eq.mp (assert_eq_some.mp haligned)⟩

theorem vmReservationSpaceAllocRegion_whole {space space' : VmmReservationSpace}
    {request : AllocRequest}
    (h : vmReservationSpaceAllocRegion reservationSize space request =
      some (.success,some (base,size),space')) : size ≠ 0 ∧ size % pageSize = 0 := by
  simp only [vmReservationSpaceAllocRegion,vmReservationSpaceChangeRange,Option.bind_eq_bind,
    Option.bind_eq_some_iff] at h
  obtain ⟨_,_,_,hflags,h⟩ := h
  have hflags := assert_eq_some.mp hflags
  cases hrange : allocRange space request.baseAddress request.size with
  | mk found space₁ =>
    rw [hrange] at h
    cases found with
    | none => exact absurd (Prod.mk.inj (Option.some.inj h)).1 (by decide)
    | some range =>
      simp only [Option.bind_eq_some_iff] at h
      obtain ⟨⟨reserved,space₂⟩,hreserve,h⟩ := h
      by_cases hreserved : reserved = .success
      · rw [if_neg (not_not_intro hreserved)] at h
        obtain ⟨⟨committed,space₃⟩,hcommit,h⟩ := Option.bind_eq_some_iff.mp h
        by_cases hcommitted : committed = .success
        · rw [if_neg (not_not_intro hcommitted)] at h
          obtain rfl : range = (base,size) :=
            Option.some.inj (Prod.mk.inj (Prod.mk.inj (Option.some.inj h)).2).1
          cases hdoes : request.allocType.reserve with
          | true =>
            rw [hdoes] at hreserve
            exact vmChangeVaReservationState_whole hreserve
          | false =>
            have hcommits : request.allocType.commit = true := by
              rwa [hdoes,Bool.or_false] at hflags
            rw [hcommits] at hcommit
            exact vmChangeVaReservationState_whole hcommit
        · rw [if_pos hcommitted] at h
          exact absurd (Prod.mk.inj (Option.some.inj h)).1 hcommitted
      · rw [if_pos hreserved] at h
        exact absurd (Prod.mk.inj (Option.some.inj h)).1 hreserved

theorem MemoryManager.setMapped_roots {mapped : WalkState PagingData}
    (hpool : (s.pagingData pagingData).SamePool mapped.context) :
    (s.setMapped pagingData mapped).roots = s.roots :=
  rootsOf_update hpool

/-- An eager call that returns an address has mapped every page of the region if and only if the
frames were at hand. -/
theorem eager_region_mapped_iff (htree : PagingTree s.memory (s.pagingData pagingData))
    (hsmall : ∀ count, NoLargePages s.memory (s.roots pagingData) (rangePaths base count))
    (hmdl : ∀ mdl ∈ request.mdl, mdl.Valid)
    (hpointer : (s.space vaSpace).freeVirtualAddressPointer < qwordModulus)
    (hrange : (allocRange (s.space vaSpace) request.region.baseAddress
      request.region.size).1 = some (base,size))
    (hlazy : request.region.notLazy = true)
    (hcall : vmmAllocBackedRegion vmmData reservationSize s vaSpace pagingData request fileRead =
      some (base,s')) (hbase : base ≠ 0) :
    RegionBacked s s' pagingData request base size ↔ FramesAtHand s pagingData request base size := by
  have hwalk (count : Nat) : WalkInv (rangePaths base count)
      (WalkState.mk s.memory (s.pagingData pagingData)).memory
      (WalkState.mk s.memory (s.pagingData pagingData)).context := ⟨htree,hsmall count⟩
  obtain ⟨⟨locals,s₁⟩,htry,hfinally⟩ := Option.bind_eq_some_iff.mp hcall
  obtain ⟨hsucceeded,haddress,rfl⟩ := vmmAllocRegionFinally_address hfinally hbase
  have hsame {size' : Nat} {space : VmmReservationSpace}
      (halloc : vmReservationSpaceAllocRegion reservationSize (s.space vaSpace)
        request.allocRequest = some (.success,some (base,size'),space)) :
      size = size' ∧ base < qwordModulus ∧ size / pageSize ≠ 0 := by
    obtain ⟨-,hfound⟩ := vmReservationSpaceAllocRegion_range request.region.base_lt hpointer halloc
    obtain ⟨hfound,hword⟩ := hfound _ rfl
    obtain rfl : size = size' := by
      have hboth := hrange.symm.trans hfound
      exact (Prod.mk.inj (Option.some.inj hboth)).2
    obtain ⟨hnonzero,hwhole⟩ := vmReservationSpaceAllocRegion_whole halloc
    refine ⟨rfl,hword,?_⟩
    simp only [pageSize] at hwhole ⊢
    omega
  unfold RegionBacked FramesAtHand
  cases vmmAllocRegionTry_ends htry with
  | refused => exact absurd hsucceeded Bool.false_ne_true
  | unbacked _ _ hnotLazy => exact absurd (hnotLazy.symm.trans hlazy) Bool.false_ne_true
  | @described base' size' space mdl mapped halloc _ hlist haligned hmap =>
    obtain rfl : base = base' := haddress.symm
    obtain ⟨rfl,hword,-⟩ := hsame halloc
    have hvalid := hmdl mdl hlist
    have hstart : 0 = 0 * pageSize := (Nat.zero_mul _).symm
    rw [hstart] at hmap
    have hbound : 0 + (mdl.translations.flatMap MdlTranslationPair.frames).length ≤ 2 ^ 36 := by
      rw [Nat.zero_add]
      exact hvalid.length_le.trans (by decide)
    have hput := vmmMapDescribedRegion_put rangePaths_length haligned mdl.translations hvalid.whole 0
      hbound subset_rfl (hwalk _) hmap
    have hroots : ((s.setSpace vaSpace space).setMapped pagingData mapped).roots = s.roots :=
      MemoryManager.setMapped_roots hput.pool
    rw [walkAddress_zero hword] at hput
    simp only [hlist,hroots]
    apply forall_congr'
    intro k
    apply imp_congr_right
    intro hk
    apply exists_congr
    intro frame
    apply and_congr_right
    intro hframe
    obtain ⟨hlength,-⟩ := List.getElem?_eq_some_iff.mp hframe
    have hpage : mappedTo ((s.setSpace vaSpace space).setMapped pagingData mapped).memory
        (s.roots pagingData) (walkAddress base k) =
          (mappedTo s.memory (s.roots pagingData) (walkAddress base k)).or (some frame) := by
      rw [← hframe]
      exact hput.pages k hlength
    rw [hpage]
    cases mappedTo s.memory (s.roots pagingData) (walkAddress base k) with
    | none => simp
    | some frame' => simp
  | noFrames halloc _ hlist hreserve =>
    obtain rfl := haddress
    obtain ⟨rfl,-,hcount⟩ := hsame halloc
    simp only [hlist]
    rw [← pmmReserveMemory_ne_zero hcount,hreserve]
    refine iff_of_false ?_ (fun hne => hne rfl)
    rintro ⟨pa,hpa,hsamePa,-⟩
    exact hpa (Prod.mk.inj hsamePa).1.symm
  | @mapped _ _ pa space bitmap mapped _ halloc _ hlist _ hframes hreserve hpa hmap _ =>
    obtain rfl := haddress
    obtain ⟨rfl,hword,hcount⟩ := hsame halloc
    have hbound : size ≤ 2 ^ 48 := by
      simp only [pageSize,maxDword] at hframes
      omega
    have hput := mmuMapMemoryInternal_put rangePaths_length hword hbound subset_rfl (hwalk _) hmap
    have hroots : ((s.setSpace vaSpace space).setReserved pagingData bitmap mapped).roots = s.roots :=
      MemoryManager.setMapped_roots hput.pool
    simp only [hlist]
    rw [← pmmReserveMemory_ne_zero hcount,hreserve,hroots]
    refine iff_of_true ⟨pa,hpa,rfl,?_⟩ hpa
    intro k hk
    exact hput.pages k hk

end Eager

/-- A region wherever there is room, to be mapped at once. -/
def eagerRegion (size : Nat) : BackedRequest where
  region := ⟨0,size,⟨true,true⟩,true,pageRightsReadWrite,false,null_lt⟩
  zero := false
  fileObject := none
  mdl := none

/-- Two of the fifteen free frames are enough. -/
theorem eager_region_mapped_two : ∃ s' : MemoryManager Unit,
    vmmAllocBackedRegion ⟨0,3⟩ 56 exampleManager (some ()) (some ()) (eagerRegion 0x2000) none =
      some (0x1000000,s') ∧
    RegionBacked exampleManager s' (some ()) (eagerRegion 0x2000) 0x1000000 0x2000 := by
  have hcall : (vmmAllocBackedRegion ⟨0,3⟩ 56 exampleManager (some ()) (some ())
      (eagerRegion 0x2000) none).any
      (fun result => decide (result.1 = 0x1000000)) = true := by decide +kernel
  obtain ⟨⟨base,s'⟩,hcall,hbase⟩ := Option.any_eq_true _ _ |>.mp hcall
  obtain rfl : base = 0x1000000 := of_decide_eq_true hbase
  have hwellFormed : (exampleManager.pagingData (some ())).WellFormed :=
    exampleManager_start.forest.wellFormed (some ())
  refine ⟨s',hcall,(eager_region_mapped_iff (emptyTables_treeCondition hwellFormed rfl).toPagingTree
    ?_ ?_ (by decide) (by decide) rfl hcall (by decide)).mpr ?_⟩
  · intro count path offset table _ _ hpresent
    cases hpresent
  · intro mdl hmdl
    cases hmdl
  · refine ⟨⟨1,by decide,by decide⟩,?_⟩
    intro hrun
    exact absurd (hrun.2 0 (by decide)) (by decide)

/-- There are no sixteen free frames: the address is returned, and nothing is mapped there. -/
theorem eager_region_unmapped : exampleManager.Start ∧ ∃ s' : MemoryManager Unit,
    vmmAllocBackedRegion ⟨0,3⟩ 56 exampleManager (some ()) (some ()) (eagerRegion 0x10000) none =
      some (0x1000000,s') ∧
    mappedTo s'.memory (s'.roots (some ())) 0x1000000 = none ∧
    ¬ RegionBacked exampleManager s' (some ()) (eagerRegion 0x10000) 0x1000000 0x10000 := by
  have hcall : (vmmAllocBackedRegion ⟨0,3⟩ 56 exampleManager (some ()) (some ())
      (eagerRegion 0x10000) none).any
      (fun result : Nat × MemoryManager Unit => decide (result.1 = 0x1000000 ∧
        mappedTo result.2.memory (result.2.roots (some ())) 0x1000000 = none)) = true := by
    decide +kernel
  obtain ⟨⟨base,s'⟩,hcall,hresult⟩ := Option.any_eq_true _ _ |>.mp hcall
  obtain ⟨hbase,hnone⟩ := of_decide_eq_true hresult
  obtain rfl : base = 0x1000000 := hbase
  refine ⟨exampleManager_start,s',hcall,hnone,?_⟩
  rintro ⟨pa,_,_,hpages⟩
  have hfirst := hpages 0 (by decide)
  rw [walkAddress_zero (by decide),hnone] at hfirst
  exact absurd hfirst (by simp)

end Hal9000
