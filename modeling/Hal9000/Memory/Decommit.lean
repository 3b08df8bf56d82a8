import Hal9000.Memory.FrameConservation
import Hal9000.Memory.PageMapInMemory
import Hal9000.Memory.UnmapRange
import Hal9000.Memory.UserBuffer

/-!
# Decommitting a range

A decommit looks up the reservation of its first byte. The range, rounded to pages, decides which
commit bits are cleared and which pages are unmapped.
-/

namespace Hal9000

/-- The pages of the range that are unmapped: those up to a multiple of 4 GB. -/
def decommitPages (address size : Nat) : Nat :=
  pagesWalked (decommitRange address size).1 (decommitRange address size).2

/-- The address lies in the reservation. -/
def VmmReservation.Contains (r : VmmReservation) (address : Nat) : Prop :=
  checkBounds address 1 r.startVa r.size = true

variable {Process Space : Type} [DecidableEq Process] {reservationSize : Nat}
  {s s' : MemoryManager Process} {process : Option Process} {address size k : Nat}
  {r : VmmReservation} {release : Bool}

omit [DecidableEq Process] in
theorem forestRangeUnmapped_nil {s : MemoryManager Process Space}
    (h : PagingForest s.memory s.pagingData) (base first : Nat) :
    ForestRangeUnmapped s.pagingData s.memory process base first first s.memory where
  forest := h
  tables _ _ _ := rfl
  mapped k pa hle hlt := by omega
  entries page entry := by
    constructor
    · intro hold
      exact ⟨hold,fun k hle hlt => by omega⟩
    · exact fun hold => hold.1

omit [DecidableEq Process] in
theorem MemoryManager.unmap_pages {s s' : MemoryManager Process Space}
    (hforest : PagingForest s.memory s.pagingData)
    {virtualAddress : Nat} (hbase : alignAddressLower virtualAddress pageSize ≠ 0)
    (h : s.unmap process virtualAddress size release = some s') :
    ∃ memory', ForestRangeUnmapped s.pagingData s.memory process
        (alignAddressLower virtualAddress pageSize) 0 (pagesWalked virtualAddress size) memory' ∧
      s' = s.setUnmapped memory' (if release then releasedFrames s.memory (s.roots process)
        (alignAddressLower virtualAddress pageSize) 0 (pagesWalked virtualAddress size) else []) := by
  simp only [MemoryManager.unmap,Option.bind_eq_bind,Option.bind_eq_some_iff] at h
  obtain ⟨unmapped,hwalk,items,hitems,hs'⟩ := h
  obtain rfl := Option.some.inj hs'
  obtain ⟨-,rfl⟩ := mmuReleaseMemory_all hitems
  simp only [mmuUnmapMemoryEx,alignedSize_eq,Option.bind_eq_bind,Option.bind_eq_some_iff] at hwalk
  obtain ⟨_,_,_,_,hwalk⟩ := hwalk
  have hcount : pagesWalked virtualAddress size * pageSize / pageSize =
      pagesWalked virtualAddress size := Nat.mul_div_cancel _ (by decide)
  have hbound : pagesWalked virtualAddress size < 2 ^ 20 := Nat.mod_lt _ (Nat.two_pow_pos 20)
  have hsize : pagesWalked virtualAddress size * pageSize ≤ 2 ^ 48 := by
    simp only [pageSize]
    omega
  rcases vmmUnmapMemoryEx_forest release hforest process hsize hwalk with
    ⟨hrefused,rfl⟩ | ⟨_,hunmapped,hreleased⟩
  · have hzero : pagesWalked virtualAddress size = 0 := by
      simp only [isAddressAligned,alignAddressLower,pageSize,Nat.mul_mod_left] at hrefused hbase
      simp at hrefused
      omega
    rw [hzero]
    refine ⟨s.memory,forestRangeUnmapped_nil hforest _ _,?_⟩
    cases release with
    | false => rfl
    | true => rfl
  · rw [hcount] at hunmapped hreleased
    refine ⟨_,hunmapped,?_⟩
    rw [hreleased]
    rfl

theorem tableOffsets_ptrOffset (base offset : Nat) :
    tableOffsets (ptrOffset base offset) = tableOffsets (base + offset) := by
  simp only [tableOffsets,tableOffset,ptrOffset,pagingTablesLastLevel,qwordModulus,
    List.cons.injEq,Fin.ext_iff,Fin.ofNat,and_true]
  refine ⟨?_,?_,?_,?_⟩ <;> omega

omit [DecidableEq Process] in
private theorem mappedTo_of_holds {s : MemoryManager Process Space} {page : PageEntry} {entry : PtEntry} {virtualAddress : Nat}
    (hof : PageEntry.Of s.memory (s.roots process) virtualAddress page)
    (hold : PageEntry.Holds s.memory s.roots page entry) :
    mappedTo s.memory (s.roots process) virtualAddress = some entry.physicalAddress := by
  rw [mappedTo,hof.leafAt,hold.entry_eq,if_pos hold.present]
  rfl

namespace InMemory

def VmmReservation.Contains (r : VmmReservation) (address : Nat) : Prop :=
  r.startVa ≤ address ∧ address < r.startVa + r.size

def VmmReservationSpace.Live (space : VmmReservationSpace) (index : Nat) (r : VmmReservation) :
    Prop :=
  space.entries[index]? = some r ∧ r.state = .used

/-- A live reservation contains the address, and no live one in front of it does. -/
structure VmmReservationSpace.FirstContaining (space : VmmReservationSpace) (address index : Nat)
    (r : VmmReservation) : Prop where
  live : space.Live index r
  contains : r.Contains address
  first : ∀ j r', j < index → space.Live j r' → ¬ r'.Contains address

/-- The bitmap of a released reservation is unmapped in the kernel, before its pages are. -/
def vmmFreeRegionEx (lib : CommonLib) (reservationSize : Nat)
    (s : MemoryManager Process VmmReservationSpace) (process : Option Process) (address : Nat)
    (freeType : VmmFreeType) (release : Bool) :
    Option (MemoryManager Process VmmReservationSpace) := do
  let ((alignedAddress, alignedSize), uninitialized, space) ←
    vmReservationSpaceFreeRegion lib reservationSize (s.space process) address freeType
  let s := s.setSpace process space
  let s ← match uninitialized with
    | none => pure s
    | some reservation =>
      let bitmap := reservation.commitBitmap
      s.unmap none bitmap.bitmapBuffer bitmap.bufferSize true
  assert (alignedAddress != 0)
  assert (alignedSize != 0)
  s.unmap process alignedAddress alignedSize release

end InMemory

/-- The reservations keep all but commit bits of one of them. Page-table entries for addresses
outside it are as they were in every address space, and the frames that are given up were mapped
at addresses of the reservation. -/
structure DecommitConfined (lib : CommonLib) (s s' : MemoryManager Process InMemory.VmmReservationSpace)
    (process : Option Process) (k : Nat) (r : InMemory.VmmReservation) : Prop where
  entries : ∃ memory, s' = { s.setSpace process { s.space process with memory := memory } with
    memory := s'.memory
    pagesToZeroList := s'.pagesToZeroList }
  commitBits : ∀ other j r', (s.space other).Live j r' → other ≠ process ∨ j ≠ k →
    ∀ page < r'.commitBitmap.bitCount,
      lib.bitmapGetBitValue r'.commitBitmap page (s'.space other).memory =
        lib.bitmapGetBitValue r'.commitBitmap page (s.space other).memory
  mappings : ∀ page entry,
    (∀ address, r.Contains address → ¬ PageEntry.Of s.memory (s.roots process) address page) →
    (PageEntry.Holds s'.memory s'.roots page entry ↔ PageEntry.Holds s.memory s.roots page entry)
  frames : ∃ released : List Nat,
    s'.pagesToZeroList = s.pagesToZeroList ++ released.map (fun pa => ⟨pa,1⟩) ∧
      ∀ pa ∈ released, ∃ address, r.Contains address ∧
        mappedTo s.memory (s.roots process) address = some pa

/-- The range, rounded to pages, ends where the reservation does or before. -/
def DecommitInside (address size : Nat) (r : InMemory.VmmReservation) : Prop :=
  (decommitRange address size).1 + (decommitRange address size).2 ≤ r.startVa + r.size

/-- The mapped pages of the range that are unmapped start before the reservation ends. -/
def MappedPagesInside (s : MemoryManager Process InMemory.VmmReservationSpace)
    (process : Option Process) (address size : Nat) (r : InMemory.VmmReservation) : Prop :=
  ∀ j < decommitPages address size,
    (mappedTo s.memory (s.roots process)
      (walkAddress (decommitRange address size).1 j)).isSome →
    (decommitRange address size).1 + j * pageSize < r.startVa + r.size

section InMemory

variable {lib : CommonLib} {metadataBase reservationBase metadataSize : Nat}
  {s s' : MemoryManager Process InMemory.VmmReservationSpace} {r : InMemory.VmmReservation}
  {own : VmmReservationSpace} {memory : BitMemory}

theorem live_inMemory : (own.inMemory memory).Live k r ↔
    ∃ entry, own.Live k entry ∧ r = entry.inMemory := by
  have hentries : (own.inMemory memory).entries = own.entries.map VmmReservation.inMemory := rfl
  rw [InMemory.VmmReservationSpace.Live,hentries,List.getElem?_map,Option.map_eq_some_iff]
  constructor
  · rintro ⟨⟨entry,hentry,rfl⟩,hused⟩
    exact ⟨entry,⟨hentry,hused⟩,rfl⟩
  · rintro ⟨entry,hentry,rfl⟩
    exact ⟨⟨entry,hentry.1,rfl⟩,hentry.2⟩

/-- In a run the reservations have bitmaps apart from each other. -/
theorem reachable_apart (hlib : lib.Documented)
    (hfits : metadataBase + metadataSize + maxBitmapBytes < qwordModulus)
    {space : InMemory.VmmReservationSpace}
    (h : (InMemory.metadataSystem lib reservationSize metadataBase reservationBase
      metadataSize).ReachableUnder InMemory.InWords space) :
    ∃ own memory, space = own.inMemory memory ∧ BitmapsApart reservationSize own := by
  obtain ⟨history,hrecorded⟩ := TransitionSystem.ReachableUnder.exists_recording
    (InMemory.pageEvents lib reservationSize) h
  obtain ⟨own,memory,hspace,_,hapart,_⟩ := reachable_inMemory hlib hfits hrecorded
  exact ⟨own,memory,hspace,hapart⟩

/-- A decommit clears bits of the first reservation that contains the address, and unmaps the
rounded range. -/
theorem vmmFreeRegionEx_decommit (hlib : lib.Documented) (hapart : BitmapsApart reservationSize own)
    (hown : s.space process = own.inMemory memory)
    (hfirst : (s.space process).FirstContaining address k r)
    (h : InMemory.vmmFreeRegionEx lib reservationSize s process address (.decommit size) release =
      some s') :
    (decommitRange address size).1 ≠ 0 ∧ ∃ entry interval memory', own.Live k entry ∧
      r = entry.inMemory ∧
      pageInterval (decommitRange address size).1 (decommitRange address size).2 entry =
        some interval ∧
      lib.bitmapClearBits r.commitBitmap interval.1 interval.2 memory = some memory' ∧
      (s.setSpace process { s.space process with memory := memory' }).unmap process
        (decommitRange address size).1 (decommitRange address size).2 release = some s' := by
  rw [hown] at hfirst
  obtain ⟨entry,hlive,rfl⟩ := live_inMemory.mp hfirst.live
  obtain ⟨hlow,hhigh⟩ : entry.startVa ≤ address ∧ address < entry.startVa + entry.size :=
    hfirst.contains
  have hword := hapart.words k entry hlive
  have hcovers : checkBounds address 1 entry.startVa entry.size = true :=
    checkBounds_eq_true.mpr ⟨hlow,hhigh⟩
  have hfirst' : own.FirstCovering address 1 k entry := by
    refine ⟨hlive,hcovers,fun j r' hj hr' => ?_⟩
    rw [Bool.eq_false_iff]
    intro hin
    exact hfirst.first j r'.inMemory hj (live_inMemory.mpr ⟨r',hr',rfl⟩)
      (checkBounds_eq_true.mp hin)
  obtain ⟨⟨range,copy,space⟩,hfree,h⟩ := Option.bind_eq_some_iff.mp h
  rw [hown] at hfree
  obtain ⟨k',entry',interval,memory',rfl,hfound,hlive',_,rfl,hinterval,hclear,rfl,_⟩ :=
    freeRegion_decommit_inMemory hlib hapart (by omega) hfree
  obtain ⟨k₁,entry₁,hk₁,hfirst₁⟩ := exists_firstCovering hapart.shape hfound hlive hcovers
  obtain ⟨rfl,rfl⟩ := firstCovering_unique hfirst' hfirst₁
  obtain rfl := Option.some.inj hk₁
  obtain rfl := Option.some.inj (hlive'.1.symm.trans hlive.1)
  obtain ⟨s₁,hs₁,h⟩ := Option.bind_eq_some_iff.mp h
  obtain rfl := Option.some.inj hs₁
  obtain ⟨_,hbase,h⟩ := Option.bind_eq_some_iff.mp h
  obtain ⟨_,_,hunmap⟩ := Option.bind_eq_some_iff.mp h
  rw [hown]
  exact ⟨bne_iff_ne.mp (assert_eq_some.mp hbase),entry',interval,memory',hlive',rfl,hinterval,
    hclear,hunmap⟩

private theorem contains_iff (hstart : r.startVa % pageSize = 0) (hcontains : r.Contains address)
    (j : Nat) :
    r.Contains ((decommitRange address size).1 + j * pageSize) ↔
      (decommitRange address size).1 + j * pageSize < r.startVa + r.size := by
  obtain ⟨hlow,_⟩ := hcontains
  simp only [InMemory.VmmReservation.Contains,decommitRange,alignAddressLower,pageSize] at hstart ⊢
  omega

private theorem contains_of_tableOffsets (hargs : ReserveArguments r.startVa r.size)
    (hcontains : r.Contains address) {j address' : Nat}
    (hj : j < decommitPages address size) (hcontains' : r.Contains address')
    (h : tableOffsets (walkAddress (decommitRange address size).1 j) = tableOffsets address') :
    (decommitRange address size).1 + j * pageSize < r.startVa + r.size := by
  have hpages := pageNumber_of_tableOffsets h
  have hbound : decommitPages address size < 2 ^ 20 := Nat.mod_lt _ (Nat.two_pow_pos 20)
  have hstart := hargs.base_aligned
  have hsize := hargs.size_aligned
  have hle := hargs.pages_le
  simp only [InMemory.VmmReservation.Contains,walkAddress,ptrOffset,decommitRange,
    alignAddressLower,pageSize,qwordModulus,maxDword] at *
  omega

omit [DecidableEq Process] in
private theorem DecommitInside.mappedPagesInside (h : DecommitInside address size r) :
    MappedPagesInside s process address size r := by
  intro j hj _
  have hwalked : decommitPages address size ≤ (decommitRange address size).2 / pageSize := by
    refine (Nat.mod_le _ _).trans ?_
    simp only [decommitRange,alignAddressLower,alignAddressUpper,addressOffset,pageSize]
    omega
  simp only [DecommitInside,pageSize] at h hwalked ⊢
  omega

/-- A decommit stays within the reservation that contains the address if its rounded range does,
and only if the mapped pages of that range do. -/
theorem decommit_confined (hlib : lib.Documented)
    (hfits : metadataBase + metadataSize + maxBitmapBytes < qwordModulus)
    (hforest : PagingForest s.memory s.pagingData)
    (hspace : (InMemory.metadataSystem lib reservationSize metadataBase reservationBase
      metadataSize).ReachableUnder InMemory.InWords (s.space process))
    (hfirst : (s.space process).FirstContaining address k r)
    (hcall : InMemory.vmmFreeRegionEx lib reservationSize s process address (.decommit size)
      release = some s') :
    (DecommitInside address size r → DecommitConfined lib s s' process k r) ∧
      (DecommitConfined lib s s' process k r → MappedPagesInside s process address size r) := by
  obtain ⟨own,memory,hown,hapart⟩ := reachable_apart hlib hfits hspace
  obtain ⟨hbase,entry,interval,memory',hlive,rfl,hinterval,hclear,hunmap⟩ :=
    vmmFreeRegionEx_decommit hlib hapart hown hfirst hcall
  have hargs : ReserveArguments entry.inMemory.startVa entry.inMemory.size :=
    hapart.arguments k entry hlive
  have hlow : entry.startVa ≤ (decommitRange address size).1 := by
    have hstart : entry.startVa % pageSize = 0 := hargs.base_aligned
    have hbelow : entry.startVa ≤ address := hfirst.contains.1
    simp only [decommitRange,alignAddressLower,pageSize] at hstart ⊢
    omega
  have hlower : alignAddressLower (decommitRange address size).1 pageSize =
      (decommitRange address size).1 := by
    simp only [decommitRange,alignAddressLower,pageSize]
    omega
  rw [← hlower] at hbase
  obtain ⟨tables,hunmapped,hs'⟩ := MemoryManager.unmap_pages
    (s := s.setSpace process { s.space process with memory := memory' }) hforest hbase hunmap
  rw [hlower] at hunmapped hs'
  change ForestRangeUnmapped s.pagingData s.memory process (decommitRange address size).1 0
    (decommitPages address size) tables at hunmapped
  subst hs'
  constructor
  · intro hinside
    have hmapped : MappedPagesInside s process address size entry.inMemory :=
      hinside.mappedPagesInside
    have hoffsets (j : Nat) : tableOffsets (walkAddress (decommitRange address size).1 j) =
        tableOffsets ((decommitRange address size).1 + j * pageSize) :=
      tableOffsets_ptrOffset _ _
    refine ⟨⟨memory',rfl⟩,?_,?_,?_⟩
    · intro other j r' hr' hother page hpage
      change lib.bitmapGetBitValue r'.commitBitmap page (Function.update s.space process
        { s.space process with memory := memory' } other).memory = _
      by_cases hsame : other = process
      · subst hsame
        rw [Function.update_self]
        rw [hown] at hr' ⊢
        obtain ⟨old,hold,rfl⟩ := live_inMemory.mp hr'
        have hbounds : checkBounds (decommitRange address size).1 (decommitRange address size).2
            entry.startVa entry.size = true := checkBounds_eq_true.mpr ⟨hlow,hinside⟩
        have hwrites := (decommit_followedBy hlib hapart hlive hbounds hinterval hclear).1
        apply hlib.bitmapGetBitValue _ _ _ (hapart.fits hold) _ page hpage
        intro bit hbit
        exact hwrites.outside bit
          (hapart.not_covers hold hlive (hother.resolve_left fun hne => hne rfl) hbit)
      · rw [Function.update_of_ne hsame]
    · intro page entry' hnot
      refine (hunmapped.entries page entry').trans ⟨fun h => h.1,fun hold => ⟨hold,?_⟩⟩
      intro j _ hj hof
      have hlt := hmapped j hj (Option.isSome_iff_exists.mpr ⟨_,mappedTo_of_holds hof hold⟩)
      refine hnot _ ((contains_iff hargs.base_aligned hfirst.contains j).mpr hlt) ⟨?_,hof.table⟩
      rw [hof.path,hoffsets j]
    · refine ⟨_,rfl,?_⟩
      intro pa hpa
      cases release with
      | false => cases hpa
      | true =>
        obtain ⟨j,hj,hpa⟩ := List.mem_filterMap.mp hpa
        have hj := (List.mem_range'_1.mp hj).2
        rw [Nat.zero_add] at hj
        have hlt := hmapped j hj (Option.isSome_iff_exists.mpr ⟨pa,hpa⟩)
        refine ⟨_,(contains_iff hargs.base_aligned hfirst.contains j).mpr hlt,?_⟩
        rw [mappedTo,← hoffsets j]
        exact hpa
  · intro hconfined j hj hmapped
    obtain ⟨pa,hpa⟩ := Option.isSome_iff_exists.mp hmapped
    obtain ⟨page,entry',hof,hold,-⟩ := hunmapped.mapped j pa (Nat.zero_le j) hj hpa
    have hgone : ¬ PageEntry.Holds tables s.roots page entry' := by
      intro hold'
      exact ((hunmapped.entries page entry').mp hold').2 j (Nat.zero_le j) hj hof
    by_contra hbeyond
    refine hgone ((hconfined.mappings page entry' ?_).mpr hold)
    intro address' hcontains' hof'
    exact hbeyond (contains_of_tableOffsets hargs hfirst.contains hj hcontains'
      (hof.tableOffsets_eq hof'))

end InMemory

section Runs

variable {vmmData : VmmData} {highestPhysicalAddress metadataBase reservationBase metadataSize : Nat}

omit [DecidableEq Process] in
theorem unmap_space {virtualAddress : Nat}
    (h : s.unmap process virtualAddress size release = some s') : s'.space = s.space := by
  simp only [MemoryManager.unmap,Option.bind_eq_bind,Option.bind_eq_some_iff] at h
  obtain ⟨_,_,_,_,hs'⟩ := h
  obtain rfl := Option.some.inj hs'
  rfl

private theorem vmmAllocRegionEx_space {request : RegionRequest} {base : Nat}
    (h : vmmAllocRegionEx vmmData reservationSize s process request = some (base,s')) :
    ∃ space, (reservationSystem reservationSize).step (s.space process)
        (.alloc request.allocRequest) = some space ∧
      s'.space = Function.update s.space process space := by
  simp only [vmmAllocRegionEx,Option.bind_eq_bind,Option.bind_eq_some_iff] at h
  obtain ⟨_,_,_,_,⟨status,range,space⟩,halloc,h⟩ := h
  refine ⟨space,Option.map_eq_some_iff.mpr ⟨_,halloc,rfl⟩,?_⟩
  split at h
  · rename_i space₁ heq
    obtain rfl : space = space₁ := (Prod.mk.inj (Prod.mk.inj heq).2).2
    obtain ⟨_,_,h⟩ := Option.bind_eq_some_iff.mp h
    split at h
    · simp only [Option.bind_eq_some_iff] at h
      obtain ⟨_,_,_,_,h⟩ := h
      split at h
      · rw [← (Prod.mk.inj (Option.some.inj h)).2]
        rfl
      · obtain ⟨_,_,h⟩ := Option.bind_eq_some_iff.mp h
        rw [← (Prod.mk.inj (Option.some.inj h)).2]
        rfl
    · rw [← (Prod.mk.inj (Option.some.inj h)).2]
      rfl
  · rename_i space₁ _ heq
    obtain rfl : space = space₁ := (Prod.mk.inj (Prod.mk.inj heq).2).2
    rw [← (Prod.mk.inj (Option.some.inj h)).2]
    rfl

theorem vmmFreeRegionEx_space {freeType : VmmFreeType}
    (h : vmmFreeRegionEx reservationSize s process address freeType release = some s') :
    ∃ space, (reservationSystem reservationSize).step (s.space process)
        (.free address freeType) = some space ∧
      s'.space = Function.update s.space process space := by
  obtain ⟨⟨range,copy,space⟩,hfree,h⟩ := Option.bind_eq_some_iff.mp h
  refine ⟨space,Option.map_eq_some_iff.mpr ⟨_,hfree,rfl⟩,?_⟩
  cases copy with
  | none =>
    obtain ⟨s₁,hs₁,h⟩ := Option.bind_eq_some_iff.mp h
    obtain rfl := Option.some.inj hs₁
    obtain ⟨_,_,h⟩ := Option.bind_eq_some_iff.mp h
    obtain ⟨_,_,h⟩ := Option.bind_eq_some_iff.mp h
    exact unmap_space h
  | some reservation =>
    obtain ⟨s₁,hs₁,h⟩ := Option.bind_eq_some_iff.mp h
    obtain ⟨_,_,h⟩ := Option.bind_eq_some_iff.mp h
    obtain ⟨_,_,h⟩ := Option.bind_eq_some_iff.mp h
    exact (unmap_space h).trans (unmap_space hs₁)

/-- The reservation space of a process goes through reservation calls only. -/
theorem process_space_reachable {start : MemoryManager Process} {owner : Process}
    (hstart : (metadataSystem reservationSize metadataBase reservationBase
      metadataSize).Reachable (start.space (some owner)))
    {guard : MemoryManager Process → RegionAction Process → Prop}
    (h : (regionSystem vmmData reservationSize highestPhysicalAddress start).ReachableUnder
      guard s) :
    (metadataSystem reservationSize metadataBase reservationBase
      metadataSize).Reachable (s.space (some owner)) := by
  induction h with
  | init hinit =>
    obtain ⟨rfl,-⟩ := hinit
    exact hstart
  | @step s s' action _ _ hstep ih =>
    have hupdate : ∀ {process call space}, (reservationSystem reservationSize).step
        (s.space process) call = some space → s'.space = Function.update s.space process space →
        (metadataSystem reservationSize metadataBase reservationBase
          metadataSize).Reachable (s'.space (some owner)) := by
      intro process call space hcall hspace
      rw [hspace]
      by_cases howner : some owner = process
      · subst howner
        rw [Function.update_self]
        exact .step ih trivial hcall
      · rw [Function.update_of_ne howner]
        exact ih
    cases action with
    | allocRegion process request =>
      obtain ⟨⟨base,s₁⟩,halloc,rfl⟩ := Option.map_eq_some_iff.mp hstep
      obtain ⟨space,hcall,hspace⟩ := vmmAllocRegionEx_space halloc
      exact hupdate hcall hspace
    | freeRegion process address freeType =>
      obtain ⟨space,hcall,hspace⟩ := vmmFreeRegionEx_space hstep
      exact hupdate hcall hspace
    | pageFault process faultingAddress rightsRequested metadataAccess =>
      simp only [regionSystem,regionStep] at hstep
      split at hstep
      · cases hstep
      · obtain ⟨⟨solved,s₁⟩,hfault,rfl⟩ := Option.map_eq_some_iff.mp hstep
        rcases vmmSolvePageFault_cases hfault with ⟨-,rfl⟩ | ⟨-,_,_,_,_,-,-,-,rfl⟩
        · exact ih
        · exact ih
    | zeroWorker =>
      cases hitems : s.pagesToZeroList with
      | nil =>
        simp only [regionSystem,regionStep,mmuZeroWorkerRound,hitems] at hstep
        exact Option.some.inj hstep ▸ ih
      | cons item rest =>
        simp only [regionSystem,regionStep,mmuZeroWorkerRound,hitems,Option.bind_eq_bind,
          Option.bind_eq_some_iff] at hstep
        obtain ⟨⟨_,_⟩,_,_,_,_,_,_,_,hs'⟩ := hstep
        rw [← Option.some.inj hs']
        exact ih

end Runs

/-- The entry of the list is in use, for a range. -/
def entryIs (space : VmmReservationSpace) (k startVa size : Nat) : Bool :=
  space.entries[k]?.any fun r => r.state == .used && r.startVa == startVa && r.size == size

theorem live_of_entryIs {space : VmmReservationSpace} {startVa : Nat}
    (h : entryIs space k startVa size = true) :
    ∃ r, space.Live k r ∧ r.startVa = startVa ∧ r.size = size := by
  obtain ⟨r,hr,h⟩ := Option.any_eq_true _ _ |>.mp h
  simp only [Bool.and_eq_true,beq_iff_eq] at h
  exact ⟨r,⟨hr,h.1.1⟩,h.1.2,h.2⟩

def MemoryManager.withSpace {Space' : Type} (s : MemoryManager Process Space) (space : Space') :
    MemoryManager Process Space' :=
  ⟨s.memory,s.pagingData,fun _ => space,s.allocationBitmap,s.pagesToZeroList⟩

def neighbourCalls : List ReservationCall :=
  [.alloc ⟨0,0x2000,⟨true,true⟩,pageRightsReadWrite,false,none⟩,
    .alloc ⟨0,0x1000,⟨true,true⟩,pageRightsReadWrite,false,none⟩]

def neighbourSystem : TransitionSystem InMemory.VmmReservationSpace ReservationCall :=
  InMemory.metadataSystem wordLib 56 0x10000 0x1000000 0x50000

private theorem neighbours_mapped
    (check : MemoryManager Unit InMemory.VmmReservationSpace → Bool)
    (hcheck : ((exampleRegions.run exampleManager
      [allocCall 0 0x2000 true true true (by decide),
        allocCall 0 0x1000 true true true (by decide)]).any fun s =>
          (neighbourSystem.run (exampleSpace.inMemory fun _ => true) neighbourCalls).any fun space =>
            check (s.withSpace space)) = true) :
    ∃ s : MemoryManager Unit InMemory.VmmReservationSpace, PagingForest s.memory s.pagingData ∧
      neighbourSystem.ReachableUnder InMemory.InWords (s.space (some ())) ∧
      (s.space (some ())).entries.map (fun r => (r.startVa,r.size,r.state)) =
        [(0x1000000,0x2000,.used),(0x1002000,0x1000,.used),(0,0,.last)] ∧ check s = true := by
  obtain ⟨s,hreach,hs⟩ := TransitionSystem.exists_reachable exampleRegions
    MemoryManager.MapsAbsentPages exampleManager ⟨rfl,exampleManager_start⟩
    [allocCall 0 0x2000 true true true (by decide),allocCall 0 0x1000 true true true (by decide)]
    _ (by decide +kernel) hcheck
  obtain ⟨space,hrun,hcheck⟩ := Option.any_eq_true _ _ |>.mp hs
  refine ⟨s.withSpace space,(frameInv_of_reachable hreach).forest,?_,?_,hcheck⟩
  · exact .run (.init ⟨fun _ => true,_,rfl,rfl⟩) (by decide +kernel) hrun
  · have hentries : (neighbourSystem.run (exampleSpace.inMemory fun _ => true)
        neighbourCalls).map (fun space => space.entries.map fun r => (r.startVa,r.size,r.state)) =
          some [(0x1000000,0x2000,.used),(0x1002000,0x1000,.used),(0,0,.last)] := by
      decide +kernel
    rw [hrun] at hentries
    exact Option.some.inj hentries

private theorem live_of_summary {space : InMemory.VmmReservationSpace} {startVa : Nat}
    (h : (space.entries.map fun r => (r.startVa,r.size,r.state))[k]? =
      some (startVa,size,.used)) :
    ∃ r, space.Live k r ∧ r.startVa = startVa ∧ r.size = size := by
  rw [List.getElem?_map,Option.map_eq_some_iff] at h
  obtain ⟨r,hr,heq⟩ := h
  simp only [Prod.mk.injEq] at heq
  exact ⟨r,⟨hr,heq.2.2⟩,heq.1,heq.2.1⟩

/-- The second page of the first reservation is decommitted. -/
theorem decommit_confined_inside :
    ∃ (s s' : MemoryManager Unit InMemory.VmmReservationSpace) (r : InMemory.VmmReservation),
      PagingForest s.memory s.pagingData ∧
      neighbourSystem.ReachableUnder InMemory.InWords (s.space (some ())) ∧
      (s.space (some ())).FirstContaining 0x1001000 0 r ∧
      InMemory.vmmFreeRegionEx wordLib 56 s (some ()) 0x1001000 (.decommit 0x1000) true = some s' ∧
      DecommitConfined wordLib s s' (some ()) 0 r := by
  obtain ⟨s,hforest,hspace,hentries,hfree⟩ := neighbours_mapped (fun s =>
    (InMemory.vmmFreeRegionEx wordLib 56 s (some ()) 0x1001000 (.decommit 0x1000) true).isSome)
    (by decide +kernel)
  obtain ⟨r,hlive,hstart,hsize⟩ := live_of_summary (k := 0) (by rw [hentries]; rfl)
  obtain ⟨s',hs'⟩ := Option.isSome_iff_exists.mp hfree
  have hfirst : (s.space (some ())).FirstContaining 0x1001000 0 r := by
    refine ⟨hlive,?_,fun j _ hj => absurd hj (Nat.not_lt_zero j)⟩
    rw [InMemory.VmmReservation.Contains,hstart,hsize]
    decide
  refine ⟨s,s',r,hforest,hspace,hfirst,hs',
    (decommit_confined wordLib_documented (by decide) hforest hspace hfirst hs').1 ?_⟩
  rw [DecommitInside,hstart,hsize]
  decide

/-- Two pages are decommitted from there on: the page of the other reservation is unmapped, and
its frame given up. -/
theorem decommit_reaches_neighbour :
    ∃ (s s' : MemoryManager Unit InMemory.VmmReservationSpace) (r r' : InMemory.VmmReservation),
      PagingForest s.memory s.pagingData ∧
      neighbourSystem.ReachableUnder InMemory.InWords (s.space (some ())) ∧
      (s.space (some ())).FirstContaining 0x1001000 0 r ∧ (s.space (some ())).Live 1 r' ∧
      r'.Contains 0x1002000 ∧ ¬ r.Contains 0x1002000 ∧
      InMemory.vmmFreeRegionEx wordLib 56 s (some ()) 0x1001000 (.decommit 0x2000) true = some s' ∧
      mappedTo s.memory (s.roots (some ())) 0x1002000 = some 0x3000 ∧ 3 ∉ s.framesToZero ∧
      mappedTo s'.memory (s'.roots (some ())) 0x1002000 = none ∧ 3 ∈ s'.framesToZero := by
  obtain ⟨s,hforest,hspace,hentries,hs⟩ := neighbours_mapped
    (fun s : MemoryManager Unit InMemory.VmmReservationSpace =>
      decide (mappedTo s.memory (s.roots (some ())) 0x1002000 = some 0x3000 ∧ 3 ∉ s.framesToZero) &&
      (InMemory.vmmFreeRegionEx wordLib 56 s (some ()) 0x1001000 (.decommit 0x2000) true).any
        fun s' : MemoryManager Unit InMemory.VmmReservationSpace =>
          decide (mappedTo s'.memory (s'.roots (some ())) 0x1002000 = none ∧ 3 ∈ s'.framesToZero))
    (by decide +kernel)
  simp only [Bool.and_eq_true,decide_eq_true_eq] at hs
  obtain ⟨⟨hmapped,hkept⟩,hfree⟩ := hs
  obtain ⟨r,hlive,hstart,hsize⟩ := live_of_summary (k := 0) (by rw [hentries]; rfl)
  obtain ⟨r',hlive',hstart',hsize'⟩ := live_of_summary (k := 1) (by rw [hentries]; rfl)
  obtain ⟨s',hs',hfree⟩ := Option.any_eq_true _ _ |>.mp hfree
  obtain ⟨hgone,hqueued⟩ := of_decide_eq_true hfree
  refine ⟨s,s',r,r',hforest,hspace,⟨hlive,?_,fun j _ hj => absurd hj (Nat.not_lt_zero j)⟩,hlive',
    ?_,?_,hs',hmapped,hkept,hgone,hqueued⟩
  · rw [InMemory.VmmReservation.Contains,hstart,hsize]
    decide
  · rw [InMemory.VmmReservation.Contains,hstart',hsize']
    decide
  · rw [InMemory.VmmReservation.Contains,hstart,hsize]
    decide

end Hal9000
