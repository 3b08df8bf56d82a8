import Hal9000.Memory.Regions

/-!
# Conservation of physical frames

A frame is free in the bitmap, mapped by one entry of a page table, or on the list of pages to
zero. Every call moves frames on from one of these roles to the next, as long as it maps pages
that were absent: a frame whose entry is overwritten is lost.
-/

namespace Hal9000

inductive FrameRole
  | free
  | mapped (page : PageEntry)
  | queued
  deriving DecidableEq

namespace MemoryManager

variable {Process Space : Type}

abbrev roots (s : MemoryManager Process Space) : Option Process → Nat := rootsOf s.pagingData

def framesToZero (s : MemoryManager Process Space) : List Nat :=
  s.pagesToZeroList.flatMap MmuZeroWorkerItem.frames

def MapsFrame (s : MemoryManager Process) (page : PageEntry) (frame : Nat) : Prop :=
  ∃ entry, PageEntry.Holds s.memory s.roots page entry ∧ entry.physicalAddress = frame * pageSize

def HasRole (s : MemoryManager Process) (frame : Nat) : FrameRole → Prop
  | .free => s.allocationBitmap.IsFree frame
  | .mapped page => s.MapsFrame page frame
  | .queued => frame ∈ s.framesToZero

/-- The frame has one role, and is queued once at most. -/
structure Conserves (s : MemoryManager Process) (frame : Nat) : Prop where
  role : ∃! role, s.HasRole frame role
  once : s.framesToZero.count frame ≤ 1

/-- No page of the range is mapped. -/
def PagesAbsent (s : MemoryManager Process) (process : Option Process) (base size : Nat) : Prop :=
  ∀ k < size / pageSize,
    s.memory.leafAt (s.roots process) (tableOffsets (walkAddress base k)) = none

instance (s : MemoryManager Process) (process : Option Process) (base size : Nat) :
    Decidable (s.PagesAbsent process base size) :=
  inferInstanceAs (Decidable (∀ k < size / pageSize, _))

/-- The pages that an allocation which finds frames, a fault or the worker maps are not mapped
before, and the frames found for an allocation do not begin at frame 0, whose address is `NULL`. -/
def MapsAbsentPages (s : MemoryManager Process) : RegionAction Process → Prop
  | .allocRegion process request => request.notLazy = true →
    ∀ range ∈ (allocRange (s.space process) request.baseAddress request.size).1,
      ∀ index ∈ bitmapScanFrom s.allocationBitmap 0 (range.2 / pageSize),
        index ≠ 0 ∧ s.PagesAbsent process range.1 range.2
  | .freeRegion _ _ _ => True
  | .pageFault process faultingAddress _ _ =>
    s.PagesAbsent process (alignAddressLower faultingAddress pageSize) pageSize
  | .zeroWorker => ∀ item ∈ s.pagesToZeroList.head?,
    s.PagesAbsent none (s.space none).freeVirtualAddressPointer item.noOfBytes

instance (s : MemoryManager Process) : ∀ action, Decidable (s.MapsAbsentPages action)
  | .allocRegion _ _ => inferInstanceAs (Decidable (_ → ∀ range ∈ _, ∀ index ∈ _, _))
  | .freeRegion _ _ _ => .isTrue trivial
  | .pageFault process _ _ _ => inferInstanceAs (Decidable (s.PagesAbsent process _ _))
  | .zeroWorker => inferInstanceAs (Decidable (∀ item ∈ _, s.PagesAbsent _ _ _))

/-- A state of a running system: the paging structures are in order, and what the bitmap shows
as free is neither mapped, by a page of whatever size, nor queued. -/
structure Start (s : MemoryManager Process) : Prop where
  forest : PagingForest s.memory s.pagingData
  frames_le : s.allocationBitmap.bitCount ≤ maxDword
  pointers : ∀ process, (s.space process).freeVirtualAddressPointer < qwordModulus
  unmapped : ∀ frame, s.allocationBitmap.IsFree frame → ∀ process path entry levels,
    path.length = 4 → s.memory.leafAt (s.roots process) path = some (entry,levels) →
    ¬ (entry.physicalAddress ≤ frame * pageSize ∧
      frame * pageSize < entry.physicalAddress + leafSize levels)
  unqueued : ∀ frame, s.allocationBitmap.IsFree frame → frame ∉ s.framesToZero

end MemoryManager

section System

variable {Process : Type} [DecidableEq Process]

/-- The calls from a given state on. -/
def regionSystem (vmmData : VmmData) (reservationSize highestPhysicalAddress : Nat)
    (start : MemoryManager Process) :
    TransitionSystem (MemoryManager Process) (RegionAction Process) where
  init s := s = start ∧ s.Start
  step := regionStep vmmData reservationSize highestPhysicalAddress

end System

namespace MemoryManager

section Roles

variable {Process : Type} {s s' : MemoryManager Process} {frame : Nat}

theorem Conserves.of_same (h : s.Conserves frame)
    (hfree : s'.allocationBitmap.IsFree frame ↔ s.allocationBitmap.IsFree frame)
    (hmaps : ∀ page, s'.MapsFrame page frame ↔ s.MapsFrame page frame)
    (hqueue : s'.framesToZero.count frame = s.framesToZero.count frame) : s'.Conserves frame := by
  have hroles : ∀ role, s'.HasRole frame role ↔ s.HasRole frame role := by
    intro role
    cases role with
    | free => exact hfree
    | mapped page => exact hmaps page
    | queued =>
      show frame ∈ s'.framesToZero ↔ frame ∈ s.framesToZero
      rw [← List.count_pos_iff,← List.count_pos_iff,hqueue]
  refine ⟨?_,by rw [hqueue]; exact h.once⟩
  simp only [hroles]
  exact h.role

theorem Conserves.of_role (role : FrameRole) (hrole : ∀ role', s.HasRole frame role' ↔ role' = role)
    (honce : s.framesToZero.count frame ≤ 1) : s.Conserves frame :=
  ⟨⟨role,(hrole role).mpr rfl,fun role' h => (hrole role').mp h⟩,honce⟩

theorem Conserves.eq (h : s.Conserves frame) {role role' : FrameRole} (hrole : s.HasRole frame role)
    (hrole' : s.HasRole frame role') : role = role' :=
  h.role.unique hrole hrole'

private theorem queued_frames (released : List Nat) :
    (released.map fun pa => (⟨pa,1⟩ : MmuZeroWorkerItem)).flatMap MmuZeroWorkerItem.frames =
      released.map (· / pageSize) := by
  induction released with
  | nil => rfl
  | cons pa released ih =>
    rw [List.map_cons,List.flatMap_cons,ih]
    rfl

end Roles

end MemoryManager

/-- What every step keeps, of the frames that were free at the start. -/
structure FrameInv {Process : Type} (tracked : Nat → Prop) (s : MemoryManager Process) : Prop where
  forest : PagingForest s.memory s.pagingData
  frames_le : s.allocationBitmap.bitCount ≤ maxDword
  pointers : ∀ process, (s.space process).freeVirtualAddressPointer < qwordModulus
  below : ∀ frame, tracked frame → frame < s.allocationBitmap.bitCount
  conserves : ∀ frame, tracked frame → s.Conserves frame

section Invariant

variable {Process : Type} [DecidableEq Process] {tracked : Nat → Prop}
  {s s' : MemoryManager Process} {process : Option Process}

omit [DecidableEq Process] in
theorem MemoryManager.Start.frameInv (h : s.Start) :
    FrameInv (fun frame => s.allocationBitmap.IsFree frame) s where
  forest := h.forest
  frames_le := h.frames_le
  pointers := h.pointers
  below _ hfree := hfree.1
  conserves frame hfree := by
    have hunqueued := h.unqueued frame hfree
    apply Conserves.of_role .free
    · intro role
      cases role with
      | free => exact ⟨fun _ => rfl,fun _ => hfree⟩
      | mapped page =>
        constructor
        · rintro ⟨entry,hold,haddress⟩
          obtain ⟨other,hreached⟩ := hold.reached
          have hleaf := leafAt_lastLevel hreached page.offset
          rw [hold.entry_eq,if_pos hold.present] at hleaf
          have hlength := hold.length
          refine absurd ?_ (h.unmapped frame hfree other _ entry 0 (by simp [hlength]) hleaf)
          rw [haddress]
          simp [leafSize,pageSize]
        · simp
      | queued => exact ⟨fun hqueued => absurd hqueued hunqueued,by simp⟩
    · rw [List.count_eq_zero.mpr hunqueued]
      exact Nat.zero_le 1

private theorem pointers_update {spaces : Option Process → VmmReservationSpace}
    {space : VmmReservationSpace} (h : ∀ other, (spaces other).freeVirtualAddressPointer < qwordModulus)
    (hpointer : space.freeVirtualAddressPointer < qwordModulus) (other : Option Process) :
    (Function.update spaces process space other).freeVirtualAddressPointer < qwordModulus := by
  by_cases hother : other = process
  · rw [hother,Function.update_self]
    exact hpointer
  · rw [Function.update_of_ne hother]
    exact h other

private theorem FrameInv.setSpace (h : FrameInv tracked s) {space : VmmReservationSpace}
    (hpointer : space.freeVirtualAddressPointer < qwordModulus) :
    FrameInv tracked (s.setSpace process space) where
  forest := h.forest
  frames_le := h.frames_le
  pointers := pointers_update h.pointers hpointer
  below := h.below
  conserves frame hframe := (h.conserves frame hframe).of_same Iff.rfl (fun _ => Iff.rfl) rfl

theorem mapEntry_frame {vmmData : VmmData} {base index k : Nat} {rights : PageRights}
    {uncacheable kernelSpace : Bool} (hbase : base < qwordModulus) (hframe : index + k ≤ maxDword) :
    (mapEntry vmmData ⟨index * pageSize,base,rights,true,uncacheable⟩ kernelSpace
      (walkAddress base k)).physicalAddress = (index + k) * pageSize := by
  show ptrOffset (index * pageSize) (ptrDiff (walkAddress base k) base) = _
  unfold maxDword at hframe
  unfold walkAddress ptrOffset ptrDiff qwordModulus pageSize at *
  omega

private theorem FrameInv.reserved_maps (h : FrameInv tracked s) {vmmData : VmmData}
    {base size pa : Nat} {bitmap : Bitmap} {rights : PageRights} {uncacheable : Bool}
    {mapped : WalkState PagingData} (hbase : base < qwordModulus)
    (hframes : size / pageSize ≤ maxDword)
    (hreserve : pmmReserveMemory s.allocationBitmap (size / pageSize) = (pa,bitmap)) (hpa : pa ≠ 0)
    (hmap : mmuMapMemoryInternal vmmData s.memory (s.pagingData process) pa size rights base true
      uncacheable = some mapped) :
    ∃ index entryAt, bitmapScanFrom s.allocationBitmap 0 (size / pageSize) = some index ∧
      bitmap = bitmapSetBits s.allocationBitmap index (size / pageSize) ∧
      (s.setReserved process bitmap mapped).roots = s.roots ∧
      ForestRangeMapped s.pagingData s.memory process entryAt base 0 (size / pageSize) mapped.memory
        mapped.context ∧
      ∀ page frame, (s.setReserved process bitmap mapped).MapsFrame page frame ↔
        (∃ k < size / pageSize,
          PageEntry.Of mapped.memory (s.roots process) (walkAddress base k) page ∧
            frame = index + k) ∨
        s.MapsFrame page frame ∧ ∀ k < size / pageSize,
          ¬ PageEntry.Of mapped.memory (s.roots process) (walkAddress base k) page := by
  obtain ⟨index,hscan,rfl,rfl⟩ := (pmmReserveMemory_cases hreserve).resolve_left fun hnull =>
    hpa hnull.1
  obtain ⟨hbound,_⟩ := bitmapScanFrom_some hscan
  simp only [mmuMapMemoryInternal,Option.bind_eq_bind,Option.bind_eq_some_iff] at hmap
  obtain ⟨_,_,_,_,_,_,_,haligned,hmap⟩ := hmap
  have hsize : size ≤ 2 ^ 48 := by
    unfold maxDword pageSize at hframes
    omega
  have hm := vmmMapMemoryInternal_forest vmmData h.forest process (assert_eq_some.mp haligned) hsize
    (Or.inl rfl) hmap
  have hroots : (s.setReserved process
      (bitmapSetBits s.allocationBitmap index (size / pageSize)) mapped).roots = s.roots :=
    rootsOf_update hm.pool
  have hle := h.frames_le
  refine ⟨index,_,hscan,rfl,hroots,hm,?_⟩
  intro page frame
  unfold MemoryManager.MapsFrame
  rw [hroots]
  constructor
  · rintro ⟨entry,hold,haddress⟩
    rcases (hm.entries page entry).mp hold with ⟨k,_,hk,hof,rfl⟩ | ⟨hnot,hold⟩
    · rw [mapEntry_frame hbase (by omega)] at haddress
      exact Or.inl ⟨k,hk,hof,by unfold pageSize at haddress; omega⟩
    · exact Or.inr ⟨⟨entry,hold,haddress⟩,fun k hk => hnot k (Nat.zero_le k) hk⟩
  · rintro (⟨k,hk,hof,rfl⟩ | ⟨⟨entry,hold,haddress⟩,hnot⟩)
    · exact ⟨_,(hm.entries page _).mpr (Or.inl ⟨k,Nat.zero_le k,hk,hof,rfl⟩),
        mapEntry_frame hbase (by omega)⟩
    · exact ⟨entry,(hm.entries page entry).mpr (Or.inr ⟨fun k _ hk => hnot k hk,hold⟩),haddress⟩

private theorem FrameInv.setReserved (h : FrameInv tracked s) {vmmData : VmmData}
    {base size pa : Nat} {bitmap : Bitmap} {rights : PageRights} {uncacheable : Bool}
    {mapped : WalkState PagingData} (hbase : base < qwordModulus)
    (hframes : size / pageSize ≤ maxDword) (habsent : s.PagesAbsent process base size)
    (hreserve : pmmReserveMemory s.allocationBitmap (size / pageSize) = (pa,bitmap)) (hpa : pa ≠ 0)
    (hmap : mmuMapMemoryInternal vmmData s.memory (s.pagingData process) pa size rights base true
      uncacheable = some mapped) :
    FrameInv tracked (s.setReserved process bitmap mapped) ∧ ∀ page entry,
      PageEntry.Holds s.memory s.roots page entry →
      PageEntry.Holds mapped.memory (s.setReserved process bitmap mapped).roots page entry := by
  obtain ⟨index,entryAt,hscan,rfl,hroots,hm,hmaps⟩ :=
    h.reserved_maps hbase hframes hreserve hpa hmap
  obtain ⟨_,hclear⟩ := bitmapScanFrom_some hscan
  have hfresh := hm.fresh fun k _ hk => habsent k hk
  generalize size / pageSize = n at *
  refine ⟨⟨hm.forest,h.frames_le,h.pointers,h.below,?_⟩,?_⟩
  · intro frame hframe
    have hconserves := h.conserves frame hframe
    by_cases hin : index ≤ frame ∧ frame < index + n
    · -- a frame that was reserved: it was free, and goes to its page
      have hfree : s.HasRole frame .free := by
        refine ⟨h.below frame hframe,?_⟩
        have := hclear (frame - index) (by omega)
        rwa [Nat.add_sub_cancel' hin.1] at this
      have hunmapped : ∀ page, ¬ s.MapsFrame page frame := by
        intro page hmapped
        have heq := hconserves.eq hfree (show s.HasRole frame (.mapped page) from hmapped)
        cases heq
      have hunqueued : frame ∉ s.framesToZero := by
        intro hqueued
        have heq := hconserves.eq hfree (show s.HasRole frame .queued from hqueued)
        cases heq
      obtain ⟨page,hof⟩ := hm.mapped (frame - index) (Nat.zero_le _) (by omega)
      apply MemoryManager.Conserves.of_role (.mapped page)
      · intro role
        cases role with
        | free =>
          constructor
          · intro hbits
            have hset := hbits.2
            simp [MemoryManager.setReserved,MemoryManager.setMapped,bitmapSetBits,hin.1,hin.2] at hset
          · simp
        | mapped page' =>
          constructor
          · intro hmapped
            rcases (hmaps page' frame).mp hmapped with ⟨k,_,hof',rfl⟩ | ⟨hold,_⟩
            · rw [Nat.add_sub_cancel_left] at hof
              rw [hof.unique hof']
            · exact absurd hold (hunmapped page')
          · intro heq
            obtain rfl := FrameRole.mapped.inj heq
            exact (hmaps page' frame).mpr (Or.inl ⟨frame - index,by omega,hof,by omega⟩)
        | queued => exact ⟨fun hqueued => absurd hqueued hunqueued,by simp⟩
      · exact hconserves.once
    · refine hconserves.of_same ?_ ?_ rfl
      · have hbits : (bitmapSetBits s.allocationBitmap index n).bits frame =
            s.allocationBitmap.bits frame := by
          simp [bitmapSetBits,hin]
        show frame < _ ∧ (bitmapSetBits s.allocationBitmap index n).bits frame = false ↔ _
        rw [hbits]
        rfl
      · intro page
        rw [hmaps page frame]
        constructor
        · rintro (⟨k,hk,_,rfl⟩ | ⟨hold,_⟩)
          · exact absurd ⟨by omega,by omega⟩ hin
          · exact hold
        · rintro ⟨entry,hold,haddress⟩
          refine Or.inr ⟨⟨entry,hold,haddress⟩,fun k hk hof => ?_⟩
          exact hfresh k page entry (Nat.zero_le k) hk hof hold
  · intro page entry hold
    rw [hroots]
    refine (hm.entries page entry).mpr (Or.inr ⟨?_,hold⟩)
    intro k _ hk hof
    exact hfresh k page entry (Nat.zero_le k) hk hof hold

private theorem FrameInv.setReserved_lost (h : FrameInv tracked s) {vmmData : VmmData}
    {base size pa frame k : Nat} {bitmap : Bitmap} {rights : PageRights} {uncacheable : Bool}
    {mapped : WalkState PagingData} {page : PageEntry} (hbase : base < qwordModulus)
    (hframes : size / pageSize ≤ maxDword)
    (hreserve : pmmReserveMemory s.allocationBitmap (size / pageSize) = (pa,bitmap)) (hpa : pa ≠ 0)
    (hmap : mmuMapMemoryInternal vmmData s.memory (s.pagingData process) pa size rights base true
      uncacheable = some mapped)
    (hframe : tracked frame) (hk : k < size / pageSize)
    (hof : PageEntry.Of s.memory (s.roots process) (walkAddress base k) page)
    (hmapped : s.MapsFrame page frame) (role : FrameRole) :
    ¬ (s.setReserved process bitmap mapped).HasRole frame role := by
  obtain ⟨index,entryAt,hscan,rfl,hroots,hm,hmaps⟩ :=
    h.reserved_maps hbase hframes hreserve hpa hmap
  obtain ⟨hbound,hclear⟩ := bitmapScanFrom_some hscan
  have hconserves := h.conserves frame hframe
  have hrole : s.HasRole frame (.mapped page) := hmapped
  have hused : ¬ s.allocationBitmap.IsFree frame := by
    intro hfree
    have heq := hconserves.eq hrole (show s.HasRole frame .free from hfree)
    cases heq
  cases role with
  | free =>
    intro hfree
    have hbits := hfree.2
    simp only [MemoryManager.setReserved,MemoryManager.setMapped,bitmapSetBits,
      Bool.or_eq_false_iff] at hbits
    exact hused ⟨hfree.1,hbits.2⟩
  | mapped page' =>
    intro hmapped'
    rcases (hmaps page' frame).mp hmapped' with ⟨j,hj,_,rfl⟩ | ⟨hold,hnot⟩
    · exact hused ⟨by omega,hclear j hj⟩
    · have heq := hconserves.eq (show s.HasRole frame (.mapped page') from hold) hrole
      obtain rfl := FrameRole.mapped.inj heq
      have hlength := hof.length
      have hof' : PageEntry.Of mapped.memory (s.roots process) (walkAddress base k) page' :=
        ⟨hof.path,hm.tables process _ _ (by omega) hof.table⟩
      exact hnot k hk hof'
  | queued =>
    intro hqueued
    have heq := hconserves.eq hrole (show s.HasRole frame .queued from hqueued)
    cases heq

theorem mmuReleaseMemory_all {released : List Nat} {items items' : List MmuZeroWorkerItem}
    (h : released.foldlM mmuReleaseMemory items = some items') :
    (∀ pa ∈ released, pa % pageSize = 0) ∧ items' = items ++ released.map fun pa => ⟨pa,1⟩ := by
  induction released generalizing items with
  | nil =>
    obtain rfl := Option.some.inj h
    simp
  | cons pa released ih =>
    rw [List.foldlM_cons] at h
    obtain ⟨items₁,hfirst,hrest⟩ := Option.bind_eq_some_iff.mp h
    obtain ⟨_,haligned,hitems⟩ := Option.bind_eq_some_iff.mp hfirst
    obtain rfl := Option.some.inj hitems
    obtain ⟨hall,rfl⟩ := ih hrest
    have haligned : pa % pageSize = 0 := by simpa [isAddressAligned] using haligned
    refine ⟨?_,by simp⟩
    intro pa' hpa'
    rcases List.mem_cons.mp hpa' with rfl | hmem
    · exact haligned
    · exact hall pa' hmem

omit [DecidableEq Process] in
private theorem mappedTo_frame {memory' : PhysicalMemory} {base n frame k : Nat} (hk : k < n)
    (hunmapped : ForestRangeUnmapped s.pagingData s.memory process base 0 n memory')
    (haligned : ∀ pa ∈ releasedFrames s.memory (s.roots process) base 0 n, pa % pageSize = 0) :
    (mappedTo s.memory (s.roots process) (walkAddress base k)).map (· / pageSize) = some frame ↔
      ∃ page, PageEntry.Of s.memory (s.roots process) (walkAddress base k) page ∧
        s.MapsFrame page frame := by
  constructor
  · intro hframe
    obtain ⟨pa,hpa,hdiv⟩ := Option.map_eq_some_iff.mp hframe
    obtain ⟨page,entry,hof,hold,haddress⟩ := hunmapped.mapped k pa (Nat.zero_le k) hk hpa
    have hmem : pa ∈ releasedFrames s.memory (s.roots process) base 0 n :=
      List.mem_filterMap.mpr ⟨k,List.mem_range'_1.mpr ⟨Nat.zero_le k,by omega⟩,hpa⟩
    have hmod := haligned pa hmem
    refine ⟨page,hof,entry,hold,?_⟩
    rw [haddress]
    unfold pageSize at *
    omega
  · rintro ⟨page,hof,entry,hold,haddress⟩
    rw [mappedTo,hof.leafAt,hold.entry_eq,if_pos hold.present]
    simp only [Option.map_some,haddress,Option.some.injEq]
    exact Nat.mul_div_cancel _ (by decide)

private theorem count_released {memory : PhysicalMemory} {root base n frame : Nat} :
    ((releasedFrames memory root base 0 n).map (· / pageSize)).count frame =
      (List.range' 0 n).countP fun k =>
        (mappedTo memory root (walkAddress base k)).map (· / pageSize) == some frame := by
  rw [releasedFrames,List.map_filterMap,List.count_filterMap]

/-- The state after the pages of a range are unmapped and their frames queued. -/
def MemoryManager.setUnmapped {Space : Type} (s : MemoryManager Process Space)
    (memory : PhysicalMemory) (released : List Nat) : MemoryManager Process Space :=
  { s with
    memory := memory
    pagesToZeroList := s.pagesToZeroList ++ released.map fun pa => ⟨pa,1⟩ }

section Released

variable {memory' : PhysicalMemory} {base n frame : Nat} (hn : n ≤ 2 ^ 36)
  (hbase : isAddressAligned base pageSize = true)
  (hunmapped : ForestRangeUnmapped s.pagingData s.memory process base 0 n memory')
  (haligned : ∀ pa ∈ releasedFrames s.memory (s.roots process) base 0 n, pa % pageSize = 0)

include hunmapped haligned

omit [DecidableEq Process] in
private theorem count_released_eq_zero (hnone : ∀ k < n, ∀ page,
      PageEntry.Of s.memory (s.roots process) (walkAddress base k) page → ¬ s.MapsFrame page frame) :
    ((releasedFrames s.memory (s.roots process) base 0 n).map (· / pageSize)).count frame = 0 := by
  rw [count_released]
  apply List.countP_eq_zero.mpr
  intro k hk hframe
  have hk : k < n := by
    have := (List.mem_range'_1.mp hk).2
    omega
  rw [beq_iff_eq,mappedTo_frame hk hunmapped haligned] at hframe
  obtain ⟨page,hof,hmapped⟩ := hframe
  exact hnone k hk page hof hmapped

include hn hbase

omit [DecidableEq Process] in
private theorem count_released_eq_one {k : Nat} (hk : k < n) {page : PageEntry}
    (hof : PageEntry.Of s.memory (s.roots process) (walkAddress base k) page)
    (hmapped : s.MapsFrame page frame) (hone : ∀ page', s.MapsFrame page' frame → page' = page) :
    ((releasedFrames s.memory (s.roots process) base 0 n).map (· / pageSize)).count frame = 1 := by
  have hcount : (List.range' 0 n).count k = 1 :=
    List.count_eq_one_of_mem List.nodup_range' (List.mem_range'_1.mpr ⟨Nat.zero_le k,by omega⟩)
  rw [count_released]
  refine Eq.trans ?_ hcount
  rw [List.count]
  apply List.countP_congr
  intro j hj
  have hj : j < n := by
    have := (List.mem_range'_1.mp hj).2
    omega
  rw [beq_iff_eq,beq_iff_eq,mappedTo_frame hj hunmapped haligned]
  constructor
  · rintro ⟨page',hof',hmapped'⟩
    rw [hone page' hmapped'] at hof'
    exact walkAddress_injective hbase (by omega) (by omega) (hof'.tableOffsets_eq hof)
  · rintro rfl
    exact ⟨page,hof,hmapped⟩

end Released

omit [DecidableEq Process] in
private theorem FrameInv.setUnmapped (h : FrameInv tracked s) {memory' : PhysicalMemory}
    {base n : Nat} (hn : n ≤ 2 ^ 36) (hbase : isAddressAligned base pageSize = true)
    (hunmapped : ForestRangeUnmapped s.pagingData s.memory process base 0 n memory')
    (haligned : ∀ pa ∈ releasedFrames s.memory (s.roots process) base 0 n, pa % pageSize = 0) :
    FrameInv tracked
      (s.setUnmapped memory' (releasedFrames s.memory (s.roots process) base 0 n)) := by
  have hqueue : ∀ frame, (s.setUnmapped memory'
      (releasedFrames s.memory (s.roots process) base 0 n)).framesToZero.count frame =
      s.framesToZero.count frame +
        ((releasedFrames s.memory (s.roots process) base 0 n).map (· / pageSize)).count frame := by
    intro frame
    simp only [MemoryManager.framesToZero,MemoryManager.setUnmapped,List.flatMap_append,
      MemoryManager.queued_frames,List.count_append]
  have hmaps : ∀ page frame, (s.setUnmapped memory'
      (releasedFrames s.memory (s.roots process) base 0 n)).MapsFrame page frame ↔
      s.MapsFrame page frame ∧
        ∀ k < n, ¬ PageEntry.Of s.memory (s.roots process) (walkAddress base k) page := by
    intro page frame
    constructor
    · rintro ⟨entry,hold,haddress⟩
      obtain ⟨hold,hnot⟩ := (hunmapped.entries page entry).mp hold
      exact ⟨⟨entry,hold,haddress⟩,fun k hk => hnot k (Nat.zero_le k) hk⟩
    · rintro ⟨⟨entry,hold,haddress⟩,hnot⟩
      exact ⟨entry,(hunmapped.entries page entry).mpr ⟨hold,fun k _ hk => hnot k hk⟩,haddress⟩
  refine ⟨hunmapped.forest,h.frames_le,h.pointers,h.below,?_⟩
  intro frame hframe
  have hconserves := h.conserves frame hframe
  by_cases hin : ∃ k < n, ∃ page,
      PageEntry.Of s.memory (s.roots process) (walkAddress base k) page ∧ s.MapsFrame page frame
  · -- the frame of a page of the range: the page is its only one, so it is released once
    obtain ⟨k,hk,page,hof,hmapped⟩ := hin
    have hrole : s.HasRole frame (.mapped page) := hmapped
    have hone : ∀ page', s.MapsFrame page' frame → page' = page := by
      intro page' hmapped'
      have heq := hconserves.eq (show s.HasRole frame (.mapped page') from hmapped') hrole
      exact FrameRole.mapped.inj heq
    have hunqueued : s.framesToZero.count frame = 0 := by
      apply List.count_eq_zero.mpr
      intro hqueued
      have heq := hconserves.eq hrole (show s.HasRole frame .queued from hqueued)
      cases heq
    have hcount := hqueue frame
    rw [hunqueued,count_released_eq_one hn hbase hunmapped haligned hk hof hmapped hone] at hcount
    apply MemoryManager.Conserves.of_role .queued
    · intro role
      cases role with
      | free =>
        constructor
        · intro hfree
          have heq := hconserves.eq hrole (show s.HasRole frame .free from hfree)
          cases heq
        · simp
      | mapped page' =>
        constructor
        · intro hmapped'
          obtain ⟨hmapped',hnot⟩ := (hmaps page' frame).mp hmapped'
          rw [hone page' hmapped'] at hnot
          exact absurd hof (hnot k hk)
        · simp
      | queued =>
        constructor
        · exact fun _ => rfl
        · intro _
          apply List.count_pos_iff.mp
          rw [hcount]
          exact Nat.one_pos
    · rw [hcount]
  · have hcount := hqueue frame
    rw [count_released_eq_zero hunmapped haligned
      (fun k hk page hof hmapped => hin ⟨k,hk,page,hof,hmapped⟩),Nat.add_zero] at hcount
    refine hconserves.of_same Iff.rfl ?_ hcount
    intro page
    rw [hmaps page frame]
    constructor
    · exact fun hold => hold.1
    · intro hmapped
      exact ⟨hmapped,fun k hk hof => hin ⟨k,hk,page,hof,hmapped⟩⟩

omit [DecidableEq Process] in
private theorem FrameInv.unmap (h : FrameInv tracked s) {virtualAddress size : Nat}
    (hunmap : s.unmap process virtualAddress size true = some s') : FrameInv tracked s' := by
  simp only [MemoryManager.unmap,Option.bind_eq_bind,Option.bind_eq_some_iff] at hunmap
  obtain ⟨unmapped,hwalk,items,hitems,hs'⟩ := hunmap
  obtain rfl := Option.some.inj hs'
  obtain ⟨haligned,rfl⟩ := mmuReleaseMemory_all hitems
  simp only [mmuUnmapMemoryEx,Option.bind_eq_bind,Option.bind_eq_some_iff] at hwalk
  obtain ⟨_,_,_,_,hwalk⟩ := hwalk
  generalize hbytes : alignAddressUpper _ _ % 2 ^ 32 = bytes at hwalk
  have hsize : bytes ≤ 2 ^ 48 := by omega
  generalize alignAddressLower virtualAddress pageSize = base at hwalk
  rcases vmmUnmapMemoryEx_forest true h.forest process hsize hwalk with
    ⟨_,rfl⟩ | ⟨hbase,hunmapped,hreleased⟩
  · simpa using h
  · rw [if_pos rfl] at hreleased
    rw [hreleased] at haligned ⊢
    have hn : bytes / pageSize ≤ 2 ^ 36 := by
      unfold pageSize
      omega
    exact h.setUnmapped hn hbase hunmapped haligned

omit [DecidableEq Process] in
private theorem mapItem_eq {vmmData : VmmData} {highestPhysicalAddress pAddr : Nat}
    {item : MmuZeroWorkerItem} {m m' : KernelMemory} (hpAddr : pAddr ≠ 0)
    (haligned : item.physicalAddress % pageSize = 0)
    (hpointer : m.space.freeVirtualAddressPointer < qwordModulus)
    (hmap : mmuMapMemoryEx vmmData highestPhysicalAddress m item.mapRequest = some (pAddr,m')) :
    pAddr = m.space.freeVirtualAddressPointer ∧ pAddr % pageSize = 0 ∧
      m'.space.freeVirtualAddressPointer < qwordModulus ∧
      vmmMapMemoryInternal vmmData m.memory m.pagingData item.physicalAddress item.noOfBytes pAddr
        pageRightsReadWrite false false = some ⟨m'.memory,m'.pagingData⟩ := by
  have hbytes : item.mapRequest.alignedSize = item.noOfBytes := by
    simp only [MmuMapRequest.alignedSize,MmuZeroWorkerItem.mapRequest,MmuZeroWorkerItem.noOfBytes,
      alignAddressUpper,alignAddressLower,addressOffset,pageSize,qwordModulus] at haligned ⊢
    omega
  have hlower : alignAddressLower item.physicalAddress pageSize = item.physicalAddress := by
    simp only [alignAddressLower,pageSize] at haligned ⊢
    omega
  simp only [mmuMapMemoryEx,hbytes,Option.bind_eq_bind,Option.bind_eq_some_iff] at hmap
  obtain ⟨_,_,_,_,⟨pointer,m₁⟩,hmap,heq⟩ := hmap
  obtain ⟨hpointerAddr,rfl⟩ := Prod.mk.inj (Option.some.inj heq)
  have hne : pointer ≠ 0 := by
    rintro rfl
    exact hpAddr hpointerAddr.symm
  simp only [MmuZeroWorkerItem.mapRequest,hlower] at hmap
  rw [vmmMapMemoryEx] at hmap
  split at hmap
  · exact absurd (Prod.mk.inj (Option.some.inj hmap)).1.symm hne
  · split at hmap
    · exact absurd (Prod.mk.inj (Option.some.inj hmap)).1.symm hne
    · simp only [vmReservationSpaceDetermineNextFreeVirtualAddress,Option.bind_eq_bind,
        Option.bind_eq_some_iff] at hmap
      obtain ⟨_,hpage,walk,hwalk,hmap⟩ := hmap
      obtain ⟨rfl,rfl⟩ := Prod.mk.inj (Option.some.inj hmap)
      have hpage : m.space.freeVirtualAddressPointer % pageSize = 0 := by
        simpa [isAddressAligned] using hpage
      have hpAddr : pAddr = m.space.freeVirtualAddressPointer := by
        rw [← hpointerAddr,if_neg hne]
        simp only [MmuZeroWorkerItem.mapRequest,addressOffset,haligned,ptrOffset,Nat.add_zero]
        exact Nat.mod_eq_of_lt hpointer
      rw [hpAddr]
      exact ⟨rfl,hpage,Nat.mod_lt _ (by decide),hwalk⟩

omit [DecidableEq Process] in
private theorem unmapItem_eq {item : MmuZeroWorkerItem} {m m' : KernelMemory} {pAddr : Nat}
    (hpage : pAddr % pageSize = 0)
    (hunmap : mmuUnmapSystemMemory m pAddr item.noOfBytes = some m') :
    m'.pagingData = m.pagingData ∧ m'.space = m.space ∧ ∃ released : List Nat,
      vmmUnmapMemoryEx m.memory ⟨m.pagingData.basePhysicalAddress⟩ pAddr item.noOfBytes false =
        some ⟨m'.memory,released⟩ := by
  have hlower : alignAddressLower pAddr pageSize = pAddr := by
    simp only [alignAddressLower,pageSize] at hpage ⊢
    omega
  have hbytes : alignAddressUpper ((item.noOfBytes + (pAddr - pAddr)) % qwordModulus) pageSize %
      2 ^ 32 = item.noOfBytes := by
    simp only [MmuZeroWorkerItem.noOfBytes,alignAddressUpper,alignAddressLower,pageSize,
      qwordModulus]
    omega
  simp only [mmuUnmapSystemMemory,hlower,hbytes,Option.bind_eq_bind,Option.bind_eq_some_iff]
    at hunmap
  obtain ⟨_,_,_,_,walk,hwalk,heq⟩ := hunmap
  obtain rfl := Option.some.inj heq
  exact ⟨rfl,rfl,walk.context,hwalk⟩

private theorem window_entries {vmmData : VmmData} {pagingData : Option Process → PagingData}
    {memory memory' : PhysicalMemory} {physicalAddress size base : Nat} {rights : PageRights}
    {mapped : WalkState PagingData} {released : List Nat} (h : PagingForest memory pagingData)
    (hbase : base % pageSize = 0) (hne : base ≠ 0) (hsize : size ≤ 2 ^ 48)
    (habsent : ∀ k < size / pageSize,
      memory.leafAt (rootsOf pagingData process) (tableOffsets (walkAddress base k)) = none)
    (hmap : vmmMapMemoryInternal vmmData memory (pagingData process) physicalAddress size base rights
      false false = some mapped)
    (hunmap : vmmUnmapMemoryEx mapped.memory ⟨mapped.context.basePhysicalAddress⟩ base size false =
      some ⟨memory',released⟩) :
    PagingForest memory' (Function.update pagingData process mapped.context) ∧
      rootsOf (Function.update pagingData process mapped.context) = rootsOf pagingData ∧
      ∀ page entry, PageEntry.Holds memory' (rootsOf pagingData) page entry ↔
        PageEntry.Holds memory (rootsOf pagingData) page entry := by
  have haligned : isAddressAligned base pageSize = true := by
    simpa [isAddressAligned] using hbase
  have hm := vmmMapMemoryInternal_forest vmmData h process haligned hsize (Or.inr habsent) hmap
  have hroots := rootsOf_update hm.pool
  have hfresh := hm.fresh fun k _ hk => habsent k hk
  have hsizes : size ≠ 0 ∧ isAddressAligned size pageSize = true := by
    simp only [vmmMapMemoryInternal,Option.bind_eq_bind,Option.bind_eq_some_iff] at hmap
    obtain ⟨_,_,_,hsizes,_⟩ := hmap
    simpa using hsizes
  have hcontext : Function.update pagingData process mapped.context process = mapped.context :=
    Function.update_self _ _ _
  rw [← hcontext] at hunmap
  rcases vmmUnmapMemoryEx_forest false hm.forest process hsize hunmap with
    ⟨hrefused,_⟩ | ⟨_,hu,_⟩
  · simp [hne,haligned,hsizes] at hrefused
  · refine ⟨hu.forest,hroots,?_⟩
    intro page entry
    have hentries := hu.entries page entry
    rw [hroots] at hentries
    rw [hentries,hm.entries page entry]
    constructor
    · rintro ⟨⟨k,hle,hk,hof,_⟩ | ⟨_,hold⟩,hnot⟩
      · exact absurd hof (hnot k hle hk)
      · exact hold
    · intro hold
      have hnot : ∀ k, 0 ≤ k → k < size / pageSize →
          ¬ PageEntry.Of mapped.memory (rootsOf pagingData process) (walkAddress base k) page :=
        fun k hle hk hof => hfresh k page entry hle hk hof hold
      exact ⟨Or.inr ⟨hnot,hold⟩,hnot⟩

omit [DecidableEq Process] in
/-- The zero worker frees the frames of the first item of its list and no others. -/
private theorem FrameInv.conserves_zeroed (h : FrameInv tracked s) {item : MmuZeroWorkerItem}
    {rest : List MmuZeroWorkerItem} (hlist : s.pagesToZeroList = item :: rest)
    (hlist' : s'.pagesToZeroList = rest)
    (hbitmap : s'.allocationBitmap = bitmapClearBits s.allocationBitmap
      (item.physicalAddress / pageSize) item.numberOfFrames)
    (hmaps : ∀ page frame, s'.MapsFrame page frame ↔ s.MapsFrame page frame) {frame : Nat}
    (hframe : tracked frame) : s'.Conserves frame := by
  have hconserves := h.conserves frame hframe
  have hqueue : s.framesToZero = item.frames ++ rest.flatMap MmuZeroWorkerItem.frames := by
    rw [MemoryManager.framesToZero,hlist,List.flatMap_cons]
  have hqueue' : s'.framesToZero = rest.flatMap MmuZeroWorkerItem.frames := by
    rw [MemoryManager.framesToZero,hlist']
  have hcount : s.framesToZero.count frame =
      item.frames.count frame + s'.framesToZero.count frame := by
    rw [hqueue,hqueue',List.count_append]
  have honce := hconserves.once
  by_cases hin : frame ∈ item.frames
  · -- queued before, so in no other role, and not in the rest of the list
    have hrole : s.HasRole frame .queued := by
      show frame ∈ s.framesToZero
      rw [hqueue]
      exact List.mem_append_left _ hin
    have hpos := List.count_pos_iff.mpr hin
    have hrest : s'.framesToZero.count frame = 0 := by omega
    apply MemoryManager.Conserves.of_role .free
    · intro role
      cases role with
      | free =>
        constructor
        · exact fun _ => rfl
        · intro _
          have hrange := List.mem_range'_1.mp hin
          show s'.allocationBitmap.IsFree frame
          rw [hbitmap]
          refine ⟨h.below frame hframe,?_⟩
          simp [bitmapClearBits,hrange]
      | mapped page =>
        constructor
        · intro hmapped
          have heq := hconserves.eq hrole
            (show s.HasRole frame (.mapped page) from (hmaps page frame).mp hmapped)
          cases heq
        · simp
      | queued =>
        constructor
        · intro hqueued
          exact absurd hqueued (List.count_eq_zero.mp hrest)
        · simp
    · rw [hrest]
      exact Nat.zero_le 1
  · have hzero := List.count_eq_zero.mpr hin
    refine hconserves.of_same ?_ (fun page => hmaps page frame) (by omega)
    have hbits : (bitmapClearBits s.allocationBitmap (item.physicalAddress / pageSize)
        item.numberOfFrames).bits frame = s.allocationBitmap.bits frame := by
      have hout : ¬ (item.physicalAddress / pageSize ≤ frame ∧
          frame < item.physicalAddress / pageSize + item.numberOfFrames) :=
        fun hrange => hin (List.mem_range'_1.mpr hrange)
      simp only [bitmapClearBits,decide_eq_false hout,Bool.not_false,Bool.true_and]
    rw [hbitmap]
    show frame < _ ∧ (bitmapClearBits s.allocationBitmap _ _).bits frame = false ↔ _
    rw [hbits]
    rfl

private theorem FrameInv.zeroWorker (h : FrameInv tracked s) {vmmData : VmmData}
    {highestPhysicalAddress : Nat} (hguard : s.MapsAbsentPages .zeroWorker)
    (hround : mmuZeroWorkerRound vmmData highestPhysicalAddress s = some s') :
    FrameInv tracked s' := by
  cases hlist : s.pagesToZeroList with
  | nil =>
    simp only [mmuZeroWorkerRound,hlist] at hround
    obtain rfl := Option.some.inj hround
    exact h
  | cons item rest =>
    simp only [MemoryManager.MapsAbsentPages,hlist] at hguard
    simp only [mmuZeroWorkerRound,hlist,Option.bind_eq_bind,Option.bind_eq_some_iff] at hround
    obtain ⟨⟨pAddr,m₁⟩,hmap,_,hpAddr,bitmap,hrelease,m₂,hunmap,hs'⟩ := hround
    obtain rfl := Option.some.inj hs'
    have hpAddr : pAddr ≠ 0 := by simpa using hpAddr
    simp only [pmmReleaseMemory,Option.bind_eq_bind,Option.bind_eq_some_iff] at hrelease
    obtain ⟨_,haligned,_,_,hbitmap⟩ := hrelease
    obtain rfl := Option.some.inj hbitmap
    have haligned : item.physicalAddress % pageSize = 0 := by
      simpa [isAddressAligned] using haligned
    obtain ⟨hva,hpage,hpointer,hwalk⟩ := mapItem_eq hpAddr haligned (h.pointers none) hmap
    obtain ⟨hpaging,hspace,released,hclear⟩ := unmapItem_eq hpage hunmap
    have hbytes : item.noOfBytes ≤ 2 ^ 48 := by
      unfold MmuZeroWorkerItem.noOfBytes
      omega
    have habsent : s.PagesAbsent none pAddr item.noOfBytes := by
      rw [hva]
      exact hguard item rfl
    obtain ⟨hforest,hroots,hentries⟩ :=
      window_entries h.forest hpage hpAddr hbytes habsent hwalk hclear
    rw [← hpaging] at hforest hroots
    have hmaps : ∀ page frame, MemoryManager.MapsFrame
        { s.setKernel m₂ with
          allocationBitmap := bitmapClearBits s.allocationBitmap (item.physicalAddress / pageSize)
            item.numberOfFrames
          pagesToZeroList := rest } page frame ↔ s.MapsFrame page frame := by
      intro page frame
      unfold MemoryManager.MapsFrame MemoryManager.roots MemoryManager.setKernel
      simp only [hroots,hentries]
    refine ⟨hforest,h.frames_le,?_,h.below,fun frame hframe =>
      h.conserves_zeroed hlist rfl rfl hmaps hframe⟩
    rw [← hspace] at hpointer
    exact pointers_update h.pointers hpointer

variable {vmmData : VmmData} {reservationSize highestPhysicalAddress : Nat}

private theorem FrameInv.allocRegion (h : FrameInv tracked s) {request : RegionRequest} {base : Nat}
    (hguard : s.MapsAbsentPages (.allocRegion process request))
    (halloc : vmmAllocRegionEx vmmData reservationSize s process request = some (base,s')) :
    FrameInv tracked s' ∧ ∀ page entry, PageEntry.Holds s.memory s.roots page entry →
      PageEntry.Holds s'.memory s'.roots page entry := by
  obtain ⟨space,hpointer,hcases⟩ := vmmAllocRegionEx_cases (h.pointers process) halloc
  have hspace : FrameInv tracked (s.setSpace process space) := h.setSpace hpointer
  rcases hcases with rfl | ⟨hnotLazy,size,hbase,hframes,hrange,pa,bitmap,hreserve,hcases⟩
  · exact ⟨hspace,fun _ _ hold => hold⟩
  · have hguard := hguard hnotLazy _ hrange
    rcases hcases with ⟨rfl,rfl⟩ | ⟨hpa,mapped,hmap,rfl⟩
    · have hsame : bitmap = s.allocationBitmap := by
        rcases pmmReserveMemory_cases hreserve with ⟨_,hsame⟩ | ⟨index,hfound,hindex,_⟩
        · exact hsame
        · have hindex : index = 0 := by
            unfold pageSize at hindex
            omega
          exact absurd hindex (hguard index hfound).1
      rw [hsame]
      exact ⟨hspace,fun _ _ hold => hold⟩
    · rcases pmmReserveMemory_cases hreserve with ⟨hnull,_⟩ | ⟨index,hfound,_,_⟩
      · exact absurd hnull hpa
      · exact hspace.setReserved hbase hframes (hguard index hfound).2 hreserve hpa hmap

private theorem FrameInv.pageFault (h : FrameInv tracked s) {faultingAddress : Nat}
    {rightsRequested : PageRights} {metadataAccess solved : Bool}
    (haddress : faultingAddress < qwordModulus)
    (hguard : s.MapsAbsentPages (.pageFault process faultingAddress rightsRequested metadataAccess))
    (hfault : vmmSolvePageFault vmmData reservationSize s process faultingAddress rightsRequested
      metadataAccess = some (solved,s')) : FrameInv tracked s' := by
  rcases vmmSolvePageFault_cases hfault with
    ⟨_,rfl⟩ | ⟨_,grant,pa,bitmap,mapped,hreserve,hpa,hmap,rfl⟩
  · exact h
  · have hbase : alignAddressLower faultingAddress pageSize < qwordModulus :=
      Nat.lt_of_le_of_lt (Nat.div_mul_le_self _ _) haddress
    have hframes : pageSize / pageSize ≤ maxDword := by decide
    exact (h.setReserved hbase hframes hguard hreserve hpa hmap).1

private theorem FrameInv.freeRegion (h : FrameInv tracked s) {address : Nat}
    {freeType : VmmFreeType}
    (hfree : vmmFreeRegionEx reservationSize s process address freeType true = some s') :
    FrameInv tracked s' := by
  simp only [vmmFreeRegionEx,Option.bind_eq_bind,Option.bind_eq_some_iff] at hfree
  obtain ⟨⟨range,uninitialized,space⟩,hrange,hfree⟩ := hfree
  have hpointer : space.freeVirtualAddressPointer < qwordModulus := by
    rw [vmReservationSpaceFreeRegion_pointer hrange]
    exact h.pointers process
  have hspace : FrameInv tracked (s.setSpace process space) := h.setSpace hpointer
  cases uninitialized with
  | none =>
    obtain ⟨s₁,hs₁,hfree⟩ := Option.bind_eq_some_iff.mp hfree
    obtain rfl := Option.some.inj hs₁
    obtain ⟨_,_,hfree⟩ := Option.bind_eq_some_iff.mp hfree
    obtain ⟨_,_,hunmap⟩ := Option.bind_eq_some_iff.mp hfree
    exact hspace.unmap hunmap
  | some reservation =>
    obtain ⟨s₁,hbitmap,hfree⟩ := Option.bind_eq_some_iff.mp hfree
    obtain ⟨_,_,hfree⟩ := Option.bind_eq_some_iff.mp hfree
    obtain ⟨_,_,hunmap⟩ := Option.bind_eq_some_iff.mp hfree
    exact (hspace.unmap hbitmap).unmap hunmap

private theorem FrameInv.step (h : FrameInv tracked s) {action : RegionAction Process}
    (hguard : s.MapsAbsentPages action)
    (hstep : regionStep vmmData reservationSize highestPhysicalAddress s action = some s') :
    FrameInv tracked s' := by
  cases action with
  | allocRegion process request =>
    obtain ⟨⟨base,s₁⟩,halloc,rfl⟩ := Option.map_eq_some_iff.mp hstep
    exact (h.allocRegion hguard halloc).1
  | freeRegion process address freeType => exact h.freeRegion hstep
  | pageFault process faultingAddress rightsRequested metadataAccess =>
    rw [regionStep] at hstep
    split at hstep
    · cases hstep
    · rename_i haddress
      obtain ⟨⟨solved,s₁⟩,hfault,rfl⟩ := Option.map_eq_some_iff.mp hstep
      exact h.pageFault (not_not.mp haddress) hguard hfault
  | zeroWorker => exact h.zeroWorker hguard hstep

theorem eager_commit_loses (h : FrameInv tracked s) {request : RegionRequest}
    {base base' size k frame : Nat} {page : PageEntry}
    (halloc : vmmAllocRegionEx vmmData reservationSize s process request = some (base',s'))
    (htaken : ∃ taken, s.allocationBitmap.IsFree taken ∧ ¬ s'.allocationBitmap.IsFree taken)
    (hnull : ¬ s.allocationBitmap.IsFree 0)
    (hrange : (allocRange (s.space process) request.baseAddress request.size).1 = some (base,size))
    (hframe : tracked frame) (hk : k < size / pageSize)
    (hof : PageEntry.Of s.memory (s.roots process) (walkAddress base k) page)
    (hmapped : s.MapsFrame page frame) (role : FrameRole) : ¬ s'.HasRole frame role := by
  obtain ⟨taken,hfree,htaken⟩ := htaken
  obtain ⟨space,hpointer,hcases⟩ := vmmAllocRegionEx_cases (h.pointers process) halloc
  have hspace : FrameInv tracked (s.setSpace process space) := h.setSpace hpointer
  rcases hcases with rfl | ⟨_,size',hbase,hframes,hrange',pa,bitmap,hreserve,hcases⟩
  · exact absurd hfree htaken
  · rw [hrange] at hrange'
    obtain ⟨rfl,rfl⟩ := Prod.mk.inj (Option.some.inj hrange')
    rcases hcases with ⟨rfl,rfl⟩ | ⟨hpa,mapped,hmap,rfl⟩
    · rcases pmmReserveMemory_cases hreserve with ⟨_,rfl⟩ | ⟨index,hfound,hindex,_⟩
      · exact absurd hfree htaken
      · have hindex : index = 0 := by
          unfold pageSize at hindex
          omega
        rw [hindex] at hfound
        obtain ⟨hbound,hclear⟩ := bitmapScanFrom_some hfound
        exact absurd ⟨by omega,hclear 0 (by omega)⟩ hnull
    · exact hspace.setReserved_lost hbase hframes hreserve hpa hmap hframe hk hof hmapped role

theorem frameInv_of_reachable {start s : MemoryManager Process}
    (h : (regionSystem vmmData reservationSize highestPhysicalAddress start).ReachableUnder
      MemoryManager.MapsAbsentPages s) :
    FrameInv (fun frame => start.allocationBitmap.IsFree frame) s := by
  refine h.invariant ?_ ?_
  · rintro s ⟨rfl,hstart⟩
    exact hstart.frameInv
  · intro s action s' _ hinv hguard hstep
    exact hinv.step hguard hstep

/-- As long as only absent pages are mapped, a frame that was free at the start is in one role,
and an allocation keeps every page that is mapped. -/
theorem frames_conserved {start s : MemoryManager Process}
    (h : (regionSystem vmmData reservationSize highestPhysicalAddress start).ReachableUnder
      MemoryManager.MapsAbsentPages s) :
    (∀ frame, start.allocationBitmap.IsFree frame → s.Conserves frame) ∧
      ∀ process request s', s.MapsAbsentPages (.allocRegion process request) →
        regionStep vmmData reservationSize highestPhysicalAddress s (.allocRegion process request) =
          some s' →
        ∀ page entry, PageEntry.Holds s.memory s.roots page entry →
          PageEntry.Holds s'.memory s'.roots page entry := by
  have hinv := frameInv_of_reachable h
  refine ⟨hinv.conserves,?_⟩
  intro process request s' hguard hstep
  obtain ⟨⟨base,s₁⟩,halloc,rfl⟩ := Option.map_eq_some_iff.mp hstep
  exact (hinv.allocRegion hguard halloc).2

end Invariant

/-- Frames 1 to 15 are free, and nothing is mapped yet. -/
def exampleManager : MemoryManager Unit where
  memory := emptyTables
  pagingData
    | none => ⟨0x100000,16,1,true⟩
    | some _ => ⟨0x200000,16,1,false⟩
  space
    | none => { exampleSpace with freeVirtualAddressPointer := 0xFFFF800001000000 }
    | some _ => exampleSpace
  allocationBitmap := ⟨0,2,16,fun frame => frame == 0⟩
  pagesToZeroList := []

private theorem emptyTables_follow {root n : Nat} {path : List (Fin 512)}
    (h : emptyTables.tableAt root path = some n) : path = [] ∧ n = root := by
  cases path with
  | nil => exact ⟨rfl,(Option.some.inj h).symm⟩
  | cons offset path => cases h

theorem exampleManager_start : exampleManager.Start := by
  have hfollow : ∀ {process path n}, exampleManager.memory.tableAt (exampleManager.roots process) path =
      some n → path = [] ∧ n = exampleManager.roots process := emptyTables_follow
  refine ⟨⟨?_,?_,?_,?_⟩,by decide,?_,?_,fun _ _ => List.not_mem_nil⟩
  · intro process
    cases process with
    | none => exact ⟨by decide,by decide,by decide,by decide,by decide⟩
    | some process =>
      have hwf : PagingData.WellFormed ⟨0x200000,16,1,false⟩ :=
        ⟨by decide,by decide,by decide,by decide,by decide⟩
      exact hwf
  · intro process process' path path' n _ _ hpath hpath'
    rw [(hfollow hpath).1,(hfollow hpath').1]
  · intro process k hle hlt other path _ hpath
    have heq := (hfollow hpath).2
    rcases process with _ | ⟨⟩ <;> rcases other with _ | ⟨⟩ <;>
      simp [exampleManager,MemoryManager.roots,rootsOf,PagingData.frame,pageSize] at heq hle hlt <;>
      omega
  · intro process other k k' hk hk' heq
    rcases process with _ | ⟨⟩ <;> rcases other with _ | ⟨⟩ <;>
      simp [exampleManager,PagingData.frame,pageSize] at heq hk hk' ⊢ <;> omega
  · intro process
    cases process with
    | none => decide
    | some process =>
      show exampleSpace.freeVirtualAddressPointer < qwordModulus
      decide
  · intro frame _ process path entry levels _ hleaf
    cases path <;> cases hleaf

def allocCall (baseAddress size : Nat) (reserve commit notLazy : Bool)
    (h : baseAddress < qwordModulus) : RegionAction Unit :=
  .allocRegion (some ()) ⟨baseAddress,size,⟨reserve,commit⟩,notLazy,pageRightsReadWrite,false,h⟩

abbrev exampleRegions : TransitionSystem (MemoryManager Unit) (RegionAction Unit) :=
  regionSystem ⟨0,3⟩ 56 0x100000 exampleManager

/-- A page is populated lazily and one eagerly, both are released, and one of them is zeroed. -/
theorem frames_conserved_run : ∃ s : MemoryManager Unit,
    exampleRegions.ReachableUnder MemoryManager.MapsAbsentPages s ∧
    s.framesToZero = [2] ∧ s.Conserves 1 ∧ s.Conserves 2 := by
  obtain ⟨s,hreach,hs⟩ := TransitionSystem.exists_reachable exampleRegions
    MemoryManager.MapsAbsentPages exampleManager ⟨rfl,exampleManager_start⟩
    [allocCall 0 0x2000 true true false (by decide),
      .pageFault (some ()) 0x1001234 pageRightsReadWrite false,
      allocCall 0 0x1000 true true true (by decide),
      .freeRegion (some ()) 0x1000000 .release,.freeRegion (some ()) 0x1002000 .release,
      .zeroWorker]
    (fun s => decide (s.framesToZero = [2])) (by decide +kernel) (by decide +kernel)
  exact ⟨s,hreach,of_decide_eq_true hs,(frames_conserved hreach).1 1 ⟨by decide,by decide⟩,
    (frames_conserved hreach).1 2 ⟨by decide,by decide⟩⟩

/-- The entry of the first page of the process. -/
def examplePageEntry : PageEntry := ⟨[0,0,8],0x203000,0⟩

/-- The first page is mapped to the frame. -/
def firstPageMaps (s : MemoryManager Unit) (frame : Nat) : Bool :=
  decide (s.memory.tableAt (s.roots (some ())) [0,0,8] = some 0x203000) &&
    (s.memory 0x203000 0).present &&
    decide ((s.memory 0x203000 0).physicalAddress = frame * pageSize)

private theorem firstPageMaps_mapsFrame {s : MemoryManager Unit} {frame : Nat}
    (h : firstPageMaps s frame = true) :
    PageEntry.Of s.memory (s.roots (some ())) (walkAddress 0x1000000 0) examplePageEntry ∧
      s.MapsFrame examplePageEntry frame := by
  simp only [firstPageMaps,Bool.and_eq_true,decide_eq_true_eq] at h
  obtain ⟨⟨htable,hpresent⟩,haddress⟩ := h
  exact ⟨⟨by decide,htable⟩,_,⟨rfl,⟨some (),htable⟩,rfl,hpresent⟩,haddress⟩

/-- A page that is populated is committed again: its frame is replaced, and lost. -/
theorem eager_commit_loses_frame : ∃ (s s' : MemoryManager Unit),
    exampleRegions.Reachable s ∧ s.MapsFrame examplePageEntry 1 ∧
    exampleRegions.step s (allocCall 0x1000000 0x1000 false true true (by decide)) = some s' ∧
    s'.MapsFrame examplePageEntry 2 ∧
    exampleManager.allocationBitmap.IsFree 1 ∧ ∀ role, ¬ s'.HasRole 1 role := by
  obtain ⟨s,hreach,hs⟩ := TransitionSystem.exists_reachable exampleRegions
    MemoryManager.MapsAbsentPages exampleManager ⟨rfl,exampleManager_start⟩
    [allocCall 0 0x1000 true true true (by decide)]
    (fun s => firstPageMaps s 1 && decide (s.allocationBitmap.bitCount = 16 ∧
        s.allocationBitmap.bits 0 = true ∧ s.allocationBitmap.bits 2 = false ∧
        (allocRange (s.space (some ())) 0x1000000 0x1000).1 = some (0x1000000,0x1000)) &&
      (exampleRegions.step s (allocCall 0x1000000 0x1000 false true true (by decide))).any
        fun s' => firstPageMaps s' 2 && s'.allocationBitmap.bits 2)
    (by decide +kernel) (by decide +kernel)
  simp only [Bool.and_eq_true,decide_eq_true_eq] at hs
  obtain ⟨⟨hmaps,hcount,hnull,hfree,hrange⟩,hstep⟩ := hs
  obtain ⟨s',hstep,hs'⟩ := Option.any_eq_true _ _ |>.mp hstep
  obtain ⟨hmaps',htaken⟩ := Bool.and_eq_true_iff.mp hs'
  obtain ⟨hof,hmapped⟩ := firstPageMaps_mapsFrame hmaps
  obtain ⟨⟨base,s₁⟩,halloc,rfl⟩ := Option.map_eq_some_iff.mp hstep
  have htaken : ∃ taken, s.allocationBitmap.IsFree taken ∧ ¬ s₁.allocationBitmap.IsFree taken :=
    ⟨2,⟨by omega,hfree⟩,fun h => Bool.false_ne_true (h.2.symm.trans htaken)⟩
  have hnull : ¬ s.allocationBitmap.IsFree 0 := fun h => Bool.false_ne_true (h.2.symm.trans hnull)
  have hfree : exampleManager.allocationBitmap.IsFree 1 := ⟨by decide,by decide⟩
  have hpages : 0 < 0x1000 / pageSize := by decide
  exact ⟨s,s₁,hreach.mono fun _ _ _ => trivial,hmapped,hstep,(firstPageMaps_mapsFrame hmaps').2,hfree,
    eager_commit_loses (frameInv_of_reachable hreach) halloc htaken hnull hrange hfree hpages hof
      hmapped⟩

end Hal9000
