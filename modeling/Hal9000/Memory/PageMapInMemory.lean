import Hal9000.Memory.BitmapMemory

/-!
# The page map of a reservation space in memory

Runs of the reservation calls with the commit bits in memory are runs of entries with bits of
their own, so what a page fault is answered with is the page map of the history.
-/

namespace Hal9000

namespace InMemory

section Runs

variable (lib : CommonLib) (reservationSize : Nat)

/-- The events of a call that succeeds. -/
def pageEvents (space : VmmReservationSpace) : ReservationCall → List PageEvent
  | .alloc request =>
    match vmReservationSpaceAllocRegion lib reservationSize space request with
    | some (.success, some range, _) =>
      (if request.allocType.reserve then
        [.reserve range request.rights request.uncacheable request.fileObject] else []) ++
      (if request.allocType.commit then [.commit range] else [])
    | _ => []
  | .free address .release =>
    match vmReservationSpaceFreeRegion lib reservationSize space address .release with
    | some (range, _) => [.release range]
    | none => []
  | .free address (.decommit size) =>
    match vmReservationSpaceFreeRegion lib reservationSize space address (.decommit size) with
    | some (range, _) => [.decommit range]
    | none => []

/-- Whatever the bitmap area holds at first. -/
def metadataSystem (metadataBaseAddress reservationBaseAddress metadataSize : Nat) :
    TransitionSystem VmmReservationSpace ReservationCall where
  init space := ∃ memory created, vmReservationSpaceInit metadataBaseAddress
    reservationBaseAddress metadataSize memory = some created ∧
      space = vmReservationSpaceFinishInit created
  step space
    | .alloc request =>
      (vmReservationSpaceAllocRegion lib reservationSize space request).map (·.2.2)
    | .free address freeType =>
      (vmReservationSpaceFreeRegion lib reservationSize space address freeType).map (·.2.2)

/-- The addresses of the call stay below 2 ^ 64. -/
def InWords (space : VmmReservationSpace) : ReservationCall → Prop
  | .alloc request => ∀ range ∈ (allocRange space request.baseAddress request.size).1,
    range.1 + range.2 < qwordModulus
  | .free address _ => address + 1 < qwordModulus

instance (space : VmmReservationSpace) : ∀ call, Decidable (InWords space call)
  | .alloc request => inferInstanceAs (Decidable (∀ range ∈
      (allocRange space request.baseAddress request.size).1, _))
  | .free _ _ => inferInstanceAs (Decidable (_ < _))

end Runs

end InMemory

section Refinement

variable {lib : CommonLib} {reservationSize metadataBase reservationBase metadataSize : Nat}
  {history : List PageEvent}

variable (reservationSize) in
private theorem bitmapsApart_init {memory : BitMemory} {created : InMemory.VmmReservationSpace}
    (hfits : metadataBase + metadataSize + maxBitmapBytes < qwordModulus)
    (h : InMemory.vmReservationSpaceInit metadataBase reservationBase metadataSize memory =
      some created) :
    ∃ space, vmReservationSpaceInit metadataBase reservationBase metadataSize = some space ∧
      InMemory.vmReservationSpaceFinishInit created =
        (vmReservationSpaceFinishInit space).inMemory memory ∧
      BitmapsApart reservationSize (vmReservationSpaceFinishInit space) := by
  simp only [InMemory.vmReservationSpaceInit,Option.bind_eq_bind,Option.bind_eq_some_iff,
    Option.pure_def,Option.some.injEq] at h
  obtain ⟨_,hbase,_,haligned,_,hsize,rfl⟩ := h
  have hnone := not_live_finishInit
  have hle : ptrOffset metadataBase (reservationListSize metadataSize) ≤
      metadataBase + metadataSize := by
    have hlist := reservationListSize_le metadataSize
    exact (Nat.mod_le _ _).trans (by omega)
  refine ⟨_,by rw [vmReservationSpaceInit,hbase,haligned,hsize]; rfl,rfl,
    ⟨⟨[],_,rfl,rfl,trivial⟩,?_,?_,?_,?_,?_,?_,?_⟩⟩
  · exact fun i r hr => absurd hr (hnone _ i r)
  · exact fun i r hr => absurd hr (hnone _ i r)
  · exact fun i r hr => absurd hr (hnone _ i r)
  · exact fun i r hr => absurd hr (hnone _ i r)
  · exact fun i j r r' hr => absurd hr (hnone _ i r)
  · exact hle
  · exact hfits

private theorem checkBounds_of_subset {r : VmmReservation} {range : Nat × Nat}
    (hargs : ReserveArguments r.startVa r.size) (hlow : r.startVa ≤ range.1)
    (hbase : range.1 % pageSize = 0) (hsize : range.2 % pageSize = 0) (hne : range.2 ≠ 0)
    (hsubset : ∀ page ∈ rangePages range, page ∈ r.pages) :
    checkBounds range.1 range.2 r.startVa r.size = true := by
  have hstart := hargs.base_aligned
  have hwhole := hargs.size_aligned
  have hlast := hsubset ((range.1 + range.2) / pageSize - 1) (by
    rw [rangePages,Set.mem_Ico]
    unfold pageSize at *
    omega)
  rw [checkBounds_eq_true]
  simp only [VmmReservation.pages,rangePages,Set.mem_Ico] at hlast
  unfold pageSize at *
  omega

private theorem step_inMemory (hlib : lib.Documented) {space : VmmReservationSpace}
    {memory : BitMemory} {result : InMemory.VmmReservationSpace}
    (hapart : BitmapsApart reservationSize space) {call : ReservationCall}
    (hwords : InMemory.InWords (space.inMemory memory) call)
    (h : (InMemory.metadataSystem lib reservationSize metadataBase reservationBase
      metadataSize).step (space.inMemory memory) call = some result) :
    ∃ space' memory', result = space'.inMemory memory' ∧
      (reservationSystem reservationSize).step space call = some space' ∧
      InMemory.pageEvents lib reservationSize (space.inMemory memory) call =
        pageEvents reservationSize space call ∧
      BitmapsApart reservationSize space' ∧
      ∀ history, PageMapInv history space →
        WellFormedHistory (history ++ pageEvents reservationSize space call) →
        space.BitsAt lib memory → space'.BitsAt lib memory' := by
  cases call with
  | alloc request =>
    rw [InMemory.InWords,allocRange_inMemory] at hwords
    obtain ⟨⟨status,range,result⟩,hcall,rfl⟩ := Option.map_eq_some_iff.mp h
    obtain ⟨space',memory',hcall',rfl,hfollowed⟩ :=
      vmReservationSpaceAllocRegion_inMemory hlib hapart hwords hcall
    refine ⟨space',memory',rfl,Option.map_eq_some_iff.mpr ⟨_,hcall',rfl⟩,?_,hfollowed.apart,
      fun _ _ _ => hfollowed.bits⟩
    rw [InMemory.pageEvents,pageEvents,hcall,hcall']
    cases status <;> cases range <;> rfl
  | free address freeType =>
    obtain ⟨⟨range,copy,result⟩,hcall,rfl⟩ := Option.map_eq_some_iff.mp h
    cases freeType with
    | release =>
      obtain ⟨r,space',hcall',-,rfl,hfollowed⟩ :=
        freeRegion_release_inMemory hlib hapart hwords hcall
      refine ⟨space',memory,rfl,Option.map_eq_some_iff.mpr ⟨_,hcall',rfl⟩,?_,hfollowed.apart,
        fun _ _ _ => hfollowed.bits⟩
      simp only [InMemory.pageEvents,pageEvents,hcall,hcall']
    | decommit size =>
      obtain ⟨k,r,interval,memory',-,-,hlive,hin,hrange,hinterval,hclear,rfl,hcall'⟩ :=
        freeRegion_decommit_inMemory hlib hapart hwords hcall
      refine ⟨_,memory',(decommit_inMemory hlive interval.1 interval.2 memory memory').symm,
        Option.map_eq_some_iff.mpr ⟨_,hcall',rfl⟩,?_,decommit_apart hapart hlive _ _,?_⟩
      · rw [InMemory.pageEvents,pageEvents,hcall,hcall']
      · intro history hinv hwf
        rw [pageEvents,hcall'] at hwf
        have hinside := (historically_append_singleton.mp hwf).2
        have hfirst : range.1 = alignAddressLower address pageSize := congrArg Prod.fst hrange
        have hargs := hapart.arguments k r hlive
        have hbounds := checkBounds_eq_true.mp hin
        obtain ⟨hlow,hbase,hsize,hpages,hsubset⟩ :=
          hinv.decommit_subset hinside hlive hin hfirst hinterval
        have hne : range.2 ≠ 0 := by
          have hle : range.1 ≤ address := by
            rw [hfirst]
            exact Nat.div_mul_le_self address pageSize
          exact (pageInterval_spec hargs hlow (by omega) hinterval).2.2.1
        have hinside := checkBounds_of_subset hargs hlow hbase hsize hne hsubset
        exact (decommit_followedBy hlib hapart hlive hinside hinterval hclear).2.bits

/-- A run in memory is one with bits of their own, and while the history stays well formed those
are the bits in memory. -/
theorem reachable_inMemory (hlib : lib.Documented)
    (hfits : metadataBase + metadataSize + maxBitmapBytes < qwordModulus)
    {p : InMemory.VmmReservationSpace × List PageEvent}
    (h : ((InMemory.metadataSystem lib reservationSize metadataBase reservationBase
      metadataSize).recording (InMemory.pageEvents lib reservationSize)).ReachableUnder
        (fun p call => InMemory.InWords p.1 call) p) :
    ∃ space memory, p.1 = space.inMemory memory ∧
      ((metadataSystem reservationSize metadataBase reservationBase metadataSize).recording
        (pageEvents reservationSize)).Reachable (space,p.2) ∧
      BitmapsApart reservationSize space ∧
      (WellFormedHistory p.2 → space.BitsAt lib memory) := by
  induction h with
  | init h =>
    obtain ⟨⟨memory,created,hcreated,hspace⟩,hrecord⟩ := h
    obtain ⟨space,hinit,hsame,hapart⟩ := bitmapsApart_init reservationSize hfits hcreated
    refine ⟨_,memory,hspace.trans hsame,.init ⟨⟨space,hinit,rfl⟩,hrecord⟩,hapart,?_⟩
    exact fun _ i r hr => absurd hr (not_live_finishInit space i r)
  | @step p p' call _ hwords hstep ih =>
    obtain ⟨space,memory,hp,hreach,hapart,hbits⟩ := ih
    obtain ⟨hcall,hrecord⟩ := TransitionSystem.recording_step.mp hstep
    rw [hp] at hcall hwords hrecord
    obtain ⟨space',memory',hp',hcall',hevents,hapart',hfollows⟩ :=
      step_inMemory hlib hapart hwords hcall
    have hrecord' : p'.2 = p.2 ++ pageEvents reservationSize space call := by
      rw [hrecord,← hevents]
    refine ⟨space',memory',hp',?_,hapart',?_⟩
    · exact .step hreach trivial (TransitionSystem.recording_step.mpr ⟨hcall',hrecord'⟩)
    · intro hwf
      rw [hrecord'] at hwf
      have hbefore : WellFormedHistory p.2 := Historically.of_append hwf
      obtain ⟨created,_,_,heffects⟩ := reachable_effects hreach
      exact hfollows p.2 (page_map_inv hbefore heffects) hwf (hbits hbefore)

/-- An access is allowed exactly if the page was committed and not decommitted or released
since, and its reservation grants the rights; the answer is that reservation's. -/
theorem access_refines_page_map (hlib : lib.Documented)
    (hfits : metadataBase + metadataSize + maxBitmapBytes < qwordModulus)
    {space : InMemory.VmmReservationSpace}
    (h : ((InMemory.metadataSystem lib reservationSize metadataBase reservationBase
      metadataSize).recording (InMemory.pageEvents lib reservationSize)).ReachableUnder
        (fun p call => InMemory.InWords p.1 call) (space,history))
    (hwf : WellFormedHistory history) (metadataAccess : Bool) {address : Nat}
    (haddress : address + 1 < qwordModulus)
    (hmetadata : lib.checkBounds address 1 space.reservationList space.reservedAreaSize = false)
    (requested : PageRights) :
    ∃ answer, InMemory.vmReservationCanAddressBeAccessed lib reservationSize space metadataAccess
        address requested = some answer ∧
      ∀ grant, answer = some grant ↔ CommittedSince history (address / pageSize) ∧
        ∃ attributes, ReservedSince history (address / pageSize) attributes ∧
          attributes.rights.includes requested = true ∧ grant = attributes.grant address := by
  obtain ⟨own,memory,hspace,hreach,hapart,hbits⟩ := reachable_inMemory hlib hfits h
  obtain rfl : space = own.inMemory memory := hspace
  have hroom := hapart.room
  have harea := hlib.checkBounds address 1 own.reservationList own.reservedAreaSize haddress
    (by omega)
  rw [vmReservationCanAddressBeAccessed_inMemory hlib hapart (hbits hwf) metadataAccess haddress]
  exact access_eq_page_map hreach hwf metadataAccess (harea.symm.trans hmetadata) requested

end Refinement

/-- Sums wrap, and bit `i` of a bitmap is bit `i` of its buffer. -/
def wordLib : CommonLib where
  checkBounds address size boundAddress boundSize :=
    decide (boundAddress ≤ address ∧
      (address + size) % qwordModulus ≤ (boundAddress + boundSize) % qwordModulus)
  bitmapInit bitmap memory bit :=
    memory bit && !decide (8 * bitmap.bitmapBuffer ≤ bit ∧
      bit < 8 * (bitmap.bitmapBuffer + bitmap.bufferSize))
  bitmapSetBits bitmap index count memory := some fun bit =>
    decide (8 * bitmap.bitmapBuffer + index ≤ bit ∧
      bit < 8 * bitmap.bitmapBuffer + index + count) || memory bit
  bitmapClearBits bitmap index count memory := some fun bit =>
    !decide (8 * bitmap.bitmapBuffer + index ≤ bit ∧
      bit < 8 * bitmap.bitmapBuffer + index + count) && memory bit
  bitmapGetBitValue bitmap index memory := memory (8 * bitmap.bitmapBuffer + index)

theorem wordLib_documented : wordLib.Documented where
  checkBounds address size boundAddress boundSize hrange hbound := by
    simp only [wordLib,checkBounds,Nat.mod_eq_of_lt hrange,Nat.mod_eq_of_lt hbound,Bool.decide_and]
  bitmapInit bitmap memory hfits := by
    constructor
    · intro i hi
      simp only [BitmapBuffer.Fits] at hfits
      simp only [wordLib,Bool.and_eq_false_iff,Bool.not_eq_false',decide_eq_true_eq]
      omega
    · intro bit hbit
      have houtside : decide (8 * bitmap.bitmapBuffer ≤ bit ∧
          bit < 8 * (bitmap.bitmapBuffer + bitmap.bufferSize)) = false := decide_eq_false hbit
      simp only [wordLib,houtside,Bool.not_false,Bool.and_true]
  bitmapSetBits bitmap index count memory hfits hinside := by
    refine ⟨_,rfl,?_,?_⟩
    · intro i _
      simp only [wordLib]
      congr 2
      rw [Nat.add_assoc,Nat.add_le_add_iff_left,Nat.add_lt_add_iff_left]
    · intro bit hbit
      simp only [BitmapBuffer.Fits,BitmapBuffer.Covers] at hfits hbit
      have houtside : decide (8 * bitmap.bitmapBuffer + index ≤ bit ∧
          bit < 8 * bitmap.bitmapBuffer + index + count) = false := decide_eq_false (by omega)
      simp only [houtside,Bool.false_or]
  bitmapClearBits bitmap index count memory hfits hinside := by
    refine ⟨_,rfl,?_,?_⟩
    · intro i _
      simp only [wordLib]
      congr 3
      rw [Nat.add_assoc,Nat.add_le_add_iff_left,Nat.add_lt_add_iff_left]
    · intro bit hbit
      simp only [BitmapBuffer.Fits,BitmapBuffer.Covers] at hfits hbit
      have houtside : decide (8 * bitmap.bitmapBuffer + index ≤ bit ∧
          bit < 8 * bitmap.bitmapBuffer + index + count) = false := decide_eq_false (by omega)
      simp only [houtside,Bool.not_false,Bool.true_and]
  bitmapGetBitValue bitmap memory memory' hfits hsame i hi := by
    apply hsame
    simp only [BitmapBuffer.Fits,BitmapBuffer.Covers] at hfits ⊢
    omega

/-- The slot of a reservation of one page is used again for three pages, of which the third is
committed. -/
def exampleHistory (file : Option Nat) : List PageEvent :=
  (((([] ++ [.reserve (0x1000000,0x1000) pageRightsReadWrite false none]) ++
    [.commit (0x1000000,0x1000)]) ++ [.release (0x1000000,0x1000)]) ++
      [.reserve (0x1001000,0x3000) pageRightsReadWrite false file]) ++ [.commit (0x1003000,0x1000)]

def exampleCalls (file : Option Nat) : List ReservationCall :=
  [.alloc ⟨0,0x1000,⟨true,true⟩,pageRightsReadWrite,false,none⟩,.free 0x1000000 .release,
    .alloc ⟨0,0x3000,⟨true,false⟩,pageRightsReadWrite,false,file⟩,
    .alloc ⟨0x1003000,0x1000,⟨false,true⟩,pageRightsReadWrite,false,file⟩]

def exampleSystem : TransitionSystem (InMemory.VmmReservationSpace × List PageEvent)
    ReservationCall :=
  (InMemory.metadataSystem wordLib 56 0x10000 0x1000000 0x50000).recording
    (InMemory.pageEvents wordLib 56)

private theorem exampleHistory_wellFormed (file : Option Nat) :
    WellFormedHistory (exampleHistory file) := by
  simp only [WellFormedHistory,exampleHistory,historically_append_singleton]
  refine ⟨⟨⟨⟨⟨historically_nil,fun _ _ _ => not_since_nil⟩,trivial⟩,trivial⟩,?_⟩,trivial⟩
  intro page hpage attributes
  rw [ReservedSince,since_append_singleton,since_append_singleton,since_append_singleton]
  rintro (hreserves | ⟨-,hreserves | ⟨-,hreserves | ⟨-,hsince⟩⟩⟩)
  · cases hreserves
  · cases hreserves
  · have hfirst : page ∈ rangePages (0x1000000,0x1000) := hreserves.1
    simp only [rangePages,pageSize,Set.mem_Ico] at hpage hfirst
    omega
  · exact not_since_nil hsince

private theorem exampleHistory_reachable (file : Option Nat)
    (p : InMemory.VmmReservationSpace → Bool)
    (hguard : exampleSystem.RunSatisfies (fun p call => InMemory.InWords p.1 call)
      (exampleSpace.inMemory fun _ => true,[]) (exampleCalls file))
    (hp : (exampleSystem.run (exampleSpace.inMemory fun _ => true,[]) (exampleCalls file)).any
      (fun s => decide (s.2 = exampleHistory file) && p s.1) = true) :
    ∃ space, exampleSystem.ReachableUnder (fun p call => InMemory.InWords p.1 call)
      (space,exampleHistory file) ∧ p space = true := by
  obtain ⟨s,hreach,hs⟩ := TransitionSystem.exists_reachable exampleSystem _
    (exampleSpace.inMemory fun _ => true,[]) ⟨⟨fun _ => true,_,rfl,rfl⟩,rfl⟩ (exampleCalls file)
    (fun s => decide (s.2 = exampleHistory file) && p s.1) hguard hp
  simp only [Bool.and_eq_true,decide_eq_true_eq] at hs
  exact ⟨s.1,by rw [← hs.1]; exact hreach,hs.2⟩

private theorem exampleHistory_committed (file : Option Nat) (page : Nat) :
    CommittedSince (exampleHistory file) page ↔ page ∈ rangePages (0x1003000,0x1000) := by
  simp only [CommittedSince,exampleHistory,since_append_singleton]
  simp [PageEvent.Commits,PageEvent.Decommits,PageEvent.Releases]

private theorem exampleHistory_reserved (file : Option Nat) {page : Nat}
    (hpage : page ∈ rangePages (0x1001000,0x3000)) :
    ReservedSince (exampleHistory file) page ⟨0x1001000,pageRightsReadWrite,false,file⟩ := by
  simp only [ReservedSince,exampleHistory,since_append_singleton]
  exact Or.inr ⟨id,Or.inl ⟨hpage,rfl⟩⟩

/-- The committed page of a mapped file is answered with its offset, the one before is refused. -/
theorem access_refines_page_map_file : ∃ space grant,
    exampleSystem.ReachableUnder (fun p call => InMemory.InWords p.1 call)
      (space,exampleHistory (some 7)) ∧
    InMemory.vmReservationCanAddressBeAccessed wordLib 56 space false 0x1003010
      pageRightsReadWrite = some (some grant) ∧
    grant.fileOffset = 0x2000 ∧ grant.backingFile = some 7 ∧
    InMemory.vmReservationCanAddressBeAccessed wordLib 56 space false 0x1002010
      pageRightsReadWrite = some none := by
  obtain ⟨space,hreach,hp⟩ := exampleHistory_reachable (some 7)
    (fun space => !wordLib.checkBounds 0x1003010 1 space.reservationList space.reservedAreaSize &&
      !wordLib.checkBounds 0x1002010 1 space.reservationList space.reservedAreaSize)
    (by decide +kernel) (by decide +kernel)
  simp only [Bool.and_eq_true,Bool.not_eq_true'] at hp
  have hwf := exampleHistory_wellFormed (some 7)
  obtain ⟨answer,hanswer,hgrant⟩ := access_refines_page_map wordLib_documented (by decide) hreach hwf
    false (by decide) hp.1 pageRightsReadWrite
  obtain ⟨answer',hanswer',hgrant'⟩ := access_refines_page_map wordLib_documented (by decide) hreach
    hwf false (by decide) hp.2 pageRightsReadWrite
  have hthird : CommittedSince (exampleHistory (some 7)) (0x1003010 / pageSize) := by
    rw [exampleHistory_committed]
    simp [rangePages,pageSize]
  have hsecond : ¬ CommittedSince (exampleHistory (some 7)) (0x1002010 / pageSize) := by
    rw [exampleHistory_committed]
    simp [rangePages,pageSize]
  have hpage : 0x1003010 / pageSize ∈ rangePages (0x1001000,0x3000) := by
    simp [rangePages,pageSize]
  have hallowed := (hgrant _).mpr
    ⟨hthird,_,exampleHistory_reserved (some 7) hpage,by decide,rfl⟩
  have hrefused : answer' = none := by
    rw [Option.eq_none_iff_forall_ne_some]
    intro grant heq
    exact hsecond ((hgrant' grant).mp heq).1
  exact ⟨space,_,hreach,hallowed ▸ hanswer,by decide,rfl,hrefused ▸ hanswer'⟩

/-- A committed page without a file behind it is answered with the offset zero. -/
theorem offset_without_file : ∃ space grant,
    exampleSystem.ReachableUnder (fun p call => InMemory.InWords p.1 call)
      (space,exampleHistory none) ∧ WellFormedHistory (exampleHistory none) ∧
    wordLib.checkBounds 0x1003010 1 space.reservationList space.reservedAreaSize = false ∧
    InMemory.vmReservationCanAddressBeAccessed wordLib 56 space false 0x1003010
      pageRightsReadWrite = some (some grant) ∧
    grant.fileOffset ≠ alignAddressLower (0x1003010 - 0x1001000) pageSize := by
  obtain ⟨space,hreach,hp⟩ := exampleHistory_reachable none
    (fun space => !wordLib.checkBounds 0x1003010 1 space.reservationList space.reservedAreaSize &&
      (InMemory.vmReservationCanAddressBeAccessed wordLib 56 space false 0x1003010
        pageRightsReadWrite).any fun answer => answer.any fun grant => grant.fileOffset == 0)
    (by decide +kernel) (by decide +kernel)
  simp only [Bool.and_eq_true,Bool.not_eq_true'] at hp
  obtain ⟨answer,hanswer,hoffset⟩ := Option.any_eq_true _ _ |>.mp hp.2
  obtain ⟨grant,rfl,hoffset⟩ := Option.any_eq_true _ _ |>.mp hoffset
  have hoffset : grant.fileOffset = 0 := by simpa using hoffset
  refine ⟨space,grant,hreach,exampleHistory_wellFormed none,hp.1,hanswer,?_⟩
  rw [hoffset]
  decide

end Hal9000
