import Hal9000.Memory.RegionBacking
import Hal9000.Memory.ReservationEntry

/-!
# The executable of a process

`UmApplicationRetrieveHeader` opens the executable, maps it and parses its header. From the moment
it is mapped the reservation owns the file: its release closes it. A region that could not be
mapped is reported by its address only, which the caller does not take for a failure.
-/

namespace Hal9000

/-- What the file system and the parser answer; `none` is a failure. -/
structure ExecutableAnswers where
  createFile : String → Option Nat
  /-- The size of the file. -/
  queryInformationFile : Nat → Option Nat
  readFile : Nat → Option Nat
  /-- Whether the header of the buffer, with its size, is a valid one. -/
  retrieveNtHeader : Nat → Nat → Bool

/-- The file that `_VmUninitializeReservation` closes. -/
def filesClosed (uninitialized : Option VmmReservation) : List Nat :=
  (uninitialized.bind VmmReservation.backingFile).toList

/-- The region that the executable is read into, at once. -/
def executableRequest (file size : Nat) : BackedRequest where
  region := ⟨0,size,⟨true,true⟩,true,pageRightsReadWrite,false,null_lt⟩
  zero := false
  fileObject := some file
  mdl := none

/-- What `_UmApplicationReadExecutableContents` leaves; the buffer `0` is `NULL`. -/
structure ExecutableContents (Process : Type) where
  succeeded : Bool
  opened : Option Nat
  buffer : Nat
  bufferSize : Nat
  /-- The calls of `IoCloseFile`. -/
  closed : List Nat
  memory : MemoryManager Process

/-- What `UmApplicationRetrieveHeader` leaves. -/
structure HeaderRetrieval (Process : Type) where
  succeeded : Bool
  opened : Option Nat
  buffer : Nat
  /-- The calls of `PeRetrieveNtHeader`: the buffer and its size. -/
  parsed : List (Nat × Nat)
  closed : List Nat
  memory : MemoryManager Process

section Functions

variable {Process : Type} [DecidableEq Process]
variable (vmmData : VmmData) (reservationSize : Nat)

/-- The files that the `__finally` block of `VmmAllocRegionEx` closes. -/
def vmmAllocRegionCloses (s : MemoryManager Process) (vaSpace : Option Process)
    (locals : AllocLocals) : Option (List Nat) :=
  if locals.succeeded || locals.baseAddress == 0 then some []
  else (vmReservationSpaceFreeRegion reservationSize (s.space vaSpace) locals.baseAddress
    .release).map (fun released => filesClosed released.2.1)

/-- `VmmAllocRegionEx`, with the files that it closes. -/
def vmmAllocRegionWithFiles (s : MemoryManager Process) (vaSpace pagingData : Option Process)
    (request : BackedRequest) (fileRead : Option Nat) :
    Option (Nat × List Nat × MemoryManager Process) := do
  let (locals, s) ← vmmAllocRegionTry vmmData reservationSize s vaSpace pagingData request fileRead
  let closed ← vmmAllocRegionCloses reservationSize s vaSpace locals
  let (base, s) ← vmmAllocRegionFinally reservationSize s vaSpace pagingData locals
  return (base,closed,s)

/-- `VmmFreeRegionEx` that releases a region and not its frames, with the files that it closes. -/
def vmmFreeRegionWithFiles (s : MemoryManager Process) (process : Option Process) (address : Nat) :
    Option (List Nat × MemoryManager Process) := do
  let released ← vmReservationSpaceFreeRegion reservationSize (s.space process) address .release
  let s ← vmmFreeRegionEx reservationSize s process address .release false
  return (filesClosed released.2.1,s)

/-- `_UmApplicationReadExecutableContents`. -/
def umApplicationReadExecutableContents (s : MemoryManager Process) (answers : ExecutableAnswers)
    (fullPath : String) : Option (ExecutableContents Process) :=
  match answers.createFile fullPath with
  | none => some ⟨false,none,0,0,[],s⟩
  | some file =>
    match answers.queryInformationFile file with
    | none => some ⟨false,some file,0,0,[file],s⟩
    | some fileSize => do
      assert (decide (fileSize ≤ maxDword))
      let (buffer, closed, s) ← vmmAllocRegionWithFiles vmmData reservationSize s none none
        (executableRequest file fileSize) (answers.readFile file)
      -- `__leave` for a buffer that is `NULL`, with the status that succeeded
      return ⟨true,some file,buffer,fileSize,closed,s⟩

/-- `UmApplicationRetrieveHeader`; a path that is `none` is `NULL`. -/
def umApplicationRetrieveHeader (s : MemoryManager Process) (answers : ExecutableAnswers)
    (path : Option String) (ntHeaderInfo : Bool) : Option (HeaderRetrieval Process) :=
  match path with
  | none => some ⟨false,none,0,[],[],s⟩
  | some path =>
    if ntHeaderInfo = false then some ⟨false,none,0,[],[],s⟩
    else do
      let contents ← umApplicationReadExecutableContents vmmData reservationSize s answers path
      if contents.succeeded = false then
        return ⟨false,contents.opened,0,[],contents.closed,contents.memory⟩
      assert (decide (contents.bufferSize ≤ maxDword))
      let parsed := [(contents.buffer,contents.bufferSize)]
      if answers.retrieveNtHeader contents.buffer contents.bufferSize then
        return ⟨true,contents.opened,contents.buffer,parsed,contents.closed,contents.memory⟩
      else if contents.buffer = 0 then
        return ⟨false,contents.opened,0,parsed,contents.closed,contents.memory⟩
      else
        -- `_UmApplicationDiscardKernelExecutableMapping`
        let (closed, s) ← vmmFreeRegionWithFiles reservationSize contents.memory none
          contents.buffer
        return ⟨false,contents.opened,contents.buffer,parsed,contents.closed ++ closed,s⟩

variable {reservationSize} in
private theorem vmmAllocRegionCloses_of_finally {s : MemoryManager Process}
    {vaSpace pagingData : Option Process} {locals : AllocLocals}
    {result : Nat × MemoryManager Process}
    (h : vmmAllocRegionFinally reservationSize s vaSpace pagingData locals = some result) :
    ∃ closed, vmmAllocRegionCloses reservationSize s vaSpace locals = some closed := by
  unfold vmmAllocRegionCloses
  by_cases hsucceeded : locals.succeeded = true
  · exact ⟨[],by rw [hsucceeded]; rfl⟩
  · by_cases hbase : locals.baseAddress = 0
    · exact ⟨[],by rw [hbase,beq_self_eq_true,Bool.or_true]; rfl⟩
    · rw [vmmAllocRegionFinally,if_neg hsucceeded,if_neg hbase] at h
      obtain ⟨released,hreleased,-⟩ := Option.bind_eq_some_iff.mp h
      rw [if_neg (by simp [hsucceeded,hbase]),hreleased]
      exact ⟨_,rfl⟩

theorem vmmAllocRegionWithFiles_memory (s : MemoryManager Process) (vaSpace pagingData : Option Process)
    (request : BackedRequest) (fileRead : Option Nat) :
    (vmmAllocRegionWithFiles vmmData reservationSize s vaSpace pagingData request fileRead).map
        (fun result => (result.1,result.2.2)) =
      vmmAllocBackedRegion vmmData reservationSize s vaSpace pagingData request fileRead := by
  rw [vmmAllocRegionWithFiles,vmmAllocBackedRegion]
  cases vmmAllocRegionTry vmmData reservationSize s vaSpace pagingData request fileRead with
  | none => rfl
  | some ended =>
    obtain ⟨locals,s'⟩ := ended
    simp only [Option.bind_eq_bind,Option.bind_some]
    cases hfinally : vmmAllocRegionFinally reservationSize s' vaSpace pagingData locals with
    | none => cases vmmAllocRegionCloses reservationSize s' vaSpace locals <;> rfl
    | some result =>
      obtain ⟨closed,hcloses⟩ := vmmAllocRegionCloses_of_finally hfinally
      rw [hcloses]
      rfl

end Functions

/-- The region at the buffer is the one that the file is behind, and the only one. -/
def BackedByOnly (space : VmmReservationSpace) (buffer file : Nat) : Prop :=
  ∃ k r, space.FirstCovering buffer 1 k r ∧ r.backingFile = some file ∧
    ∀ i r', space.Live i r' → r'.backingFile = some file → i = k

/-- What a call has to do: to fail without a buffer, to parse a buffer of the size of the file, and
to have closed the file if it fails, and to have left it to the region if it does not. -/
structure RetrievesHeader {Process : Type} (answers : ExecutableAnswers)
    (result : HeaderRetrieval Process) : Prop where
  fails : result.buffer = 0 → result.succeeded = false
  parses : ∀ call ∈ result.parsed, call.1 ≠ 0 ∧ ∃ file ∈ result.opened,
    answers.queryInformationFile file = some call.2
  closes : ∀ file ∈ result.opened, if result.succeeded = true then
      file ∉ result.closed ∧ BackedByOnly (result.memory.space none) result.buffer file
    else result.closed.count file = 1 ∧
      ∀ i r, (result.memory.space none).Live i r → r.backingFile ≠ some file

/-- There is room behind the pointer, in no reservation that is found before the new one, and the
file is read if there are frames for it. -/
structure MapsExecutable {Process : Type} (reservationSize : Nat) (s : MemoryManager Process)
    (answers : ExecutableAnswers) (file size : Nat) : Prop where
  room : ∀ i r, (s.space none).Live i r → checkBounds (s.space none).freeVirtualAddressPointer
    (alignAddressUpper size pageSize) r.startVa r.size = false
  front : ∀ k, (s.space none).FirstFree reservationSize k → ∀ i r, i < k →
    (s.space none).Live i r →
      checkBounds (s.space none).freeVirtualAddressPointer 1 r.startVa r.size = false
  read : (pmmReserveMemory s.allocationBitmap (alignAddressUpper size pageSize / pageSize)).1 ≠ 0 →
    (answers.readFile file).isSome

theorem MemoryManager.setSpace_same {Process : Type} [DecidableEq Process]
    (s : MemoryManager Process) (process : Option Process) (space : VmmReservationSpace) :
    (s.setSpace process space).space process = space := by
  simp [MemoryManager.setSpace]

section Region

variable {Process : Type} [DecidableEq Process] {vmmData : VmmData} {reservationSize : Nat}
  {s s' : MemoryManager Process} {answers : ExecutableAnswers} {file size base : Nat}
  {closed : List Nat}

/-- How the allocation ends, with a buffer or without. -/
inductive RegionEnds (reservationSize : Nat) (s : MemoryManager Process)
    (answers : ExecutableAnswers) (file size : Nat) :
    Nat → List Nat → MemoryManager Process → Prop
  | unmapped {closed : List Nat} {s' : MemoryManager Process}
      (hnot : ¬ MapsExecutable reservationSize s answers file size) :
      RegionEnds reservationSize s answers file size 0 closed s'
  | mapped {base k : Nat} {r : VmmReservation} {s' : MemoryManager Process}
      (hbase : base ≠ 0)
      (hroom : ∀ i r, (s.space none).Live i r →
        checkBounds (s.space none).freeVirtualAddressPointer (alignAddressUpper size pageSize)
          r.startVa r.size = false)
      (hread : (pmmReserveMemory s.allocationBitmap
        (alignAddressUpper size pageSize / pageSize)).1 ≠ 0 → (answers.readFile file).isSome)
      (hpointer : (s.space none).freeVirtualAddressPointer = base)
      (hshape : ListShape reservationSize (s'.space none))
      (hfree : (s.space none).FirstFree reservationSize k)
      (hvacant : ∀ old, ¬ (s.space none).Live k old)
      (hrange : r.startVa = base ∧ r.size ≠ 0) (hfile : r.backingFile = some file)
      (hlive : ∀ i r', (s'.space none).Live i r' ↔ i = k ∧ r' = r ∨ i ≠ k ∧ (s.space none).Live i r') :
      RegionEnds reservationSize s answers file size base [] s'

theorem vmmAllocRegionWithFiles_ends (hshape : ListShape reservationSize (s.space none))
    (h : vmmAllocRegionWithFiles vmmData reservationSize s none none (executableRequest file size)
      (answers.readFile file) = some (base,closed,s')) :
    RegionEnds reservationSize s answers file size base closed s' := by
  simp only [vmmAllocRegionWithFiles,Option.bind_eq_bind,Option.bind_eq_some_iff] at h
  obtain ⟨⟨locals,s₁⟩,htry,closed',hcloses,⟨base',s₂⟩,hfinally,h⟩ := h
  dsimp only at hcloses hfinally
  have hresult : (base',closed',s₂) = (base,closed,s') := Option.some.inj h
  rw [Prod.mk.injEq,Prod.mk.injEq] at hresult
  obtain ⟨hbase',hclosed',hs₂⟩ := hresult
  rw [hclosed'] at hcloses
  rw [hbase',hs₂] at hfinally
  have hmade {base size' : Nat} {space : VmmReservationSpace} {s₁ : MemoryManager Process}
      (halloc : vmReservationSpaceAllocRegion reservationSize (s.space none)
        (executableRequest file size).allocRequest = some (.success,some (base,size'),space))
      (hspace : s₁.space none = space) (hbase : base ≠ 0)
      (hread : (pmmReserveMemory s.allocationBitmap (size' / pageSize)).1 ≠ 0 →
        (answers.readFile file).isSome) :
      RegionEnds reservationSize s answers file size base [] s₁ := by
    obtain ⟨hrange,k,hfree,hshape',hvacant,hnew,hlive⟩ := alloc_makes_reservation hshape rfl halloc
    obtain ⟨hnonzero,-⟩ := vmReservationSpaceAllocRegion_whole halloc
    have hpair : ((s.space none).freeVirtualAddressPointer,alignAddressUpper size pageSize) =
        (base,size') := Option.some.inj hrange
    obtain ⟨hpointer,rfl⟩ := Prod.mk.inj hpair
    rw [← hspace] at hshape' hlive
    exact .mapped hbase (by rw [hpointer]; exact hnew) hread hpointer hshape' hfree hvacant
      ⟨rfl,hnonzero⟩ rfl hlive
  have hends := vmmAllocRegionTry_ends htry
  cases hends with
  | refused halloc hfailed =>
    obtain ⟨i,r,hlive,hin⟩ := alloc_refused hshape rfl rfl halloc hfailed
    have hbase : base = 0 := by
      by_contra hbase
      exact Bool.false_ne_true (vmmAllocRegionFinally_address hfinally hbase).1
    rw [hbase]
    exact .unmapped fun hmaps => absurd hin (by
      rw [show (executableRequest file size).allocRequest.size = size from rfl,
        hmaps.room i r hlive]
      decide)
  | unbacked _ _ hlazy => cases hlazy
  | described _ _ hmdl => cases hmdl
  | noFrames halloc hbase _ hreserve =>
    obtain rfl : [] = closed := Option.some.inj hcloses
    obtain ⟨rfl,rfl⟩ := Prod.mk.inj (Option.some.inj hfinally)
    exact hmade halloc (s.setSpace_same none _) hbase
      (fun hne => absurd (congrArg Prod.fst hreserve) hne)
  | @mapped base' size' pa space bitmap mapped succeeded halloc hbase _ _ _ hreserve hpa _ hread =>
    cases succeeded with
    | true =>
      obtain rfl : [] = closed := Option.some.inj hcloses
      obtain ⟨rfl,rfl⟩ := Prod.mk.inj (Option.some.inj hfinally)
      refine hmade halloc (s.setSpace_same none _) hbase (fun _ => ?_)
      cases hanswer : answers.readFile file with
      | some _ => rfl
      | none => exact absurd (hread.mpr ⟨rfl,hanswer⟩) (by decide)
    | false =>
      obtain ⟨-,hnone⟩ := hread.mp rfl
      have hbase : base = 0 := by
        by_contra hbase
        exact Bool.false_ne_true (vmmAllocRegionFinally_address hfinally hbase).1
      obtain ⟨hrange,-⟩ := alloc_makes_reservation hshape rfl halloc
      obtain ⟨-,rfl⟩ := Prod.mk.inj (Option.some.inj hrange)
      rw [hbase]
      refine .unmapped fun hmaps => ?_
      have hfirst : (pmmReserveMemory s.allocationBitmap
          (alignAddressUpper size pageSize / pageSize)).1 = pa := congrArg Prod.fst hreserve
      have hanswer := hmaps.read (by rw [hfirst]; exact hpa)
      rw [hnone] at hanswer
      cases hanswer

theorem firstFree_unique {space : VmmReservationSpace} {j k : Nat}
    (hj : space.FirstFree reservationSize j) (hk : space.FirstFree reservationSize k) : j = k :=
  Option.some.inj (hj.symm.trans hk)

/-- What a buffer leads to: a reservation behind which the file is if and only if the executable
was mapped as it has to be. -/
structure FoundAt (reservationSize : Nat) (s : MemoryManager Process)
    (answers : ExecutableAnswers) (file size base : Nat) (space : VmmReservationSpace)
    (k : Nat) (r : VmmReservation) : Prop where
  shape : ListShape reservationSize space
  covering : space.FirstCovering base 1 k r
  owner : r.backingFile = some file ↔ MapsExecutable reservationSize s answers file size
  only : r.backingFile = some file →
    ∀ i r', space.Live i r' → r'.backingFile = some file → i = k

omit [DecidableEq Process] in
theorem RegionEnds.found (h : RegionEnds reservationSize s answers file size base closed s')
    (hbase : base ≠ 0) (hfresh : ∀ i r, (s.space none).Live i r → r.backingFile ≠ some file) :
    closed = [] ∧ ∃ k r,
      FoundAt reservationSize s answers file size base (s'.space none) k r := by
  cases h with
  | unmapped _ => exact absurd rfl hbase
  | @mapped _ k r _ _ hroom hread hpointer hshape hfree hvacant hrange hfile hlive =>
    have hnew := (hlive k r).mpr (Or.inl ⟨rfl,rfl⟩)
    have hcovers : checkBounds base 1 r.startVa r.size = true := by
      obtain ⟨hstart,hsize⟩ := hrange
      rw [checkBounds_eq_true,hstart]
      omega
    obtain ⟨found,hfound⟩ :=
      vmFindReservation_eq reservationSize (s'.space none) hbase Nat.one_ne_zero
    obtain ⟨k',r',-,hfirst⟩ := exists_firstCovering hshape hfound hnew hcovers
    have howner : ∀ i r', (s'.space none).Live i r' → r'.backingFile = some file → i = k := by
      intro i r'' hlive' hbacks
      rcases (hlive i r'').mp hlive' with ⟨heq,-⟩ | ⟨-,hold⟩
      · exact heq
      · exact absurd hbacks (hfresh i r'' hold)
    refine ⟨rfl,k',r',hshape,hfirst,⟨?_,?_⟩,?_⟩
    · intro hbacks
      have hk : k' = k := howner k' r' hfirst.live hbacks
      refine ⟨hroom,?_,hread⟩
      intro j hj i r'' hlt hold
      obtain rfl : j = k := firstFree_unique hj hfree
      rw [hpointer]
      exact hfirst.first i r'' (hk ▸ hlt) ((hlive i r'').mpr (Or.inr ⟨hlt.ne,hold⟩))
    · intro hmaps
      rcases (hlive k' r').mp hfirst.live with ⟨-,rfl⟩ | ⟨hne,hold⟩
      · exact hfile
      · exfalso
        rcases Nat.lt_or_ge k k' with hlt | hge
        · have hmissed := hfirst.first k r hlt hnew
          rw [hcovers] at hmissed
          cases hmissed
        · have hmissed := hmaps.front k hfree k' r' (by omega) hold
          have hin := hfirst.covers
          rw [hpointer,hin] at hmissed
          cases hmissed
    · intro hbacks i r'' hlive' hbacks'
      rw [howner i r'' hlive' hbacks',howner k' r' hfirst.live hbacks]

theorem vmmFreeRegionWithFiles_ends {k : Nat} {r : VmmReservation}
    (hshape : ListShape reservationSize (s.space none))
    (hfirst : (s.space none).FirstCovering base 1 k r) (hbase : base ≠ 0)
    (h : vmmFreeRegionWithFiles reservationSize s none base = some (closed,s')) :
    closed = r.backingFile.toList ∧
      ∀ i r', (s'.space none).Live i r' ↔ i ≠ k ∧ (s.space none).Live i r' := by
  simp only [vmmFreeRegionWithFiles,Option.bind_eq_bind,Option.bind_eq_some_iff] at h
  obtain ⟨released,hrelease,s₁,hfree,h⟩ := h
  obtain ⟨rfl,rfl⟩ := Prod.mk.inj (Option.some.inj h)
  obtain ⟨k',r',hfirst',-,hreleased⟩ :=
    (vmReservationSpaceFreeRegion_release hshape hbase).mp hrelease
  obtain ⟨rfl,rfl⟩ := firstCovering_unique hfirst hfirst'
  rw [hreleased] at hrelease
  refine ⟨by rw [hreleased]; rfl,?_⟩
  have hspace : s₁.space none = { s.space none with
      entries := (s.space none).entries.set k vmmReservationZero } := by
    simp only [vmmFreeRegionEx,hrelease,Option.bind_eq_bind,Option.bind_some,
      Option.bind_eq_some_iff] at hfree
    obtain ⟨s₂,hbitmap,_,_,_,_,hunmap⟩ := hfree
    rw [unmap_space hunmap,unmap_space hbitmap,MemoryManager.setSpace_same]
  intro i r'
  rw [hspace]
  exact live_release hfirst.live rfl i r'

end Region

section Call

variable {Process : Type} [DecidableEq Process] {vmmData : VmmData}
  {reservationSize metadataBase reservationBase metadataSize : Nat}
  {s : MemoryManager Process} {answers : ExecutableAnswers}

omit [DecidableEq Process] in
private theorem RetrievesHeader.early {opened : Option Nat} {closed : List Nat}
    (hclosed : ∀ file ∈ opened, closed.count file = 1 ∧
      ∀ i r, (s.space none).Live i r → r.backingFile ≠ some file) :
    RetrievesHeader answers (HeaderRetrieval.mk false opened 0 [] closed s) := by
  refine ⟨fun _ => rfl,fun _ hmem => absurd hmem List.not_mem_nil,?_⟩
  intro file hfile
  rw [if_neg Bool.false_ne_true]
  exact hclosed file hfile

private theorem retrieval_iff {file size base : Nat} {closed : List Nat}
    {s' : MemoryManager Process} {result : HeaderRetrieval Process}
    (hends : RegionEnds reservationSize s answers file size base closed s')
    (hfresh : ∀ i r, (s.space none).Live i r → r.backingFile ≠ some file)
    (hquery : answers.queryInformationFile file = some size)
    (hcall : (do
      assert (decide (size ≤ maxDword))
      if answers.retrieveNtHeader base size then
        return ⟨true,some file,base,[(base,size)],closed,s'⟩
      else if base = 0 then
        return ⟨false,some file,0,[(base,size)],closed,s'⟩
      else
        let (closed', s'') ← vmmFreeRegionWithFiles reservationSize s' none base
        return ⟨false,some file,base,[(base,size)],closed ++ closed',s''⟩) = some result) :
    RetrievesHeader answers result ↔ MapsExecutable reservationSize s answers file size := by
  obtain ⟨_,_,hcall⟩ := Option.bind_eq_some_iff.mp hcall
  by_cases hbase : base = 0
  · -- the parser is given `NULL`, whatever it answers
    have hparsed : (0,size) ∈ result.parsed := by
      rw [hbase] at hcall
      cases hparses : answers.retrieveNtHeader 0 size with
      | true =>
        rw [hparses] at hcall
        obtain rfl := Option.some.inj hcall
        exact List.mem_singleton_self _
      | false =>
        rw [hparses] at hcall
        obtain rfl := Option.some.inj hcall
        exact List.mem_singleton_self _
    refine iff_of_false (fun h => (h.parses _ hparsed).1 rfl) ?_
    cases hends with
    | unmapped hnot => exact hnot
    | mapped hne => exact absurd hbase hne
  · obtain ⟨rfl,k,r,hfound⟩ := hends.found hbase hfresh
    rw [← hfound.owner]
    have hparses : ∀ call ∈ [(base,size)], call.1 ≠ 0 ∧ ∃ file' ∈ some file,
        answers.queryInformationFile file' = some call.2 := by
      intro call hmem
      rw [List.mem_singleton.mp hmem]
      exact ⟨hbase,file,rfl,hquery⟩
    cases hanswer : answers.retrieveNtHeader base size with
    | true =>
      rw [hanswer,if_pos rfl] at hcall
      obtain rfl := Option.some.inj hcall
      constructor
      · intro h
        obtain ⟨-,k',r',hfirst,hbacks,-⟩ := (if_pos rfl).mp (h.closes file rfl)
        obtain ⟨-,rfl⟩ := firstCovering_unique hfound.covering hfirst
        exact hbacks
      · intro hbacks
        refine ⟨fun hzero => absurd hzero hbase,hparses,?_⟩
        intro file' hfile'
        obtain rfl := Option.some.inj hfile'
        rw [if_pos rfl]
        exact ⟨List.not_mem_nil,k,r,hfound.covering,hbacks,hfound.only hbacks⟩
    | false =>
      rw [hanswer,if_neg Bool.false_ne_true,if_neg hbase] at hcall
      obtain ⟨⟨closed',s''⟩,hfree,hcall⟩ := Option.bind_eq_some_iff.mp hcall
      obtain rfl := Option.some.inj hcall
      obtain ⟨hclosed,hlive⟩ :=
        vmmFreeRegionWithFiles_ends hfound.shape hfound.covering hbase hfree
      constructor
      · intro h
        have hcount : closed'.count file = 1 :=
          ((if_neg Bool.false_ne_true).mp (h.closes file rfl)).1
        have hmem : file ∈ closed' := List.count_pos_iff.mp (by omega)
        rw [hclosed,Option.mem_toList] at hmem
        exact hmem
      · intro hbacks
        refine ⟨fun hzero => absurd hzero hbase,hparses,?_⟩
        intro file' hfile'
        obtain rfl := Option.some.inj hfile'
        rw [if_neg Bool.false_ne_true]
        refine ⟨?_,?_⟩
        · rw [List.nil_append,hclosed,hbacks]
          simp
        · intro i r' hr' hbacks'
          obtain ⟨hne,hold⟩ := (hlive i r').mp hr'
          exact hne (hfound.only hbacks i r' hold hbacks')

/-- A call that returns has done what it has to do exactly when a file that was opened and queried
could be mapped at once, and is found by its address. -/
theorem retrievesHeader_iff {path : Option String} {ntHeaderInfo : Bool}
    {result : HeaderRetrieval Process}
    (hreach : (metadataSystem reservationSize metadataBase reservationBase metadataSize).Reachable
      (s.space none))
    (hfresh : ∀ name ∈ path, ∀ file ∈ answers.createFile name, ∀ i r,
      (s.space none).Live i r → r.backingFile ≠ some file)
    (hcall : umApplicationRetrieveHeader vmmData reservationSize s answers path ntHeaderInfo =
      some result) :
    RetrievesHeader answers result ↔ ntHeaderInfo = true → ∀ name ∈ path,
      ∀ file ∈ answers.createFile name, ∀ size ∈ answers.queryInformationFile file,
        MapsExecutable reservationSize s answers file size := by
  obtain ⟨hshape,-⟩ := reachable_arguments hreach
  unfold umApplicationRetrieveHeader at hcall
  cases path with
  | none =>
    obtain rfl := Option.some.inj hcall
    exact iff_of_true (.early (fun _ hnone => nomatch hnone)) (fun _ _ hnone => nomatch hnone)
  | some name =>
    cases ntHeaderInfo with
    | false =>
      obtain rfl := Option.some.inj hcall
      exact iff_of_true (.early (fun _ hnone => nomatch hnone))
        (fun hfalse => absurd hfalse Bool.false_ne_true)
    | true =>
      simp only [Bool.true_eq_false,if_false] at hcall
      obtain ⟨contents,hcontents,hcall⟩ := Option.bind_eq_some_iff.mp hcall
      unfold umApplicationReadExecutableContents at hcontents
      cases hcreate : answers.createFile name with
      | none =>
        rw [hcreate] at hcontents
        obtain rfl := Option.some.inj hcontents
        obtain rfl := Option.some.inj hcall
        refine iff_of_true (.early fun _ hnone => nomatch hnone) ?_
        intro _ name' hname file hfile
        obtain rfl := Option.some.inj hname
        rw [hcreate] at hfile
        cases hfile
      | some file =>
        have hfresh := hfresh name rfl file hcreate
        rw [hcreate] at hcontents
        cases hquery : answers.queryInformationFile file with
        | none =>
          simp only [hquery] at hcontents
          obtain rfl := Option.some.inj hcontents
          obtain rfl := Option.some.inj hcall
          refine iff_of_true (.early ?_) ?_
          · intro file' hfile'
            obtain rfl := Option.some.inj hfile'
            exact ⟨by simp,hfresh⟩
          · intro _ name' hname file' hfile' size hsize
            obtain rfl := Option.some.inj hname
            obtain rfl := Option.some.inj (hcreate.symm.trans hfile')
            rw [hquery] at hsize
            cases hsize
        | some size =>
          simp only [hquery,Option.bind_eq_bind,Option.bind_eq_some_iff] at hcontents
          obtain ⟨_,_,⟨base,closed,s'⟩,halloc,hcontents⟩ := hcontents
          obtain rfl := Option.some.inj hcontents
          have hends := vmmAllocRegionWithFiles_ends hshape halloc
          have hcondition : (true = true → ∀ name' ∈ some name, ∀ file' ∈ answers.createFile name',
              ∀ size' ∈ answers.queryInformationFile file',
                MapsExecutable reservationSize s answers file' size') ↔
              MapsExecutable reservationSize s answers file size := by
            constructor
            · intro h
              exact h rfl name rfl file hcreate size hquery
            · intro h _ name' hname file' hfile' size' hsize'
              obtain rfl := Option.some.inj hname
              obtain rfl := Option.some.inj (hcreate.symm.trans hfile')
              obtain rfl := Option.some.inj (hquery.symm.trans hsize')
              exact h
          rw [hcondition]
          simp only [Bool.true_eq_false,if_false] at hcall
          exact retrieval_iff hends hfresh hquery hcall

end Call

/-- A kernel whose addresses start in the upper half, with nothing reserved. -/
def executableSpace : VmmReservationSpace :=
  { exampleSpace with
    freeVirtualAddressPointer := 0xFFFF800001000000
    startOfVirtualAddressSpace := 0xFFFF800001000000 }

def executableManager (space : VmmReservationSpace) : MemoryManager Unit :=
  { exampleManager with space := fun _ => space }

/-- A file of six kilobytes; there is no header at `NULL`. -/
def exampleAnswers (readFile : Option Nat) : ExecutableAnswers where
  createFile _ := some 7
  queryInformationFile _ := some 0x1800
  readFile _ := readFile
  retrieveNtHeader buffer _ := buffer != 0

private theorem executableSpace_reachable :
    (metadataSystem 56 0x10000 0xFFFF800001000000 0x50000).Reachable executableSpace :=
  .init ⟨_,rfl,rfl⟩

private theorem executableSpace_live (i : Nat) (r : VmmReservation) :
    ¬ executableSpace.Live i r := by
  rintro ⟨hentry,hused⟩
  have hmem := List.mem_of_getElem? hentry
  rw [show executableSpace.entries = [{ vmmReservationZero with state := .last }] from rfl,
    List.mem_singleton] at hmem
  rw [hmem] at hused
  cases hused

/-- The executable is opened, read and parsed. -/
theorem retrievesHeader_two_pages : ∃ result,
    umApplicationRetrieveHeader ⟨0,3⟩ 56 (executableManager executableSpace)
      (exampleAnswers (some 0x1800)) (some "app") true = some result ∧
    result.succeeded = true ∧ RetrievesHeader (exampleAnswers (some 0x1800)) result := by
  have hcall : (umApplicationRetrieveHeader ⟨0,3⟩ 56 (executableManager executableSpace)
      (exampleAnswers (some 0x1800)) (some "app") true).any
        (fun result => result.succeeded) = true := by
    decide +kernel
  obtain ⟨result,hcall,hsucceeded⟩ := Option.any_eq_true _ _ |>.mp hcall
  refine ⟨result,hcall,hsucceeded,(retrievesHeader_iff executableSpace_reachable
    (fun _ _ _ _ i r hlive => absurd hlive (executableSpace_live i r)) hcall).mpr ?_⟩
  intro _ name _ file _ size _
  exact ⟨fun i r hlive => absurd hlive (executableSpace_live i r),
    fun _ _ i r _ hlive => absurd hlive (executableSpace_live i r),fun _ => rfl⟩

private theorem not_retrievesHeader {answers : ExecutableAnswers}
    {result : HeaderRetrieval Unit} {size : Nat} (hparsed : result.parsed = [(0,size)]) :
    ¬ RetrievesHeader answers result := by
  intro h
  exact (h.parses (0,size) (by rw [hparsed]; exact List.mem_singleton_self _)).1 rfl

/-- The file cannot be read, and the parser is given `NULL`; and a reservation is in the way, so
that the file is not closed either, and is behind no reservation. -/
theorem retrievesHeader_fails :
    (∃ result, umApplicationRetrieveHeader ⟨0,3⟩ 56 (executableManager executableSpace)
      (exampleAnswers none) (some "app") true = some result ∧
      ¬ RetrievesHeader (exampleAnswers none) result) ∧
    ∃ space result, (metadataSystem 56 0x10000 0xFFFF800001000000 0x50000).Reachable space ∧
      umApplicationRetrieveHeader ⟨0,3⟩ 56 (executableManager space)
        (exampleAnswers (some 0x1800)) (some "app") true = some result ∧
      result.opened = some 7 ∧ result.closed = [] ∧
      (∀ r ∈ (result.memory.space none).entries, r.backingFile ≠ some 7) ∧
      ¬ RetrievesHeader (exampleAnswers (some 0x1800)) result := by
  constructor
  · have hcall : (umApplicationRetrieveHeader ⟨0,3⟩ 56 (executableManager executableSpace)
        (exampleAnswers none) (some "app") true).any
          (fun result => result.parsed == [(0,0x1800)]) = true := by
      decide +kernel
    obtain ⟨result,hcall,hparsed⟩ := Option.any_eq_true _ _ |>.mp hcall
    exact ⟨result,hcall,not_retrievesHeader (beq_iff_eq.mp hparsed)⟩
  · have hrun : ((metadataSystem 56 0x10000 0xFFFF800001000000 0x50000).run executableSpace
        [reserveCall 0xFFFF800001000000 0x10000]).any (fun space =>
          (umApplicationRetrieveHeader ⟨0,3⟩ 56 (executableManager space)
            (exampleAnswers (some 0x1800)) (some "app") true).any (fun result =>
              decide (result.parsed = [(0,0x1800)] ∧ result.opened = some 7 ∧ result.closed = [] ∧
                ∀ r ∈ (result.memory.space none).entries, r.backingFile ≠ some 7))) = true := by
      decide +kernel
    obtain ⟨space,hspace,hcall⟩ := Option.any_eq_true _ _ |>.mp hrun
    obtain ⟨result,hcall,hresult⟩ := Option.any_eq_true _ _ |>.mp hcall
    obtain ⟨hparsed,hopened,hclosed,hbacks⟩ := of_decide_eq_true hresult
    exact ⟨space,result,executableSpace_reachable.run hspace,hcall,hopened,hclosed,hbacks,
      not_retrievesHeader hparsed⟩

end Hal9000
