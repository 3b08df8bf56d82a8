import Hal9000.Memory.PageFault
import Hal9000.Memory.ReservationPageMap

/-!
# Checking the buffers of a process

`MmuIsBufferValid` accepts every buffer that starts inside the image, and looks at one
address for each page size of any other. The bytes it does not look at are those behind
the image and those on a last page the scan steps over.
-/

namespace Hal9000

/-- What the check reads of a process. -/
structure UserProcess where
  /-- `HeaderInfo->Preferred.ImageBase`. -/
  imageBase : Nat
  /-- `HeaderInfo->Size`. -/
  imageSize : Nat
  vaSpace : VmmReservationSpace
  kernelSpace : Bool

inductive BufferStatus
  /-- What the reservation space answered. -/
  | reservation (status : Status)
  | invalidParameter1
  | invalidParameter2
  | invalidParameter4
  | memoryPreventsUsermodeAccess
  | memoryInsufficientAccessRights
  deriving DecidableEq

/-- Only one of the ends is looked at twice. -/
def vmIsKernelRange (address rangeSize : Nat) : Option Bool := do
  assert (rangeSize != 0)
  return vmIsKernelAddress address || vmIsKernelAddress (ptrOffset address (rangeSize - 1))

/-- The scan for commits from an offset on, for a number of iterations. -/
def isFullyCommited (reservation : VmmReservation) (address : Nat) : Nat → Nat → Option Bool
  | _, 0 => some true
  | i, iterations + 1 => do
    if ← vmIsVaCommited reservation (ptrOffset address i) then
      isFullyCommited reservation address (i + pageSize) iterations
    else return false

/-- How often `for (i = 0; i < Size; i += PAGE_SIZE)` goes round. -/
def scanIterations (size : Nat) : Nat := (size + (pageSize - 1)) / pageSize

section Check

variable (reservationSize : Nat)

/-- The rights are written if a reservation is found. Of the status of the search nothing is
returned. -/
def vmReservationReturnRightsForAddress (space : VmmReservationSpace) (address size : Nat) :
    Option (Status × Option PageRights) := do
  assert (address != 0)
  assert (size != 0)
  match ← vmFindReservation reservationSize space address size with
  | none => return (.memoryIsNotCommited, none)
  | some index =>
    let reservation ← space.entries[index]?
    let fullyCommited ← isFullyCommited reservation address 0 (scanIterations size)
    return (if fullyCommited then .success else .memoryIsNotCommited, some reservation.pageRights)

def vmmIsBufferValid (buffer bufferSize : Nat) (rightsRequested : PageRights)
    (space : VmmReservationSpace) (kernelAccess : Bool) : Option BufferStatus := do
  assert (buffer != 0)
  assert (bufferSize != 0)
  let kernelRange ← vmIsKernelRange buffer bufferSize
  if !kernelAccess && kernelRange then return .memoryPreventsUsermodeAccess
  match ← vmReservationReturnRightsForAddress reservationSize space buffer bufferSize with
  | (.success, some rightsGranted) =>
    if rightsGranted.includes rightsRequested then return .reservation .success
    else return .memoryInsufficientAccessRights
  | (status, _) => return .reservation status

/-- The shortcut for buffers in the binary. -/
def UserProcess.StartsInImage (process : UserProcess) (buffer : Nat) : Prop :=
  process.imageBase ≤ buffer ∧ buffer < ptrOffset process.imageBase process.imageSize

instance (process : UserProcess) (buffer : Nat) : Decidable (process.StartsInImage buffer) :=
  inferInstanceAs (Decidable (_ ∧ _))

def mmuIsBufferValid (buffer bufferSize : Nat) (rightsRequested : PageRights)
    (process : Option UserProcess) : Option BufferStatus :=
  if buffer = 0 then some .invalidParameter1
  else if bufferSize = 0 then some .invalidParameter2
  else match process with
    | none => some .invalidParameter4
    | some process =>
      if process.StartsInImage buffer then some (.reservation .success)
      else vmmIsBufferValid reservationSize buffer bufferSize rightsRequested process.vaSpace
        process.kernelSpace

end Check

namespace UserProcess

variable (process : UserProcess)

def InImage (byte : Nat) : Prop :=
  process.imageBase ≤ byte ∧ byte < process.imageBase + process.imageSize

/-- The byte is on a committed page of a reservation with the rights. -/
def InCommitted (rights : PageRights) (byte : Nat) : Prop :=
  ∃ i r, process.vaSpace.Live i r ∧ r.pageRights.includes rights = true ∧
    byte / pageSize ∈ r.pages ∧ r.IsCommitted (byte / pageSize)

/-- User mode may access the byte. -/
def ByteAllowed (rights : PageRights) (byte : Nat) : Prop :=
  vmIsKernelAddress byte = false ∧ (process.InImage byte ∨ process.InCommitted rights byte)

/-- The bytes the check does not look at are fine all the same: those of a buffer that starts
in the image, as to the half they are in and where they lie if behind the image, and
those of another buffer that are on a page the scan steps over. -/
structure UncheckedAllowed (rights : PageRights) (buffer size : Nat) : Prop where
  image : process.StartsInImage buffer → ∀ k < size,
    vmIsKernelAddress (ptrOffset buffer k) = false ∧
      (buffer + k < process.imageBase + process.imageSize ∨
        process.InCommitted rights (ptrOffset buffer k))
  scan : ¬ process.StartsInImage buffer → ∀ k < size,
    scanIterations size ≤ (buffer % pageSize + k) / pageSize →
      process.InImage (ptrOffset buffer k) ∨ process.InCommitted rights (ptrOffset buffer k)

end UserProcess

theorem isFullyCommited_true {r : VmmReservation} {address i iterations : Nat}
    (h : isFullyCommited r address i iterations = some true) :
    ∀ j < iterations, vmIsVaCommited r (ptrOffset address (i + j * pageSize)) = some true := by
  induction iterations generalizing i with
  | zero =>
    intro j hj
    cases hj
  | succ n ih =>
    simp only [isFullyCommited,Option.bind_eq_bind,Option.bind_eq_some_iff] at h
    obtain ⟨committed,hfirst,h⟩ := h
    cases committed with
    | false => cases h
    | true =>
      intro j hj
      cases j with
      | zero => simpa using hfirst
      | succ j =>
        have hrest := ih h j (by omega)
        rwa [Nat.add_mul,Nat.one_mul,Nat.add_comm (j * pageSize),← Nat.add_assoc]

private theorem vmIsKernelAddress_eq_false {address : Nat} :
    vmIsKernelAddress address = false ↔ address / 2 ^ 47 % 2 = 0 := by
  rw [vmIsKernelAddress,vaHighestValidBit,Nat.testBit_eq_decide_div_mod_eq,decide_eq_false_iff_not]
  omega

private theorem user_range {buffer size : Nat} (hbuffer : buffer < qwordModulus)
    (hmax : size ≤ maxDword * pageSize) (hfirst : vmIsKernelAddress buffer = false)
    (hlast : vmIsKernelAddress (ptrOffset buffer (size - 1)) = false) :
    buffer + size ≤ qwordModulus ∧ ∀ k < size, vmIsKernelAddress (buffer + k) = false := by
  rw [vmIsKernelAddress_eq_false] at hfirst hlast
  have hfits : buffer + size ≤ qwordModulus := by
    unfold qwordModulus maxDword pageSize at *
    omega
  refine ⟨hfits,?_⟩
  intro k hk
  have hend : ptrOffset buffer (size - 1) = buffer + (size - 1) := by
    apply Nat.mod_eq_of_lt
    omega
  rw [hend] at hlast
  rw [vmIsKernelAddress_eq_false]
  unfold maxDword pageSize at hmax
  omega

section Accepted

variable {reservationSize metadataBase reservationBase metadataSize : Nat} {process : UserProcess}
variable {buffer size : Nat} {rights : PageRights}

private theorem accepted_outside (hoffset : ¬ process.StartsInImage buffer)
    (hspace : process.kernelSpace = false)
    (h : mmuIsBufferValid reservationSize buffer size rights (some process) =
      some (.reservation .success)) :
    buffer ≠ 0 ∧ size ≠ 0 ∧ vmIsKernelAddress buffer = false ∧
      vmIsKernelAddress (ptrOffset buffer (size - 1)) = false ∧
      ∃ index r, vmFindReservation reservationSize process.vaSpace buffer size = some (some index) ∧
        process.vaSpace.entries[index]? = some r ∧ r.pageRights.includes rights = true ∧
        isFullyCommited r buffer 0 (scanIterations size) = some true := by
  rw [mmuIsBufferValid] at h
  split at h
  · cases h
  · rename_i hbuffer
    split at h
    · cases h
    · rename_i hsize
      simp only [vmmIsBufferValid,vmIsKernelRange,hspace,Option.bind_eq_bind,
        Option.bind_eq_some_iff,Option.pure_def,Option.some.injEq,Bool.not_false,Bool.true_and] at h
      obtain ⟨_,_,_,_,kernelRange,⟨_,_,rfl⟩,h⟩ := h
      split at h
      · cases h
      · rename_i huser
        simp only [Bool.or_eq_true,not_or,Bool.not_eq_true] at huser
        obtain ⟨answer,hanswer,h⟩ := Option.bind_eq_some_iff.mp h
        refine ⟨hbuffer,hsize,huser.1,huser.2,?_⟩
        simp only [vmReservationReturnRightsForAddress,Option.bind_eq_bind,
          Option.bind_eq_some_iff] at hanswer
        obtain ⟨_,_,_,_,found,hfound,hanswer⟩ := hanswer
        cases found with
        | none =>
          cases hanswer
          cases h
        | some index =>
          simp only [Option.bind_eq_some_iff] at hanswer
          obtain ⟨r,hr,committed,hcommitted,hanswer⟩ := hanswer
          cases committed with
          | false =>
            cases hanswer
            cases h
          | true =>
            cases hanswer
            simp only [if_true] at h
            split at h
            · rename_i hrights
              exact ⟨index,r,hfound,hr,hrights,hcommitted⟩
            · cases h

private theorem scanned_committed {r : VmmReservation}
    (hargs : ReserveArguments r.startVa r.size)
    (hin : checkBounds buffer size r.startVa r.size = true) (hbuffer : buffer ≠ 0)
    (hfits : buffer + size ≤ qwordModulus)
    (hscan : isFullyCommited r buffer 0 (scanIterations size) = some true) {k : Nat}
    (hk : k < size) (hvisited : (buffer % pageSize + k) / pageSize < scanIterations size) :
    (buffer + k) / pageSize ∈ r.pages ∧ r.IsCommitted ((buffer + k) / pageSize) := by
  have hbounds := checkBounds_eq_true.mp hin
  have hbyte : checkBounds (buffer + k) 1 r.startVa r.size = true := by
    rw [checkBounds_eq_true]
    omega
  refine ⟨(mem_pages_iff hargs (buffer + k)).mpr hbyte,?_⟩
  generalize hj : (buffer % pageSize + k) / pageSize = j at hvisited
  have hpage : (buffer + k) / pageSize = (buffer + j * pageSize) / pageSize := by
    rw [← hj]
    unfold pageSize
    omega
  have hless : j * pageSize < size := by
    unfold scanIterations pageSize at *
    omega
  have haddress : ptrOffset buffer (0 + j * pageSize) = buffer + j * pageSize := by
    rw [Nat.zero_add]
    apply Nat.mod_eq_of_lt
    omega
  have hcommitted := isFullyCommited_true hscan j hvisited
  have hinside : checkBounds (buffer + j * pageSize) 1 r.startVa r.size = true := by
    rw [checkBounds_eq_true]
    omega
  rw [haddress,vmIsVaCommited_eq hargs (by omega) hinside] at hcommitted
  rw [VmmReservation.IsCommitted,hpage]
  exact Option.some.inj hcommitted

/-- An accepted buffer of a process lies in the user half and in the image or in committed
pages with the rights exactly if this is so of the bytes the check does not look at. -/
theorem accepted_buffer_allowed_iff
    (hspace : (metadataSystem reservationSize metadataBase reservationBase
      metadataSize).Reachable process.vaSpace)
    (hkernel : process.kernelSpace = false) (hbuffer : buffer < qwordModulus)
    (hbase : process.imageBase < qwordModulus) (himage : process.imageSize < qwordModulus)
    (h : mmuIsBufferValid reservationSize buffer size rights (some process) =
      some (.reservation .success)) :
    (∀ k < size, process.ByteAllowed rights (ptrOffset buffer k)) ↔
      process.UncheckedAllowed rights buffer size := by
  by_cases hshortcut : process.StartsInImage buffer
  · have hend : ptrOffset process.imageBase process.imageSize =
        process.imageBase + process.imageSize := by
      have hstart := hshortcut.1
      have hbelow := hshortcut.2
      unfold ptrOffset qwordModulus at *
      omega
    have hsum : process.imageBase + process.imageSize < qwordModulus := by
      rw [← hend]
      exact Nat.mod_lt _ (by decide)
    constructor
    · intro hall
      refine ⟨fun _ k hk => ⟨(hall k hk).1,?_⟩,fun hnot => absurd hshortcut hnot⟩
      have hwrap : buffer + k < qwordModulus := by
        by_contra hge
        have hlast := (hall (qwordModulus - 1 - buffer) (by omega)).1
        have htop : ptrOffset buffer (qwordModulus - 1 - buffer) = qwordModulus - 1 := by
          rw [ptrOffset,Nat.add_sub_of_le (by omega)]
          exact Nat.mod_eq_of_lt (by decide)
        rw [htop] at hlast
        revert hlast
        decide
      have hbyte : ptrOffset buffer k = buffer + k := Nat.mod_eq_of_lt hwrap
      rcases (hall k hk).2 with hin | hcommitted
      · rw [hbyte] at hin
        exact Or.inl hin.2
      · exact Or.inr hcommitted
    · intro hunchecked k hk
      have hbyte := hunchecked.image hshortcut k hk
      refine ⟨hbyte.1,?_⟩
      rcases hbyte.2 with hbelow | hcommitted
      · left
        have haddress : ptrOffset buffer k = buffer + k := Nat.mod_eq_of_lt (by omega)
        have hstart := hshortcut.1
        rw [haddress]
        constructor
        · omega
        · exact hbelow
      · exact Or.inr hcommitted
  · obtain ⟨hshape,harguments⟩ := reachable_arguments hspace
    obtain ⟨hne,hsize,hfirst,hlast,index,r,hfound,hr,hrights,hscan⟩ :=
      accepted_outside hshortcut hkernel h
    obtain ⟨r₁,hlive,hin⟩ := (vmFindReservation_spec hshape hfound).1 index rfl
    have hsame : r₁ = r := Option.some.inj (hlive.1.symm.trans hr)
    subst r₁
    have hargs := harguments index r hlive
    have hbounds := checkBounds_eq_true.mp hin
    have hmax : size ≤ maxDword * pageSize := by
      have hpages := hargs.pages_le
      have haligned := hargs.size_aligned
      unfold pageSize at *
      omega
    have huser := user_range hbuffer hmax hfirst hlast
    have haddress (k : Nat) (hk : k < size) : ptrOffset buffer k = buffer + k :=
      Nat.mod_eq_of_lt (by omega)
    constructor
    · intro hall
      exact ⟨fun hstart => absurd hstart hshortcut,fun _ k hk _ => (hall k hk).2⟩
    · intro hunchecked k hk
      refine ⟨?_,?_⟩
      · rw [haddress k hk]
        exact huser.2 k hk
      · by_cases hvisited : (buffer % pageSize + k) / pageSize < scanIterations size
        · have hcommitted := scanned_committed hargs hin hne huser.1 hscan hk hvisited
          rw [← haddress k hk] at hcommitted
          exact Or.inr ⟨index,r,hlive,hrights,hcommitted⟩
        · exact hunchecked.scan hshortcut k hk (Nat.le_of_not_lt hvisited)

end Accepted

/-- A live reservation contains the range, and no live one in front of it does. -/
structure VmmReservationSpace.FirstCovering (space : VmmReservationSpace) (address size index : Nat)
    (r : VmmReservation) : Prop where
  live : space.Live index r
  covers : checkBounds address size r.startVa r.size = true
  first : ∀ j r', j < index → space.Live j r' →
    checkBounds address size r'.startVa r'.size = false

/-- The pages with a byte of the range are committed in the reservation, which contains it. -/
structure VmmReservation.RangeCommitted (r : VmmReservation) (address size : Nat) : Prop where
  covers : checkBounds address size r.startVa r.size = true
  committed : ∀ k < size, r.IsCommitted ((address + k) / pageSize)

/-- The scan meets no address `NULL`, which only ranges over the end of the address space have,
and each page it looks at is committed. -/
def VmmReservation.ScanPasses (r : VmmReservation) (address size : Nat) : Prop :=
  ∀ k < scanIterations size, ptrOffset address (k * pageSize) ≠ 0 ∧
    r.IsCommitted (address / pageSize + k)

/-- The scan ends before the page of the last byte. -/
def StepsOverLastPage (address size : Nat) : Prop :=
  (addressOffset address pageSize + (size - 1)) / pageSize = scanIterations size

section Rights

variable {reservationSize metadataBase reservationBase metadataSize : Nat}
  {space : VmmReservationSpace} {address size : Nat} {r : VmmReservation}

theorem isFullyCommited_iff {i iterations : Nat} :
    isFullyCommited r address i iterations = some true ↔
      ∀ j < iterations, vmIsVaCommited r (ptrOffset address (i + j * pageSize)) = some true := by
  constructor
  · exact isFullyCommited_true
  · induction iterations generalizing i with
    | zero => exact fun _ => rfl
    | succ n ih =>
      intro hall
      have hfirst := hall 0 (Nat.succ_pos n)
      rw [Nat.zero_mul,Nat.add_zero] at hfirst
      rw [isFullyCommited,hfirst]
      apply ih
      intro j hj
      have hnext := hall (j + 1) (Nat.succ_lt_succ hj)
      rwa [Nat.add_mul,Nat.one_mul,Nat.add_comm (j * pageSize),← Nat.add_assoc] at hnext

private theorem vmIsVaCommited_scan (hargs : ReserveArguments r.startVa r.size)
    (haddress : address < qwordModulus) (hcovers : checkBounds address size r.startVa r.size = true)
    {k : Nat} (hk : k * pageSize < size) :
    vmIsVaCommited r (ptrOffset address (k * pageSize)) = some true ↔
      ptrOffset address (k * pageSize) ≠ 0 ∧ r.IsCommitted (address / pageSize + k) := by
  have hbounds := checkBounds_eq_true.mp hcovers
  have hpages := hargs.pages_le
  have hsize := hargs.size_aligned
  have hbase := hargs.base_aligned
  have hdiff : ptrDiff (ptrOffset address (k * pageSize)) r.startVa / pageSize =
      address / pageSize + k - r.startVa / pageSize := by
    simp only [ptrDiff,ptrOffset,qwordModulus,pageSize,maxDword] at *
    omega
  have hle : address / pageSize + k - r.startVa / pageSize ≤ maxDword := by
    simp only [pageSize,maxDword] at *
    omega
  rw [vmIsVaCommited,hdiff]
  simp only [Option.bind_eq_bind,Option.bind_eq_some_iff,assert_eq_some,bne_iff_ne,
    decide_eq_true_eq,exists_const,Option.pure_def,Option.some.injEq]
  exact ⟨fun h => ⟨h.1,h.2.2⟩,fun h => ⟨h.1,hle,h.2⟩⟩

private theorem scanPasses_iff (hargs : ReserveArguments r.startVa r.size)
    (haddress : address < qwordModulus)
    (hcovers : checkBounds address size r.startVa r.size = true) :
    isFullyCommited r address 0 (scanIterations size) = some true ↔ r.ScanPasses address size := by
  rw [isFullyCommited_iff]
  refine forall₂_congr fun k hk => ?_
  rw [Nat.zero_add]
  apply vmIsVaCommited_scan hargs haddress hcovers
  simp only [scanIterations,pageSize] at hk ⊢
  omega

theorem exists_firstCovering (hshape : ListShape reservationSize space) {found : Option Nat}
    (hfound : vmFindReservation reservationSize space address size = some found) {j : Nat}
    {r' : VmmReservation} (hlive : space.Live j r')
    (hcovers : checkBounds address size r'.startVa r'.size = true) :
    ∃ k r, found = some k ∧ space.FirstCovering address size k r := by
  have hspec := vmFindReservation_spec hshape hfound
  cases found with
  | none =>
    rw [hspec.2 rfl j r' hlive] at hcovers
    cases hcovers
  | some k =>
    obtain ⟨r,hr,hin⟩ := hspec.1 k rfl
    exact ⟨k,r,rfl,hr,hin,vmFindReservation_first hfound⟩

theorem firstCovering_unique {i j : Nat} {r r' : VmmReservation}
    (h : space.FirstCovering address size i r) (h' : space.FirstCovering address size j r') :
    i = j ∧ r = r' := by
  have hij : i = j := by
    rcases Nat.lt_trichotomy i j with hlt | heq | hgt
    · have hfirst := h'.first i r hlt h.live
      rw [h.covers] at hfirst
      cases hfirst
    · exact heq
    · have hfirst := h.first j r' hgt h'.live
      rw [h'.covers] at hfirst
      cases hfirst
  subst hij
  exact ⟨rfl,Option.some.inj (h.live.1.symm.trans h'.live.1)⟩

private theorem rights_success_iff (haddress : address < qwordModulus)
    (hshape : ListShape reservationSize space)
    (hargs : ∀ i r, space.Live i r → ReserveArguments r.startVa r.size) (hsize : size ≠ 0) :
    (∃ rights, vmReservationReturnRightsForAddress reservationSize space address size =
        some (.success,rights)) ↔
      ∃ i r, space.FirstCovering address size i r ∧ r.ScanPasses address size := by
  constructor
  · rintro ⟨rights,h⟩
    simp only [vmReservationReturnRightsForAddress,Option.bind_eq_bind,
      Option.bind_eq_some_iff] at h
    obtain ⟨_,_,_,_,found,hfound,h⟩ := h
    cases found with
    | none => cases h
    | some k =>
      simp only [Option.bind_eq_some_iff] at h
      obtain ⟨r,hr,fullyCommited,hscan,h⟩ := h
      obtain ⟨r',hlive,hcovers⟩ := (vmFindReservation_spec hshape hfound).1 k rfl
      obtain rfl := Option.some.inj (hr.symm.trans hlive.1)
      cases fullyCommited with
      | false => cases h
      | true =>
        exact ⟨k,r,⟨hlive,hcovers,vmFindReservation_first hfound⟩,
          (scanPasses_iff (hargs k r hlive) haddress hcovers).mp hscan⟩
  · rintro ⟨i,r,hfirst,hpasses⟩
    have hbounds := checkBounds_eq_true.mp hfirst.covers
    have hstart := (hargs i r hfirst.live).base_ne_zero
    have hne : address ≠ 0 := by omega
    obtain ⟨found,hfound⟩ := vmFindReservation_eq reservationSize space hne hsize
    obtain ⟨k,r',hk,hfirst'⟩ := exists_firstCovering hshape hfound hfirst.live hfirst.covers
    obtain ⟨rfl,rfl⟩ := firstCovering_unique hfirst hfirst'
    have hscan := (scanPasses_iff (hargs i r hfirst.live) haddress hfirst.covers).mpr hpasses
    have hassert : assert (address != 0) = some () := assert_eq_some.mpr (bne_iff_ne.mpr hne)
    have hassert' : assert (size != 0) = some () := assert_eq_some.mpr (bne_iff_ne.mpr hsize)
    refine ⟨some r.pageRights,?_⟩
    rw [vmReservationReturnRightsForAddress,hassert,hassert']
    simp only [Option.bind_eq_bind,Option.bind_some,hfound,hk,hfirst.live.1,hscan]
    rfl

private theorem VmmReservation.ScanPasses.committed (hpasses : r.ScanPasses address size)
    (hcovers : checkBounds address size r.startVa r.size = true)
    (hlast : StepsOverLastPage address size → r.IsCommitted ((address + (size - 1)) / pageSize)) :
    r.RangeCommitted address size := by
  refine ⟨hcovers,?_⟩
  intro k hk
  by_cases hscanned : (address + k) / pageSize - address / pageSize < scanIterations size
  · have hpage : address / pageSize + ((address + k) / pageSize - address / pageSize) =
        (address + k) / pageSize :=
      Nat.add_sub_cancel' (Nat.div_le_div_right (Nat.le_add_right _ _))
    rw [← hpage]
    exact (hpasses _ hscanned).2
  · have hpage : (address + k) / pageSize = (address + (size - 1)) / pageSize := by
      simp only [scanIterations,pageSize] at hscanned ⊢
      omega
    have hover : StepsOverLastPage address size := by
      simp only [StepsOverLastPage,addressOffset,scanIterations,pageSize] at hscanned ⊢
      omega
    rw [hpage]
    exact hlast hover

/-- Success means that a reservation contains the range with all its pages committed, if and only
if of the first reservation that contains the range two things hold: if the scan passes but steps
over the last page, this is committed, or else another reservation that contains the range has
all of it committed; and the scan passes if the range is committed in any reservation. -/
theorem rights_returned_iff (haddress : address < qwordModulus) (hsize : 0 < size)
    (hspace : (metadataSystem reservationSize metadataBase reservationBase
      metadataSize).Reachable space) :
    ((∃ rights, vmReservationReturnRightsForAddress reservationSize space address size =
        some (.success,rights)) ↔
      ∃ i r, space.Live i r ∧ r.RangeCommitted address size) ↔
    ∀ i r, space.FirstCovering address size i r →
      (StepsOverLastPage address size → r.ScanPasses address size →
        r.IsCommitted ((address + (size - 1)) / pageSize) ∨
          ∃ j r', j ≠ i ∧ space.Live j r' ∧ r'.RangeCommitted address size) ∧
      ((∃ j r', space.Live j r' ∧ r'.RangeCommitted address size) →
        r.ScanPasses address size) := by
  obtain ⟨hshape,hargs⟩ := reachable_arguments hspace
  rw [rights_success_iff haddress hshape hargs hsize.ne']
  constructor
  · rintro hiff i r hfirst
    refine ⟨?_,?_⟩
    · intro hover hpasses
      obtain ⟨j,r',hlive,hcommitted⟩ := hiff.mp ⟨i,r,hfirst,hpasses⟩
      by_cases hij : j = i
      · left
        subst hij
        obtain rfl := Option.some.inj (hlive.1.symm.trans hfirst.live.1)
        exact hcommitted.committed (size - 1) (by omega)
      · exact Or.inr ⟨j,r',hij,hlive,hcommitted⟩
    · intro hcommitted
      obtain ⟨j,r',hfirst',hpasses⟩ := hiff.mpr hcommitted
      obtain ⟨rfl,rfl⟩ := firstCovering_unique hfirst hfirst'
      exact hpasses
  · intro hcondition
    constructor
    · rintro ⟨i,r,hfirst,hpasses⟩
      by_cases hover : StepsOverLastPage address size
      · rcases (hcondition i r hfirst).1 hover hpasses with hlast | ⟨j,r',-,hlive,hcommitted⟩
        · exact ⟨i,r,hfirst.live,hpasses.committed hfirst.covers fun _ => hlast⟩
        · exact ⟨j,r',hlive,hcommitted⟩
      · exact ⟨i,r,hfirst.live,hpasses.committed hfirst.covers fun h => absurd h hover⟩
    · rintro ⟨j,r',hlive,hcommitted⟩
      have hbounds := checkBounds_eq_true.mp hcommitted.covers
      have hstart := (hargs j r' hlive).base_ne_zero
      have hne : address ≠ 0 := by omega
      obtain ⟨found,hfound⟩ := vmFindReservation_eq reservationSize space hne hsize.ne'
      obtain ⟨k,r,-,hfirst⟩ := exists_firstCovering hshape hfound hlive hcommitted.covers
      exact ⟨k,r,hfirst,(hcondition k r hfirst).2 ⟨j,r',hlive,hcommitted⟩⟩

end Rights

/-- A process with an image of three pages at 4 MB. -/
def exampleProcess (space : VmmReservationSpace) : UserProcess := ⟨0x400000,0x3000,space,false⟩

private theorem exampleProcess_init :
    (metadataSystem 56 0x10000 0x1000000 0x50000).init exampleSpace := ⟨_,rfl,rfl⟩

/-- Of two reserved pages, as many as asked for are committed. -/
def reserveTwoCommit (size : Nat) : List ReservationCall :=
  [.alloc ⟨0,0x2000,⟨true,false⟩,pageRightsReadWrite,false,none⟩,
    .alloc ⟨0x1000000,size,⟨false,true⟩,pageRightsReadWrite,false,none⟩]

/-- A buffer in two committed pages, of which the scan looks at both. -/
theorem accepted_buffer_two_pages : ∃ space,
    (metadataSystem 56 0x10000 0x1000000 0x50000).Reachable space ∧
    mmuIsBufferValid 56 0x1000010 0x1800 pageRightsReadWrite (some (exampleProcess space)) =
      some (.reservation .success) ∧
    ∀ k < 0x1800, (exampleProcess space).ByteAllowed pageRightsReadWrite (ptrOffset 0x1000010 k) := by
  obtain ⟨space,hreach,hp⟩ := TransitionSystem.exists_reachable
    (metadataSystem 56 0x10000 0x1000000 0x50000) (fun _ _ => True) exampleSpace
    exampleProcess_init (reserveTwoCommit 0x2000)
    (fun space => decide (mmuIsBufferValid 56 0x1000010 0x1800 pageRightsReadWrite
      (some (exampleProcess space)) = some (.reservation .success)))
    (TransitionSystem.runSatisfies_of_forall (fun _ _ => trivial) _ _) (by decide +kernel)
  have hvalid := of_decide_eq_true hp
  have hspace : (metadataSystem 56 0x10000 0x1000000 0x50000).Reachable
      (exampleProcess space).vaSpace := hreach
  have hunchecked : (exampleProcess space).UncheckedAllowed pageRightsReadWrite 0x1000010 0x1800 := by
    constructor
    · intro hstart
      exact absurd hstart.2 (by simp [exampleProcess,ptrOffset,qwordModulus])
    · intro _ k hk hpage
      unfold scanIterations pageSize at hpage
      omega
  exact ⟨space,hreach,hvalid,(accepted_buffer_allowed_iff hspace rfl (by decide)
    (by simp [exampleProcess,qwordModulus]) (by simp [exampleProcess,qwordModulus]) hvalid).mpr hunchecked⟩

/-- The range of the same buffer. -/
theorem rights_returned_two_pages : ∃ space,
    (metadataSystem 56 0x10000 0x1000000 0x50000).Reachable space ∧
    (∃ rights, vmReservationReturnRightsForAddress 56 space 0x1000010 0x1800 =
      some (.success,rights)) ∧
    ∃ i r, space.Live i r ∧ r.RangeCommitted 0x1000010 0x1800 := by
  obtain ⟨space,hreach,hp⟩ := TransitionSystem.exists_reachable
    (metadataSystem 56 0x10000 0x1000000 0x50000) (fun _ _ => True) exampleSpace
    exampleProcess_init (reserveTwoCommit 0x2000)
    (fun space => decide (vmReservationReturnRightsForAddress 56 space 0x1000010 0x1800 =
      some (.success,some pageRightsReadWrite)))
    (TransitionSystem.runSatisfies_of_forall (fun _ _ => trivial) _ _) (by decide +kernel)
  have hsuccess : ∃ rights, vmReservationReturnRightsForAddress 56 space 0x1000010 0x1800 =
      some (.success,rights) := ⟨_,of_decide_eq_true hp⟩
  obtain ⟨hshape,hargs⟩ := reachable_arguments hreach
  obtain ⟨j,r',hfirst',hpasses⟩ :=
    (rights_success_iff (by decide) hshape hargs (by decide)).mp hsuccess
  refine ⟨space,hreach,hsuccess,
    ((rights_returned_iff (by decide) (by decide) hreach).mpr ?_).mp hsuccess⟩
  intro i r hfirst
  obtain ⟨rfl,rfl⟩ := firstCovering_unique hfirst hfirst'
  refine ⟨fun hover => ?_,fun _ => hpasses⟩
  exact absurd hover (by unfold StepsOverLastPage; decide)

/-- Two bytes on two pages, of which the second is not committed. -/
theorem rights_returned_stepped_over : ∃ space,
    (metadataSystem 56 0x10000 0x1000000 0x50000).Reachable space ∧
    (∃ rights, vmReservationReturnRightsForAddress 56 space 0x1000FFF 2 =
      some (.success,rights)) ∧
    ¬∃ i r, space.Live i r ∧ r.RangeCommitted 0x1000FFF 2 := by
  obtain ⟨space,hreach,hp⟩ := TransitionSystem.exists_reachable
    (metadataSystem 56 0x10000 0x1000000 0x50000) (fun _ _ => True) exampleSpace
    exampleProcess_init (reserveTwoCommit 0x1000)
    (fun space => decide (vmReservationReturnRightsForAddress 56 space 0x1000FFF 2 =
        some (.success,some pageRightsReadWrite)) &&
      space.entries.all fun r => !r.commitBitmap.bits (0x1001 - r.startVa / pageSize))
    (TransitionSystem.runSatisfies_of_forall (fun _ _ => trivial) _ _) (by decide +kernel)
  have hp := Bool.and_eq_true_iff.mp hp
  refine ⟨space,hreach,⟨_,of_decide_eq_true hp.1⟩,?_⟩
  rintro ⟨i,r,hr,hcommitted⟩
  have hclear := List.all_eq_true.mp hp.2 r (List.mem_of_getElem? hr.1)
  have hbit := hcommitted.committed 1 (by decide)
  have hpage : (0x1000FFF + 1) / pageSize = 0x1001 := rfl
  rw [hpage,VmmReservation.IsCommitted] at hbit
  rw [hbit] at hclear
  cases hclear

private theorem accepted_behind_image :
    mmuIsBufferValid 56 0x402FFF 0x100000000 pageRightsReadWrite
        (some (exampleProcess exampleSpace)) = some (.reservation .success) ∧
      ¬ (exampleProcess exampleSpace).ByteAllowed pageRightsReadWrite (ptrOffset 0x402FFF 1) := by
  refine ⟨by decide +kernel,?_⟩
  rintro ⟨_,hin | ⟨i,r,hr,_⟩⟩
  · exact absurd hin.2 (by simp [exampleProcess,ptrOffset,qwordModulus])
  · have hmem := List.mem_of_getElem? hr.1
    have hlast : r = { vmmReservationZero with state := .last } := List.mem_singleton.mp hmem
    have hused := hr.2
    rw [hlast] at hused
    cases hused

private theorem accepted_stepped_over : ∃ space,
    (metadataSystem 56 0x10000 0x1000000 0x50000).Reachable space ∧
    mmuIsBufferValid 56 0x1000FFF 2 pageRightsReadWrite (some (exampleProcess space)) =
      some (.reservation .success) ∧
    ¬ (exampleProcess space).ByteAllowed pageRightsReadWrite (ptrOffset 0x1000FFF 1) := by
  obtain ⟨space,hreach,hp⟩ := TransitionSystem.exists_reachable
    (metadataSystem 56 0x10000 0x1000000 0x50000) (fun _ _ => True) exampleSpace
    exampleProcess_init (reserveTwoCommit 0x1000)
    (fun space => decide (mmuIsBufferValid 56 0x1000FFF 2 pageRightsReadWrite
        (some (exampleProcess space)) = some (.reservation .success)) &&
      space.entries.all fun r => !r.commitBitmap.bits (0x1001 - r.startVa / pageSize))
    (TransitionSystem.runSatisfies_of_forall (fun _ _ => trivial) _ _) (by decide +kernel)
  have hp := Bool.and_eq_true_iff.mp hp
  refine ⟨space,hreach,of_decide_eq_true hp.1,?_⟩
  rintro ⟨_,hin | ⟨i,r,hr,_,_,hbit⟩⟩
  · have hbelow := hin.2
    simp only [exampleProcess,ptrOffset,qwordModulus] at hbelow
    omega
  · have hclear := List.all_eq_true.mp hp.2 r (List.mem_of_getElem? hr.1)
    have hpage : ptrOffset 0x1000FFF 1 / pageSize = 0x1001 := by
      simp [ptrOffset,qwordModulus,pageSize]
    rw [hpage,VmmReservation.IsCommitted] at hbit
    rw [hbit] at hclear
    cases hclear

/-- A buffer that starts on the last byte of the image and is 4 GB long is accepted, and so
is one of two bytes of which the second is on a page that is not committed. -/
theorem accepted_buffers_not_allowed :
    (mmuIsBufferValid 56 0x402FFF 0x100000000 pageRightsReadWrite
        (some (exampleProcess exampleSpace)) = some (.reservation .success) ∧
      ¬ (exampleProcess exampleSpace).ByteAllowed pageRightsReadWrite (ptrOffset 0x402FFF 1)) ∧
    ∃ space, (metadataSystem 56 0x10000 0x1000000 0x50000).Reachable space ∧
      mmuIsBufferValid 56 0x1000FFF 2 pageRightsReadWrite (some (exampleProcess space)) =
        some (.reservation .success) ∧
      ¬ (exampleProcess space).ByteAllowed pageRightsReadWrite (ptrOffset 0x1000FFF 1) :=
  ⟨accepted_behind_image,accepted_stepped_over⟩

end Hal9000
