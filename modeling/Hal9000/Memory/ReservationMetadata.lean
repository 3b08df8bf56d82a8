import Hal9000.Memory.ReservationHistory

/-!
# The two metadata areas

Entries are recycled, bitmap pages are not: a run that has made `n` reservations has used
`n` bitmap pages at least and `n` entries at most. The bitmap area therefore runs out
before the list reaches it, and how long a run can go on depends on all the reservations
it ever made.
-/

namespace Hal9000

/-- The pages the bitmap of a reservation is kept in. -/
def VmmReservation.bitmapPages (reservation : VmmReservation) : Set Nat :=
  Set.Ico reservation.commitBitmap.bitmapBuffer (reservation.commitBitmap.bitmapBuffer +
    alignAddressUpper reservation.commitBitmap.bufferSize pageSize)

/-- The part of the metadata that holds the list. -/
def reservationListSize (metadataSize : Nat) : Nat :=
  calculatePercentage metadataSize reservationListPercentageInHundreds

section Writes

variable (reservationSize : Nat)

/-- The entries `_VmFindFirstFreeReservation` writes: a sentinel it returns and the entry
behind it. -/
def firstFreeWrites (space : VmmReservationSpace) : Nat → List VmmReservation → List Nat
  | _, [] => []
  | index, reservation :: rest =>
    if ¬ space.entryAddress reservationSize index < space.bitmapAddressStart then []
    else match reservation.state with
      | .free => []
      | .last => [index,index + 1]
      | .used => firstFreeWrites space (index + 1) rest

/-- The entries a reservation of a range writes, up to the assertion that may stop it. -/
def reserveWrites (space : VmmReservationSpace) (range : Nat × Nat) : List Nat :=
  match vmFindReservation reservationSize space range.1 range.2 with
  | some none => firstFreeWrites reservationSize space 0 space.entries ++
      (vmFindFirstFreeReservation reservationSize space).toList.map (·.1)
  | _ => []

/-- The entries a call writes. Commits and decommits write bitmap buffers only. -/
def entryWrites (space : VmmReservationSpace) : ReservationCall → List Nat
  | .alloc request =>
    match allocRange space request.baseAddress request.size with
    | (some range, space) =>
      if request.allocType.reserve then reserveWrites reservationSize space range else []
    | (none, _) => []
  | .free address .release =>
    match vmFindReservation reservationSize space address 1 with
    | some (some index) => [index]
    | _ => []
  | .free _ (.decommit _) => []

/-- The entries stay below the bitmap area, the bitmaps stay in it and apart, and the
search reaches every live reservation. -/
structure MetadataApart (space : VmmReservationSpace) : Prop where
  /-- `VmReservationSpaceFinishInit` writes the first entry. -/
  first : space.entryAddress reservationSize 1 ≤ space.bitmapAddressStart
  writes : ∀ call, ∀ index ∈ entryWrites reservationSize space call,
    space.entryAddress reservationSize (index + 1) ≤ space.bitmapAddressStart
  bitmaps : ∀ i r, space.Live i r → r.bitmapPages ⊆
    Set.Ico space.bitmapAddressStart (space.reservationList + space.reservedAreaSize)
  apart : ∀ i j r r', space.Live i r → space.Live j r' → i ≠ j →
    Disjoint r.bitmapPages r'.bitmapPages
  closed : ∃ entries sentinel, space.entries = entries ++ [sentinel] ∧ sentinel.state = .last ∧
    ∀ i r, space.Live i r → i < entries.length
  reached : ∀ i r address size, space.Live i r → address ≠ 0 → size ≠ 0 →
    checkBounds address size r.startVa r.size = true →
    ∃ j, vmFindReservation reservationSize space address size = some (some j)

variable {reservationSize} {space : VmmReservationSpace}

private theorem firstFreeWrites_le {index k : Nat} {entries : List VmmReservation}
    (h : k ∈ firstFreeWrites reservationSize space index entries) :
    k ≤ index + entries.length := by
  induction entries generalizing index with
  | nil => simp [firstFreeWrites] at h
  | cons first rest ih =>
    rw [firstFreeWrites] at h
    split at h
    · cases h
    · split at h
      · cases h
      · rw [List.length_cons]
        simp only [List.mem_cons,List.not_mem_nil,or_false] at h
        omega
      · have hle := ih h
        rw [List.length_cons]
        omega

private theorem findFirstFreeFrom_length {index k : Nat} {entries entries' : List VmmReservation}
    (h : findFirstFreeFrom reservationSize space index entries = some (k,entries')) :
    k < index + entries.length ∧ entries'.length ≤ entries.length + 1 := by
  induction entries generalizing index entries' with
  | nil => simp [findFirstFreeFrom] at h
  | cons first rest ih =>
    rw [findFirstFreeFrom] at h
    split at h
    · cases h
    · split at h
      · obtain ⟨rfl,rfl⟩ := Prod.mk.inj (Option.some.inj h)
        simp
      · obtain ⟨rfl,rfl⟩ := Prod.mk.inj (Option.some.inj h)
        cases rest <;> simp [markLast]
      · obtain ⟨found,hfound,heq⟩ := Option.map_eq_some_iff.mp h
        obtain ⟨rfl,rfl⟩ := Prod.mk.inj heq
        have hle := ih hfound
        simp only [List.length_cons]
        omega

private theorem vmFindFirstFreeReservation_length {k : Nat} {found : VmmReservationSpace}
    (h : vmFindFirstFreeReservation reservationSize space = some (k,found)) :
    k < space.entries.length ∧ found.entries.length ≤ space.entries.length + 1 := by
  obtain ⟨result,hresult,heq⟩ := Option.map_eq_some_iff.mp h
  obtain ⟨rfl,rfl⟩ := Prod.mk.inj heq
  simpa using findFirstFreeFrom_length hresult

private theorem vmFindReservation_lt (hshape : ListShape reservationSize space)
    {address size k : Nat}
    (h : vmFindReservation reservationSize space address size = some (some k)) :
    k < space.entries.length := by
  obtain ⟨r,hr,_⟩ := (vmFindReservation_spec hshape h).1 k rfl
  exact (List.getElem?_eq_some_iff.mp hr.1).1

theorem entryWrites_le (hshape : ListShape reservationSize space) {call : ReservationCall}
    {index : Nat} (h : index ∈ entryWrites reservationSize space call) :
    index ≤ space.entries.length := by
  cases call with
  | alloc request =>
    have hsame := (allocRange_same space request.baseAddress request.size).1
    rw [entryWrites] at h
    generalize allocRange space request.baseAddress request.size = moved at h hsame
    obtain ⟨range,moved⟩ := moved
    cases range with
    | none => cases h
    | some range =>
      simp only at h hsame
      split at h
      · rw [← hsame]
        rw [reserveWrites] at h
        split at h
        · rcases List.mem_append.mp h with h | h
          · simpa using firstFreeWrites_le h
          · obtain ⟨found,hfound,rfl⟩ := List.mem_map.mp h
            rw [Option.mem_toList] at hfound
            exact (vmFindFirstFreeReservation_length hfound).1.le
        · cases h
      · cases h
  | free address freeType =>
    cases freeType with
    | release =>
      rw [entryWrites] at h
      split at h
      · rename_i k hfound
        rw [List.mem_singleton.mp h]
        exact (vmFindReservation_lt hshape hfound).le
      · cases h
    | decommit size => cases h

end Writes

/-- The bitmap bytes an event takes; none is ever given back. -/
def PageEvent.bitmapBytes : PageEvent → Nat
  | .reserve range _ _ _ => Hal9000.bitmapBytes range.2
  | _ => 0

/-- The bitmap bytes of all reservations of a history, the released ones included. -/
def bitmapTotal (history : List PageEvent) : Nat := (history.map PageEvent.bitmapBytes).sum

@[simp] theorem bitmapTotal_append (history : List PageEvent) (event : PageEvent) :
    bitmapTotal (history ++ [event]) = bitmapTotal history + event.bitmapBytes := by
  simp [bitmapTotal]

theorem bitmapBytes_eq {base size : Nat} (h : ReserveArguments base size) :
    bitmapBytes size = ((size / pageSize + 7) / 8 + 4095) / 4096 * 4096 := by
  have hpages := h.pages_le
  have hmod : ((size / pageSize + 7) / 8 + (pageSize - 1)) % qwordModulus =
      (size / pageSize + 7) / 8 + 4095 := by
    apply Nat.mod_eq_of_lt
    rw [show pageSize - 1 = 4095 from rfl]
    have hmax : (size / pageSize + 7) / 8 ≤ maxDword := by
      unfold maxDword at hpages ⊢
      omega
    calc (size / pageSize + 7) / 8 + 4095 ≤ maxDword + 4095 := Nat.add_le_add_right hmax 4095
      _ < qwordModulus := by decide
  simp only [bitmapBytes,bitmapPreinit,alignAddressUpper,hmod,alignAddressLower]
  rfl

theorem pageSize_le_bitmapBytes {base size : Nat} (h : ReserveArguments base size) :
    pageSize ≤ bitmapBytes size ∧ bitmapBytes size % pageSize = 0 := by
  have hsize := h.size_ne_zero
  have haligned := h.size_aligned
  rw [bitmapBytes_eq h]
  unfold pageSize at haligned ⊢
  omega

section Area

variable {reservationSize : Nat}

/-- Where the metadata lies, how much of it a history has used and what the live
reservations hold of it. -/
structure MetadataInv (metadataBase metadataSize : Nat) (history : List PageEvent)
    (space : VmmReservationSpace) : Prop where
  list : space.reservationList = metadataBase
  area : space.reservedAreaSize = metadataSize
  start : space.bitmapAddressStart = metadataBase + reservationListSize metadataSize
  free : space.freeBitmapAddress = space.bitmapAddressStart + bitmapTotal history
  used : bitmapTotal history ≤ metadataSize - reservationListSize metadataSize
  base_aligned : metadataBase % pageSize = 0
  total_aligned : bitmapTotal history % pageSize = 0
  slots : space.entries.length * pageSize ≤ bitmapTotal history + pageSize
  bitmaps : ∀ i r, space.Live i r → space.bitmapAddressStart ≤ r.commitBitmap.bitmapBuffer ∧
    r.commitBitmap.bitmapBuffer + alignAddressUpper r.commitBitmap.bufferSize pageSize ≤
      space.freeBitmapAddress
  apart : ∀ i j r r', space.Live i r → space.Live j r' → i ≠ j →
    Disjoint r.bitmapPages r'.bitmapPages

variable {metadataBase metadataSize : Nat} {history : List PageEvent}
variable {space space' : VmmReservationSpace}

theorem reservationListSize_le (metadataSize : Nat) :
    reservationListSize metadataSize ≤ metadataSize := by
  unfold reservationListSize calculatePercentage reservationListPercentageInHundreds
  omega

private theorem MetadataInv.of_live (h : MetadataInv metadataBase metadataSize history space)
    (hlist : space'.reservationList = space.reservationList)
    (harea : space'.reservedAreaSize = space.reservedAreaSize)
    (hstart : space'.bitmapAddressStart = space.bitmapAddressStart)
    (hfree : space'.freeBitmapAddress = space.freeBitmapAddress)
    (hlength : space'.entries.length = space.entries.length)
    {history' : List PageEvent} (htotal : bitmapTotal history' = bitmapTotal history)
    (hlive : ∀ i r', space'.Live i r' → ∃ r, space.Live i r ∧
      r'.commitBitmap.bitmapBuffer = r.commitBitmap.bitmapBuffer ∧
      r'.commitBitmap.bufferSize = r.commitBitmap.bufferSize) :
    MetadataInv metadataBase metadataSize history' space' where
  list := hlist.trans h.list
  area := harea.trans h.area
  start := hstart.trans h.start
  free := by rw [hfree,hstart,htotal,h.free]
  used := htotal ▸ h.used
  base_aligned := h.base_aligned
  total_aligned := htotal ▸ h.total_aligned
  slots := by rw [hlength,htotal]; exact h.slots
  bitmaps := by
    intro i r' hr'
    have hr := hlive i r' hr'
    cases hr with
    | intro r hr =>
      rw [hr.2.1,hr.2.2,hstart,hfree]
      exact h.bitmaps i r hr.1
  apart := by
    intro i j ri' rj' hi' hj' hij
    obtain ⟨ri,hi,hibuffer,hisize⟩ := hlive i ri' hi'
    obtain ⟨rj,hj,hjbuffer,hjsize⟩ := hlive j rj' hj'
    unfold VmmReservation.bitmapPages
    rw [hibuffer,hisize,hjbuffer,hjsize]
    exact h.apart i j ri rj hi hj hij

private theorem MetadataInv.reserve (h : MetadataInv metadataBase metadataSize history space)
    (hshape : ListShape reservationSize space) (hfits : metadataBase + metadataSize < qwordModulus)
    {range : Nat × Nat} {rights : PageRights} {uncacheable : Bool} {file : Option Nat}
    (hevent : Effect reservationSize space (.reserve range rights uncacheable file) space') :
    MetadataInv metadataBase metadataSize (history ++ [.reserve range rights uncacheable file])
      space' := by
  obtain ⟨k,hargs,_,_,hlive⟩ := hevent.live_reserve hshape
  have hpage := pageSize_le_bitmapBytes hargs
  have hle := reservationListSize_le metadataSize
  have hfree := h.free
  have hstart := h.start
  cases hevent with
  | @reserve _ _ _ _ _ found _ _ hfound _ hbounds =>
    rw [checkBounds_eq_true,h.list,h.area] at hbounds
    have hlength : found.entries.length ≤ space.entries.length + 1 :=
      (vmFindFirstFreeReservation_length hfound).2
    have hoffset : ptrOffset space.freeBitmapAddress (bitmapBytes range.2) =
        space.freeBitmapAddress + bitmapBytes range.2 := by
      apply Nat.mod_eq_of_lt
      omega
    have hbuffer : ∀ i r, space.Live i r → Disjoint (newReservation space range rights uncacheable
        file).bitmapPages r.bitmapPages := by
      intro i r hr
      have hbelow := (h.bitmaps i r hr).2
      rw [Set.disjoint_left]
      intro address haddress haddress'
      have hlow : space.freeBitmapAddress ≤ address := haddress.1
      have hhigh := haddress'.2
      omega
    constructor
    · exact h.list
    · exact h.area
    · exact hstart
    · simp only [hoffset,bitmapTotal_append,PageEvent.bitmapBytes]
      omega
    · simp only [bitmapTotal_append,PageEvent.bitmapBytes]
      omega
    · exact h.base_aligned
    · rw [bitmapTotal_append,PageEvent.bitmapBytes,Nat.add_mod,h.total_aligned,hpage.2,Nat.add_zero,
        Nat.zero_mod]
    · have hslots := h.slots
      have hgrown := Nat.mul_le_mul_right pageSize hlength
      simp only [bitmapTotal_append,PageEvent.bitmapBytes,List.length_set]
      rw [Nat.add_mul,Nat.one_mul] at hgrown
      omega
    · intro i r hr
      simp only [hoffset]
      rcases (hlive i r).mp hr with ⟨_,rfl⟩ | ⟨_,hr⟩
      · have hself : (newReservation space range rights uncacheable file).commitBitmap.bitmapBuffer =
            space.freeBitmapAddress := rfl
        rw [hself]
        constructor
        · omega
        · exact le_refl _
      · have hold := h.bitmaps i r hr
        constructor
        · exact hold.1
        · omega
    · intro i j ri rj hi hj hij
      rcases (hlive i ri).mp hi with ⟨hik,rfl⟩ | ⟨hik,hi⟩
      · rcases (hlive j rj).mp hj with ⟨hjk,_⟩ | ⟨_,hj⟩
        · exact absurd (hik.trans hjk.symm) hij
        · exact hbuffer j rj hj
      · rcases (hlive j rj).mp hj with ⟨_,rfl⟩ | ⟨_,hj⟩
        · exact (hbuffer i ri hi).symm
        · exact h.apart i j ri rj hi hj hij

private theorem MetadataInv.set (h : MetadataInv metadataBase metadataSize history space) {k : Nat}
    {new : VmmReservation} {event : PageEvent} (hevent : event.bitmapBytes = 0)
    (hlive : ∀ i r', VmmReservationSpace.Live { space with entries := space.entries.set k new } i r'
      → ∃ r, space.Live i r ∧ r'.commitBitmap.bitmapBuffer = r.commitBitmap.bitmapBuffer ∧
        r'.commitBitmap.bufferSize = r.commitBitmap.bufferSize) :
    MetadataInv metadataBase metadataSize (history ++ [event])
      { space with entries := space.entries.set k new } := by
  have htotal : bitmapTotal (history ++ [event]) = bitmapTotal history := by
    rw [bitmapTotal_append,hevent,Nat.add_zero]
  exact h.of_live (by rfl) (by rfl) (by rfl) (by rfl) (by simp) htotal hlive

private theorem live_set_bits {k : Nat} {old : VmmReservation} (hlive : space.Live k old)
    (bits : Nat → Bool) (i : Nat) (r' : VmmReservation)
    (h : VmmReservationSpace.Live { space with
      entries := space.entries.set k
        { old with commitBitmap := { old.commitBitmap with bits := bits } } } i r') :
    ∃ r, space.Live i r ∧ r'.commitBitmap.bitmapBuffer = r.commitBitmap.bitmapBuffer ∧
      r'.commitBitmap.bufferSize = r.commitBitmap.bufferSize := by
  have hused : ({ old with commitBitmap := { old.commitBitmap with bits := bits } } :
      VmmReservation).state = .used := hlive.2
  rcases (live_rewrite hlive hused rfl i r').mp h with ⟨rfl,rfl⟩ | ⟨_,hr'⟩
  · exact ⟨old,hlive,rfl,rfl⟩
  · exact ⟨r',hr',rfl,rfl⟩

private theorem MetadataInv.step (h : MetadataInv metadataBase metadataSize history space)
    (hshape : ListShape reservationSize space) (hfits : metadataBase + metadataSize < qwordModulus)
    {event : PageEvent} (hevent : Effect reservationSize space event space') :
    MetadataInv metadataBase metadataSize (history ++ [event]) space' := by
  cases hevent with
  | reserve hargs hnew hfound haligned hbounds =>
    exact h.reserve hshape hfits (.reserve hargs hnew hfound haligned hbounds)
  | commit hlive hin hinterval => exact h.set rfl (live_set_bits hlive _)
  | decommit hlive hin hbase hinterval => exact h.set rfl (live_set_bits hlive _)
  | release hlive =>
    apply h.set rfl
    intro i r' hr'
    exact ⟨r',((live_release hlive rfl i r').mp hr').2,rfl,rfl⟩

private theorem metadataInv_init {reservationBase : Nat} {created : VmmReservationSpace}
    (hfits : metadataBase + metadataSize < qwordModulus)
    (h : vmReservationSpaceInit metadataBase reservationBase metadataSize = some created) :
    MetadataInv metadataBase metadataSize [] (vmReservationSpaceFinishInit created) := by
  have hle := reservationListSize_le metadataSize
  have hstart : ptrOffset metadataBase (reservationListSize metadataSize) =
      metadataBase + reservationListSize metadataSize := by
    apply Nat.mod_eq_of_lt
    omega
  have hnone := not_live_finishInit created
  simp only [vmReservationSpaceInit,Option.bind_eq_bind,Option.bind_eq_some_iff,Option.pure_def,
    Option.some.injEq] at h
  obtain ⟨_,_,_,haligned,_,_,hcreated⟩ := h
  have hstart' : created.bitmapAddressStart =
      metadataBase + reservationListSize metadataSize := by
    rw [← hcreated]
    exact hstart
  constructor
  · rw [← hcreated]
    rfl
  · rw [← hcreated]
    rfl
  · exact hstart'
  · rw [← hcreated]
    rfl
  · exact Nat.zero_le _
  · simpa [isAddressAligned] using haligned
  · rfl
  · simp [vmReservationSpaceFinishInit]
  · exact fun i r hr => absurd hr (hnone i r)
  · exact fun i j r r' hr => absurd hr (hnone i r)

private theorem metadata_inv {reservationBase : Nat}
    {p : VmmReservationSpace × List PageEvent}
    (hfits : metadataBase + metadataSize < qwordModulus)
    (h : ((metadataSystem reservationSize metadataBase reservationBase metadataSize).recording
      (pageEvents reservationSize)).Reachable p) :
    ListShape reservationSize p.1 ∧ MetadataInv metadataBase metadataSize p.2 p.1 := by
  obtain ⟨space,history⟩ := p
  obtain ⟨created,hcreated,hshape,heffects⟩ := reachable_effects h
  refine ⟨hshape,?_⟩
  clear h hshape
  simp only at heffects ⊢
  induction heffects with
  | refl => exact metadataInv_init hfits hcreated
  | move _ _ ih =>
    exact ih.of_live (by rfl) (by rfl) (by rfl) (by rfl) (by rfl) rfl
      fun i r hr => ⟨r,hr,rfl,rfl⟩
  | step h hevent ih => exact ih.step (h.shape ⟨[],_,rfl,rfl,trivial⟩) hfits hevent

private theorem MetadataInv.list_fits (h : MetadataInv metadataBase metadataSize history space)
    (hsize : pageSize ≤ metadataSize) (hentry : reservationSize ≤ 256) :
    (space.entries.length + 1) * reservationSize ≤ reservationListSize metadataSize := by
  have hused := h.used
  have hslots := h.slots
  have hle : (space.entries.length + 1) * reservationSize ≤ (space.entries.length + 1) * 256 :=
    Nat.mul_le_mul_left _ hentry
  unfold reservationListSize calculatePercentage reservationListPercentageInHundreds at hused ⊢
  unfold pageSize at hsize hslots
  omega

/-- In every run, and for the call after it even if that fails an assertion, the metadata
areas stay apart. -/
theorem metadata_areas_apart {reservationBase : Nat} (hsize : pageSize ≤ metadataSize)
    (hfits : metadataBase + metadataSize < qwordModulus) (hentry : reservationSize ≤ 256)
    (h : (metadataSystem reservationSize metadataBase reservationBase metadataSize).Reachable
      space) : MetadataApart reservationSize space := by
  obtain ⟨history,hrecorded⟩ :=
    TransitionSystem.ReachableUnder.exists_recording (pageEvents reservationSize) h
  have hshape : ListShape reservationSize space := (metadata_inv hfits hrecorded).1
  have hinv : MetadataInv metadataBase metadataSize history space :=
    (metadata_inv hfits hrecorded).2
  have hlist := hinv.list_fits hsize hentry
  have hbelow (index : Nat) (hindex : index ≤ space.entries.length) :
      space.entryAddress reservationSize (index + 1) ≤ space.bitmapAddressStart := by
    have hmul := Nat.mul_le_mul_right reservationSize (Nat.add_le_add_right hindex 1)
    rw [VmmReservationSpace.entryAddress,hinv.list,hinv.start]
    omega
  constructor
  · exact hbelow 0 (Nat.zero_le _)
  · intro call index hindex
    exact hbelow index (entryWrites_le hshape hindex)
  · intro i r hr address haddress
    have hbitmap := hinv.bitmaps i r hr
    have hfree := hinv.free
    have hused := hinv.used
    have hstart := hinv.start
    have hle := reservationListSize_le metadataSize
    have hlow : r.commitBitmap.bitmapBuffer ≤ address := haddress.1
    have hhigh := haddress.2
    rw [Set.mem_Ico,hinv.list,hinv.area]
    omega
  · exact hinv.apart
  · obtain ⟨entries,sentinel,hentries,hlast,_⟩ := hshape
    refine ⟨entries,sentinel,hentries,hlast,?_⟩
    intro i r hr
    by_contra hge
    have hentry := hr.1
    rw [hentries,List.getElem?_append_right (by omega)] at hentry
    have hmem := List.mem_of_getElem? hentry
    rw [List.mem_singleton] at hmem
    rw [← hmem,hr.2] at hlast
    cases hlast
  · intro i r address size hr haddress hsize hin
    cases hfound : vmFindReservation reservationSize space address size with
    | none => simp [vmFindReservation,haddress,hsize] at hfound
    | some found =>
      cases found with
      | none =>
        have hmissed := (vmFindReservation_spec hshape hfound).2 rfl i r hr
        rw [hin] at hmissed
        cases hmissed
      | some j => exact ⟨j,rfl⟩

private theorem exampleMetadata_init :
    (metadataSystem 56 0x10000 0x1000000 0x50000).init exampleSpace := ⟨_,rfl,rfl⟩

/-- Two reservations, the first of them released. -/
theorem metadata_areas_apart_two : ∃ space : VmmReservationSpace,
    (metadataSystem 56 0x10000 0x1000000 0x50000).Reachable space ∧
    space.listing = [(0,0,.free),(0x1003000,0x1000,.used),(0,0,.last)] ∧
    MetadataApart 56 space := by
  obtain ⟨space,hreach,hlisting⟩ := TransitionSystem.exists_reachable
    (metadataSystem 56 0x10000 0x1000000 0x50000) (fun _ _ => True) exampleSpace
    exampleMetadata_init
    [reserveCall 0 0x3000,reserveCall 0 0x1000,.free 0x1000000 .release]
    (fun space => decide (space.listing =
      [(0,0,.free),(0x1003000,0x1000,.used),(0,0,.last)]))
    (TransitionSystem.runSatisfies_of_forall (fun _ _ => trivial) _ _) (by decide +kernel)
  exact ⟨space,hreach,of_decide_eq_true hlisting,
    metadata_areas_apart (by decide) (by decide) (by decide) hreach⟩

private theorem findFirstFreeFrom_isSome {index : Nat} {live : List VmmReservation}
    {sentinel : VmmReservation} (hl : Located reservationSize space index live)
    (hs : sentinel.state = .last)
    (haddress : space.entryAddress reservationSize (index + live.length) <
      space.bitmapAddressStart) :
    (findFirstFreeFrom reservationSize space index (live ++ [sentinel])).isSome = true := by
  induction live generalizing index with
  | nil =>
    rw [List.length_nil,Nat.add_zero] at haddress
    simp [findFirstFreeFrom,haddress,hs]
  | cons first rest ih =>
    rw [List.cons_append,findFirstFreeFrom,if_neg (not_not.mpr hl.1.2)]
    cases hstate : first.state with
    | free => rfl
    | last => exact absurd hstate hl.1.1
    | used =>
      simp only [Option.isSome_map]
      apply ih hl.2
      rw [List.length_cons] at haddress
      rwa [Nat.add_right_comm,Nat.add_assoc]

private theorem MetadataInv.free_entry (h : MetadataInv metadataBase metadataSize history space)
    (hshape : ListShape reservationSize space) (hsize : pageSize ≤ metadataSize)
    (hentry : reservationSize ≤ 256) :
    ∃ k found, vmFindFirstFreeReservation reservationSize space = some (k,found) := by
  have hlist := h.list_fits hsize hentry
  have hpositive : 0 < reservationListSize metadataSize := by
    unfold reservationListSize calculatePercentage reservationListPercentageInHundreds
    unfold pageSize at hsize
    omega
  obtain ⟨live,sentinel,hentries,hs,hl⟩ := hshape
  have hsentinel : space.entryAddress reservationSize (0 + live.length) <
      space.bitmapAddressStart := by
    rw [VmmReservationSpace.entryAddress,h.list,h.start,Nat.zero_add]
    rw [hentries,List.length_append,List.length_singleton,Nat.add_mul,Nat.add_mul] at hlist
    rcases Nat.eq_zero_or_pos reservationSize with hzero | hpos
    · rw [hzero,Nat.mul_zero]
      omega
    · omega
  have hsome := findFirstFreeFrom_isSome hl hs hsentinel
  rw [← hentries] at hsome
  obtain ⟨result,hresult⟩ := Option.isSome_iff_exists.mp hsome
  exact ⟨result.1,{ space with entries := result.2 },by
    rw [vmFindFirstFreeReservation,hresult,Option.map_some]⟩

/-- A reservation of a range that is not reserved comes through its assertions exactly if
the bitmaps of all reservations ever made leave room for one more in the bitmap area; a free
entry is always found. -/
theorem reserve_sustained_iff {reservationBase : Nat} (hsize : pageSize ≤ metadataSize)
    (hlist : reservationListSize metadataSize % pageSize = 0)
    (hfits : metadataBase + metadataSize < qwordModulus) (hentry : reservationSize ≤ 256)
    (h : ((metadataSystem reservationSize metadataBase reservationBase metadataSize).recording
      (pageEvents reservationSize)).Reachable (space,history)) {base size : Nat}
    (hargs : ReserveArguments base size)
    (hnew : vmFindReservation reservationSize space base size = some none) (rights : PageRights)
    (uncacheable : Bool) (file : Option Nat) :
    (vmFindFirstFreeReservation reservationSize space).isSome = true ∧
    ((vmChangeVaReservationState reservationSize space base size .reserve rights uncacheable
        file).isSome = true ↔
      bitmapTotal history + bitmapBytes size ≤
        metadataSize - reservationListSize metadataSize) := by
  have hshape : ListShape reservationSize space := (metadata_inv hfits h).1
  have hinv : MetadataInv metadataBase metadataSize history space := (metadata_inv hfits h).2
  obtain ⟨k,found,hfound⟩ := hinv.free_entry hshape hsize hentry
  refine ⟨by rw [hfound]; rfl,?_⟩
  have hfree := hinv.free
  have hstart := hinv.start
  have haligned : found.freeBitmapAddress % pageSize = 0 := by
    rw [(vmFindFirstFreeReservation_spec hshape hfound).2.2.2.2]
    simp only [hfree,hstart]
    have hbase := hinv.base_aligned
    have htotal := hinv.total_aligned
    unfold pageSize at hlist hbase htotal ⊢
    omega
  have hbounds : checkBounds found.freeBitmapAddress (bitmapBytes size) found.reservationList
      found.reservedAreaSize = true ↔
        bitmapTotal history + bitmapBytes size ≤
          metadataSize - reservationListSize metadataSize := by
    rw [(vmFindFirstFreeReservation_spec hshape hfound).2.2.2.2]
    have hle := reservationListSize_le metadataSize
    simp only [checkBounds_eq_true,hfree,hstart,hinv.list,hinv.area]
    omega
  have hasserts : assert (base != 0) = some () ∧ assert (size != 0) = some () ∧
      assert (isAddressAligned base pageSize) = some () ∧
      assert (isAddressAligned size pageSize) = some () := by
    simp [isAddressAligned,hargs.base_ne_zero,hargs.size_ne_zero,hargs.base_aligned,
      hargs.size_aligned]
  have hinit : (vmInitializeReservation found base size rights uncacheable file k).isSome = true ↔
      checkBounds found.freeBitmapAddress (bitmapBytes size) found.reservationList
        found.reservedAreaSize = true := by
    rw [Option.isSome_iff_exists]
    simp only [vmInitializeReservation_eq_some]
    constructor
    · rintro ⟨_,_,_,hin,_⟩
      exact hin
    · intro hin
      exact ⟨_,hargs,haligned,hin,rfl⟩
  rw [← hbounds,← hinit]
  simp only [vmChangeVaReservationState,hasserts.1,hasserts.2.1,hasserts.2.2.1,hasserts.2.2.2,hnew,
    hfound,Option.bind_eq_bind,Option.bind_some]
  cases vmInitializeReservation found base size rights uncacheable file k <;> simp

private theorem exampleRecording_init :
    ((metadataSystem 56 0x10000 0x1000000 0x50000).recording (pageEvents 56)).init
      (exampleSpace,[]) := ⟨exampleMetadata_init,rfl⟩

/-- One page released again, with 63 of the 64 bitmap pages left for the next one. -/
theorem reserve_sustained_after_release : ∃ space history,
    ((metadataSystem 56 0x10000 0x1000000 0x50000).recording (pageEvents 56)).Reachable
      (space,history) ∧
    bitmapTotal history = 0x1000 ∧ space.listing = [(0,0,.free),(0,0,.last)] ∧
    (vmChangeVaReservationState 56 space 0x1001000 0x1000 .reserve pageRightsReadWrite false
      none).isSome = true := by
  obtain ⟨⟨space,history⟩,hreach,hp⟩ := TransitionSystem.exists_reachable
    ((metadataSystem 56 0x10000 0x1000000 0x50000).recording (pageEvents 56)) (fun _ _ => True)
    (exampleSpace,[]) exampleRecording_init [reserveCall 0 0x1000,.free 0x1000000 .release]
    (fun p => decide (bitmapTotal p.2 = 0x1000) &&
      decide (p.1.listing = [(0,0,.free),(0,0,.last)]) &&
      decide (vmFindReservation 56 p.1 0x1001000 0x1000 = some none))
    (TransitionSystem.runSatisfies_of_forall (fun _ _ => trivial) _ _) (by decide +kernel)
  simp only [Bool.and_eq_true,decide_eq_true_eq] at hp
  have hargs : ReserveArguments 0x1001000 0x1000 :=
    ⟨by decide,by decide,by decide,by decide,by decide⟩
  have hiff := (reserve_sustained_iff (by decide) (by decide) (by decide) (by decide) hreach hargs
    hp.2 pageRightsReadWrite false none).2
  exact ⟨space,history,hreach,hp.1.1,hp.1.2,hiff.mpr (by rw [hp.1.1]; decide)⟩

/-- The bitmap bytes of the reservations in use. -/
def liveBitmapBytes (space : VmmReservationSpace) : Nat :=
  ((space.entries.filter (·.state == .used)).map fun r => bitmapBytes r.size).sum

/-- The reservations in use and the one a call makes fit in the metadata. -/
def LiveFits (reservationSize : Nat) (space : VmmReservationSpace) : ReservationCall → Prop
  | .alloc request => ∀ range ∈ (allocRange space request.baseAddress request.size).1,
      space.bitmapAddressStart + (liveBitmapBytes space + bitmapBytes range.2) ≤
        space.reservationList + space.reservedAreaSize ∧
      space.entryAddress reservationSize ((space.entries.filter (·.state == .used)).length + 2) ≤
        space.bitmapAddressStart
  | .free _ _ => True

instance (reservationSize : Nat) (space : VmmReservationSpace) :
    ∀ call, Decidable (LiveFits reservationSize space call)
  | .alloc request => inferInstanceAs (Decidable (∀ range ∈
      (allocRange space request.baseAddress request.size).1, _))
  | .free _ _ => .isTrue trivial

/-- One page reserved and released 64 times: no more than one reservation is ever live, and
the next call halts the system. -/
theorem alternation_uses_up_bitmaps : ∃ space : VmmReservationSpace,
    (metadataSystem 56 0x10000 0x1000000 0x50000).ReachableUnder (LiveFits 56) space ∧
    space.listing = [(0,0,.free),(0,0,.last)] ∧ LiveFits 56 space (reserveCall 0 0x1000) ∧
    (metadataSystem 56 0x10000 0x1000000 0x50000).step space (reserveCall 0 0x1000) = none := by
  obtain ⟨space,hreach,hp⟩ := TransitionSystem.exists_reachable
    (metadataSystem 56 0x10000 0x1000000 0x50000) (LiveFits 56) exampleSpace exampleMetadata_init
    ((List.range 64).flatMap fun i =>
      [reserveCall 0 0x1000,.free (0x1000000 + i * 0x1000) .release])
    (fun space => decide (space.listing = [(0,0,.free),(0,0,.last)]) &&
      decide (LiveFits 56 space (reserveCall 0 0x1000)) &&
      ((metadataSystem 56 0x10000 0x1000000 0x50000).step space (reserveCall 0 0x1000)).isNone)
    (by decide +kernel) (by decide +kernel)
  simp only [Bool.and_eq_true,decide_eq_true_eq,Option.isNone_iff_eq_none] at hp
  exact ⟨space,hreach,hp.1.1,hp.1.2,hp.2⟩

end Area

end Hal9000
