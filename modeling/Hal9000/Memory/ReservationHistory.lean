import Hal9000.Framework.PastTime
import Hal9000.Memory.ReservationDisjoint

/-!
# Histories of a reservation space

Every call amounts to a few page events: a range is reserved, committed, decommitted or
released. What one event does to the list is said once, and a run of calls is a run of
its events.
-/

namespace Hal9000

/-- The aligned ranges are those the calls report. -/
inductive PageEvent
  | reserve (range : Nat × Nat) (rights : PageRights) (uncacheable : Bool)
      (backingFile : Option Nat)
  | commit (range : Nat × Nat)
  | decommit (range : Nat × Nat)
  | release (range : Nat × Nat)
  deriving DecidableEq

section Events

variable (reservationSize : Nat)

/-- The events of a call that succeeds. -/
def pageEvents (space : VmmReservationSpace) : ReservationCall → List PageEvent
  | .alloc request =>
    match vmReservationSpaceAllocRegion reservationSize space request with
    | some (.success, some range, _) =>
      (if request.allocType.reserve then
        [.reserve range request.rights request.uncacheable request.fileObject] else []) ++
      (if request.allocType.commit then [.commit range] else [])
    | _ => []
  | .free address .release =>
    match vmReservationSpaceFreeRegion reservationSize space address .release with
    | some (range, _) => [.release range]
    | none => []
  | .free address (.decommit size) =>
    match vmReservationSpaceFreeRegion reservationSize space address (.decommit size) with
    | some (range, _) => [.decommit range]
    | none => []

/-- A reservation space with its metadata at a given place. -/
def metadataSystem (metadataBaseAddress reservationBaseAddress metadataSize : Nat) :
    TransitionSystem VmmReservationSpace ReservationCall where
  init space := ∃ created, vmReservationSpaceInit metadataBaseAddress reservationBaseAddress
    metadataSize = some created ∧ space = vmReservationSpaceFinishInit created
  step := (reservationSystem reservationSize).step

end Events

/-- The arguments pass the assertions of `_VmInitializeReservation`. -/
structure ReserveArguments (base size : Nat) : Prop where
  base_ne_zero : base ≠ 0
  size_ne_zero : size ≠ 0
  base_aligned : base % pageSize = 0
  size_aligned : size % pageSize = 0
  pages_le : size / pageSize ≤ maxDword

/-- The bitmap area is handed out in whole pages. -/
def bitmapBytes (size : Nat) : Nat :=
  alignAddressUpper (bitmapPreinit (size / pageSize)).bufferSize pageSize

/-- The entry of a new reservation, none of it committed. -/
def newReservation (space : VmmReservationSpace) (range : Nat × Nat) (rights : PageRights)
    (uncacheable : Bool) (backingFile : Option Nat) : VmmReservation where
  startVa := range.1
  size := range.2
  pageRights := rights
  state := .used
  uncacheable := uncacheable
  backingFile := backingFile
  commitBitmap := bitmapInit (bitmapPreinit (range.2 / pageSize)) space.freeBitmapAddress

theorem vmInitializeReservation_eq_some {space space' : VmmReservationSpace} {base size k : Nat}
    {rights : PageRights} {uncacheable : Bool} {file : Option Nat} :
    vmInitializeReservation space base size rights uncacheable file k = some space' ↔
      ReserveArguments base size ∧ space.freeBitmapAddress % pageSize = 0 ∧
      checkBounds space.freeBitmapAddress (bitmapBytes size) space.reservationList
        space.reservedAreaSize = true ∧
      space' = { space with
        entries := space.entries.set k (newReservation space (base,size) rights uncacheable file)
        freeBitmapAddress := ptrOffset space.freeBitmapAddress (bitmapBytes size) } := by
  simp only [vmInitializeReservation,Option.bind_eq_bind,Option.bind_eq_some_iff,Option.pure_def,
    Option.some.injEq,assert_eq_some,bne_iff_ne,isAddressAligned,beq_iff_eq,decide_eq_true_eq]
  constructor
  · rintro ⟨_,hbase,_,hsize,_,hbaseAligned,_,hsizeAligned,_,hpages,_,_,_,hfree,_,hbounds,rfl⟩
    exact ⟨⟨hbase,hsize,hbaseAligned,hsizeAligned,hpages⟩,hfree,hbounds,rfl⟩
  · rintro ⟨hargs,hfree,hbounds,rfl⟩
    have hpages : 0 < size / pageSize := by
      have hsize := hargs.size_ne_zero
      have haligned := hargs.size_aligned
      unfold pageSize at haligned ⊢
      omega
    have hbuffer : (bitmapPreinit (size / pageSize)).bufferSize ≠ 0 := by
      simp only [bitmapPreinit]
      omega
    exact ⟨(),hargs.base_ne_zero,(),hargs.size_ne_zero,(),hargs.base_aligned,(),
      hargs.size_aligned,(),hargs.pages_le,(),hbuffer,(),hfree,(),hbounds,rfl⟩

section Effects

variable (reservationSize : Nat)

/-- What one event does to the space. -/
inductive Effect (space : VmmReservationSpace) : PageEvent → VmmReservationSpace → Prop
  | reserve {range : Nat × Nat} {rights : PageRights} {uncacheable : Bool} {file : Option Nat}
      {k : Nat} {found : VmmReservationSpace}
      (hargs : ReserveArguments range.1 range.2)
      (hnew : ∀ i r, space.Live i r → checkBounds range.1 range.2 r.startVa r.size = false)
      (hfound : vmFindFirstFreeReservation reservationSize space = some (k,found))
      (haligned : space.freeBitmapAddress % pageSize = 0)
      (hfits : checkBounds space.freeBitmapAddress (bitmapBytes range.2) space.reservationList
        space.reservedAreaSize = true) :
      Effect space (.reserve range rights uncacheable file) { space with
        entries := found.entries.set k (newReservation space range rights uncacheable file)
        freeBitmapAddress := ptrOffset space.freeBitmapAddress (bitmapBytes range.2) }
  | commit {range interval : Nat × Nat} {k : Nat} {r : VmmReservation} (hlive : space.Live k r)
      (hin : checkBounds range.1 range.2 r.startVa r.size = true)
      (hinterval : pageInterval range.1 range.2 r = some interval) :
      Effect space (.commit range) { space with
        entries := space.entries.set k
          { r with commitBitmap := bitmapSetBits r.commitBitmap interval.1 interval.2 } }
  | decommit {range interval : Nat × Nat} {address k : Nat} {r : VmmReservation}
      (hlive : space.Live k r) (hin : checkBounds address 1 r.startVa r.size = true)
      (hbase : range.1 = alignAddressLower address pageSize)
      (hinterval : pageInterval range.1 range.2 r = some interval) :
      Effect space (.decommit range) { space with
        entries := space.entries.set k
          { r with commitBitmap := bitmapClearBits r.commitBitmap interval.1 interval.2 } }
  | release {k : Nat} {r : VmmReservation} (hlive : space.Live k r) :
      Effect space (.release (r.startVa,r.size))
        { space with entries := space.entries.set k vmmReservationZero }

/-- A run of events; the bump pointer for addresses may move at any time. -/
inductive Effects (start : VmmReservationSpace) : List PageEvent → VmmReservationSpace → Prop
  | refl : Effects start [] start
  | move {history : List PageEvent} {space : VmmReservationSpace} (h : Effects start history space)
      (pointer : Nat) : Effects start history { space with freeVirtualAddressPointer := pointer }
  | step {history : List PageEvent} {space space' : VmmReservationSpace} {event : PageEvent}
      (h : Effects start history space) (hevent : Effect reservationSize space event space') :
      Effects start (history ++ [event]) space'

/-- The event of a flag, and nothing without it. -/
def FlaggedEffect (flag : Bool) (space : VmmReservationSpace) (event : PageEvent)
    (space' : VmmReservationSpace) : Prop :=
  match flag with
  | true => Effect reservationSize space event space'
  | false => space' = space

variable {reservationSize} {space space' : VmmReservationSpace}

private theorem live_set_used {k : Nat} {old r : VmmReservation}
    (hold : space.entries[k]? = some old) (hentries : space'.entries = space.entries.set k r)
    (hused : r.state = .used) (i : Nat) (r' : VmmReservation) :
    space'.Live i r' ↔ i = k ∧ r' = r ∨ i ≠ k ∧ space.Live i r' := by
  rw [live_set hold hentries i r']
  simp [hused]

theorem live_reserve_entry (hshape : ListShape reservationSize space) {k : Nat}
    {found : VmmReservationSpace} {r : VmmReservation} (hused : r.state = .used)
    (hfound : vmFindFirstFreeReservation reservationSize space = some (k,found))
    (hentries : space'.entries = found.entries.set k r) :
    (∀ r', ¬ space.Live k r') ∧
      ∀ i r', space'.Live i r' ↔ i = k ∧ r' = r ∨ i ≠ k ∧ space.Live i r' := by
  obtain ⟨_,⟨vacant,hentry,_⟩,hvacant,hother,_⟩ := vmFindFirstFreeReservation_spec hshape hfound
  refine ⟨hvacant,?_⟩
  intro i r'
  rw [live_set_used hentry hentries hused i r']
  by_cases hi : i = k
  · simp [hi]
  · simp [hi,hother i r' hi]

theorem Effect.live_reserve (hshape : ListShape reservationSize space) {range : Nat × Nat}
    {rights : PageRights} {uncacheable : Bool} {file : Option Nat}
    (h : Effect reservationSize space (.reserve range rights uncacheable file) space') :
    ∃ k, ReserveArguments range.1 range.2 ∧
      (∀ i r, space.Live i r → checkBounds range.1 range.2 r.startVa r.size = false) ∧
      (∀ r', ¬ space.Live k r') ∧ ∀ i r', space'.Live i r' ↔
        i = k ∧ r' = newReservation space range rights uncacheable file ∨
          i ≠ k ∧ space.Live i r' := by
  cases h with
  | reserve hargs hnew hfound _ _ =>
    exact ⟨_,hargs,hnew,live_reserve_entry hshape rfl hfound rfl⟩

theorem pairwise_live_reserve {R : VmmReservation → VmmReservation → Prop} {k : Nat}
    {new : VmmReservation} (hsymm : ∀ r r', R r r' → R r' r)
    (hlive : ∀ i r, space'.Live i r ↔ i = k ∧ r = new ∨ i ≠ k ∧ space.Live i r)
    (hnew : ∀ i r, space.Live i r → R new r)
    (h : ∀ i j r r', space.Live i r → space.Live j r' → i ≠ j → R r r') :
    ∀ i j r r', space'.Live i r → space'.Live j r' → i ≠ j → R r r' := by
  intro i j r r' hr hr' hij
  rcases (hlive i r).mp hr with ⟨hik,rfl⟩ | ⟨_,hr⟩
  · rcases (hlive j r').mp hr' with ⟨hjk,_⟩ | ⟨_,hr'⟩
    · exact absurd (hik.trans hjk.symm) hij
    · exact hnew j r' hr'
  · rcases (hlive j r').mp hr' with ⟨_,rfl⟩ | ⟨_,hr'⟩
    · exact hsymm _ _ (hnew i r hr)
    · exact h i j r r' hr hr' hij

theorem live_rewrite {k : Nat} {old r : VmmReservation} (hold : space.Live k old)
    (hused : r.state = .used) (hentries : space'.entries = space.entries.set k r) (i : Nat)
    (r' : VmmReservation) : space'.Live i r' ↔ i = k ∧ r' = r ∨ i ≠ k ∧ space.Live i r' :=
  live_set_used hold.1 hentries hused i r'

theorem live_release {k : Nat} {old : VmmReservation} (hold : space.Live k old)
    (hentries : space'.entries = space.entries.set k vmmReservationZero) (i : Nat)
    (r' : VmmReservation) : space'.Live i r' ↔ i ≠ k ∧ space.Live i r' := by
  rw [live_set hold.1 hentries i r']
  simp [vmmReservationZero]

theorem Effect.shape {event : PageEvent} (hshape : ListShape reservationSize space)
    (h : Effect reservationSize space event space') : ListShape reservationSize space' := by
  have hlast {k : Nat} {r : VmmReservation} (hlive : space.Live k r) : r.state ≠ .last := by
    rw [hlive.2]
    simp
  cases h with
  | reserve _ _ hfound _ _ =>
    obtain ⟨hshape₁,⟨vacant,hentry,hstate⟩,_,_,hsame⟩ :=
      vmFindFirstFreeReservation_spec hshape hfound
    exact hshape₁.set hentry hstate (by simp [newReservation]) rfl (by rw [hsame]) (by rw [hsame])
  | commit hlive _ _ =>
    exact hshape.set hlive.1 (hlast hlive) (by simp only [hlive.2]; simp) rfl rfl rfl
  | decommit hlive _ _ _ =>
    exact hshape.set hlive.1 (hlast hlive) (by simp only [hlive.2]; simp) rfl rfl rfl
  | release hlive =>
    exact hshape.set hlive.1 (hlast hlive) (by simp [vmmReservationZero]) rfl rfl rfl

theorem Effects.shape {start : VmmReservationSpace} {history : List PageEvent}
    (hstart : ListShape reservationSize start) (h : Effects reservationSize start history space) :
    ListShape reservationSize space := by
  induction h with
  | refl => exact hstart
  | move _ _ ih => exact ih.of_entries rfl rfl rfl
  | step _ hevent ih => exact hevent.shape ih

theorem FlaggedEffect.shape {flag : Bool} {event : PageEvent}
    (h : FlaggedEffect reservationSize flag space event space')
    (hshape : ListShape reservationSize space) : ListShape reservationSize space' := by
  cases flag with
  | true => exact Effect.shape hshape h
  | false =>
    obtain rfl := h
    exact hshape

theorem Effects.flagged {start : VmmReservationSpace} {history : List PageEvent} {flag : Bool}
    {event : PageEvent} (h : Effects reservationSize start history space)
    (hevent : FlaggedEffect reservationSize flag space event space') :
    Effects reservationSize start (history ++ if flag then [event] else []) space' := by
  cases flag with
  | true => exact h.step hevent
  | false =>
    obtain rfl := hevent
    simpa using h

end Effects

section Calls

variable {reservationSize : Nat} {start space space' : VmmReservationSpace}
variable {history : List PageEvent}

theorem reserve_effect (hshape : ListShape reservationSize space) {range : Nat × Nat}
    {rights : PageRights} {uncacheable : Bool} {file : Option Nat} {status : Status}
    (h : vmChangeVaReservationState reservationSize space range.1 range.2 .reserve rights
      uncacheable file = some (status,space')) :
    status ≠ .success ∧ space' = space ∨ status = .success ∧
      Effect reservationSize space (.reserve range rights uncacheable file) space' := by
  simp only [vmChangeVaReservationState,Option.bind_eq_bind,Option.bind_eq_some_iff] at h
  obtain ⟨_,_,_,_,_,_,_,_,found,hfound,h⟩ := h
  cases found with
  | some k =>
    obtain ⟨rfl,rfl⟩ := Prod.mk.inj (Option.some.inj h)
    exact Or.inl ⟨by simp,rfl⟩
  | none =>
    simp only [Option.bind_eq_some_iff] at h
    obtain ⟨⟨k,space₁⟩,hfree,space₂,hinit,h⟩ := h
    obtain ⟨rfl,rfl⟩ := Prod.mk.inj (Option.some.inj h)
    obtain ⟨_,_,_,_,hsame⟩ := vmFindFirstFreeReservation_spec hshape hfree
    generalize space₁.entries = entries at hsame
    subst hsame
    obtain ⟨hargs,haligned,hfits,rfl⟩ := vmInitializeReservation_eq_some.mp hinit
    exact Or.inr ⟨rfl,.reserve hargs ((vmFindReservation_spec hshape hfound).2 rfl) hfree haligned
      hfits⟩

private theorem commit_effect (hshape : ListShape reservationSize space) {range : Nat × Nat}
    {rights : PageRights} {uncacheable : Bool} {file : Option Nat} {status : Status}
    (h : vmChangeVaReservationState reservationSize space range.1 range.2 .commit rights
      uncacheable file = some (status,space')) :
    status ≠ .success ∧ space' = space ∨ status = .success ∧
      Effect reservationSize space (.commit range) space' := by
  simp only [vmChangeVaReservationState,Option.bind_eq_bind,Option.bind_eq_some_iff] at h
  obtain ⟨_,_,_,_,_,_,_,_,found,hfound,h⟩ := h
  cases found with
  | none =>
    obtain ⟨rfl,rfl⟩ := Prod.mk.inj (Option.some.inj h)
    exact Or.inl ⟨by simp,rfl⟩
  | some k =>
    simp only [Option.bind_eq_some_iff] at h
    obtain ⟨r,hr,h⟩ := h
    obtain ⟨r₁,hlive,hin⟩ := (vmFindReservation_spec hshape hfound).1 k rfl
    have heq : r₁ = r := Option.some.inj (hlive.1.symm.trans hr)
    subst r₁
    split at h
    · obtain ⟨rfl,rfl⟩ := Prod.mk.inj (Option.some.inj h)
      exact Or.inl ⟨by simp,rfl⟩
    · split at h
      · obtain ⟨rfl,rfl⟩ := Prod.mk.inj (Option.some.inj h)
        exact Or.inl ⟨by simp,rfl⟩
      · simp only [Option.bind_eq_some_iff] at h
        obtain ⟨r',hcommit,h⟩ := h
        obtain ⟨rfl,rfl⟩ := Prod.mk.inj (Option.some.inj h)
        simp only [vmCommitReservation,Option.bind_eq_bind,Option.bind_eq_some_iff] at hcommit
        obtain ⟨interval,hinterval,hr'⟩ := hcommit
        have hr' := Option.some.inj hr'
        subst r'
        exact Or.inr ⟨rfl,.commit hlive hin hinterval⟩

theorem commit_follows (hshape : ListShape reservationSize space) {range : Nat × Nat}
    {rights : PageRights} {uncacheable : Bool} {file : Option Nat}
    (hreserve : Effect reservationSize space (.reserve range rights uncacheable file) space') :
    ∃ k r, r = newReservation space range rights uncacheable file ∧
      (∀ i r', space'.Live i r' ↔ i = k ∧ r' = r ∨ i ≠ k ∧ space.Live i r') ∧
      (∀ old, ¬ space.Live k old) ∧
      vmChangeVaReservationState reservationSize space' range.1 range.2 .commit rights uncacheable
        file = some (.success,{ space' with
          entries := space'.entries.set k
            { r with commitBitmap := bitmapSetBits r.commitBitmap 0 (range.2 / pageSize) } }) := by
  have hshape' := hreserve.shape hshape
  obtain ⟨k,hargs,hnew,hvacant,hlive⟩ := hreserve.live_reserve hshape
  refine ⟨k,_,rfl,hlive,hvacant,?_⟩
  have hself : checkBounds range.1 range.2 range.1 range.2 = true := by simp
  have hlive' := (hlive k _).mpr (Or.inl ⟨rfl,rfl⟩)
  obtain ⟨found,hfound⟩ := vmFindReservation_eq reservationSize space' hargs.base_ne_zero
    hargs.size_ne_zero
  have hspec := vmFindReservation_spec hshape' hfound
  have hk : found = some k := by
    cases found with
    | none =>
      have hmissed := hspec.2 rfl k _ hlive'
      simp only [newReservation,hself] at hmissed
      cases hmissed
    | some j =>
      obtain ⟨r,hr,hin⟩ := hspec.1 j rfl
      rcases (hlive j r).mp hr with ⟨rfl,_⟩ | ⟨_,hold⟩
      · rfl
      · rw [hnew j r hold] at hin
        cases hin
  have hstart : ptrDiff range.1 range.1 / pageSize = 0 := by
    simp only [ptrDiff,qwordModulus,pageSize]
    omega
  rw [vmChangeVaReservationState,hfound,hk]
  simp only [Option.bind_eq_bind,Option.bind_some,hlive'.1]
  simp [newReservation,vmCommitReservation,pageInterval,assert,isAddressAligned,hargs.base_ne_zero,
    hargs.size_ne_zero,hargs.base_aligned,hargs.size_aligned,hargs.pages_le,hstart]

theorem allocRange_moved (space : VmmReservationSpace) (baseAddress size : Nat) :
    ∃ pointer, (allocRange space baseAddress size).2 =
      { space with freeVirtualAddressPointer := pointer } := by
  unfold allocRange
  split
  · dsimp only
    split <;> exact ⟨space.freeVirtualAddressPointer,rfl⟩
  · exact ⟨_,rfl⟩

theorem allocRange_words {baseAddress size : Nat} (hbase : baseAddress < qwordModulus)
    (hpointer : space.freeVirtualAddressPointer < qwordModulus) :
    (allocRange space baseAddress size).2.freeVirtualAddressPointer < qwordModulus ∧
      ∀ range, (allocRange space baseAddress size).1 = some range → range.1 < qwordModulus := by
  unfold allocRange
  split
  · dsimp only
    split
    · exact ⟨hpointer,by simp⟩
    · refine ⟨hpointer,?_⟩
      rintro range heq
      rw [← Option.some.inj heq]
      exact Nat.lt_of_le_of_lt (Nat.div_mul_le_self _ _) hbase
  · refine ⟨Nat.mod_lt _ (by decide),?_⟩
    rintro range heq
    rw [← Option.some.inj heq]
    exact hpointer

private theorem changeIfFlagged_effect {range : Nat × Nat} {request : AllocRequest} {flag : Bool}
    {change : VaReservationChange} {event : PageEvent} {status : Status}
    (hchange : vmChangeVaReservationState reservationSize space range.1 range.2 change
      request.rights request.uncacheable request.fileObject = some (status,space') →
      status ≠ .success ∧ space' = space ∨ status = .success ∧
        Effect reservationSize space event space')
    (h : changeIfFlagged reservationSize space range request flag change =
      some (status,space')) :
    flag = true ∧ status ≠ .success ∧ space' = space ∨ status = .success ∧
      FlaggedEffect reservationSize flag space event space' := by
  cases flag with
  | false =>
    obtain ⟨rfl,rfl⟩ := Prod.mk.inj (Option.some.inj h)
    exact Or.inr ⟨rfl,rfl⟩
  | true =>
    rcases hchange h with ⟨hstatus,hsame⟩ | ⟨hstatus,heffect⟩
    · exact Or.inl ⟨rfl,hstatus,hsame⟩
    · exact Or.inr ⟨hstatus,heffect⟩

theorem vmReservationSpaceChangeRange_effect (hshape : ListShape reservationSize space)
    {request : AllocRequest} {range : Nat × Nat} {status : Status} {mapped : Option (Nat × Nat)}
    (h : vmReservationSpaceChangeRange reservationSize space request range =
      some (status,mapped,space')) :
    status ≠ .success ∧ mapped = none ∧ space' = space ∨
      status = .success ∧ mapped = some range ∧ ∃ space₁,
        FlaggedEffect reservationSize request.allocType.reserve space
          (.reserve range request.rights request.uncacheable request.fileObject) space₁ ∧
        FlaggedEffect reservationSize request.allocType.commit space₁ (.commit range) space' := by
  simp only [vmReservationSpaceChangeRange,Option.bind_eq_bind,Option.bind_eq_some_iff] at h
  obtain ⟨⟨status₁,space₁⟩,hreserve,h⟩ := h
  rcases changeIfFlagged_effect (reserve_effect hshape) hreserve with
    ⟨_,hstatus₁,rfl⟩ | ⟨rfl,heffect₁⟩
  · simp only [ne_eq,hstatus₁,not_false_eq_true,if_true] at h
    obtain ⟨rfl,rfl,rfl⟩ := Option.some.inj h
    exact Or.inl ⟨hstatus₁,rfl,rfl⟩
  · simp only [ne_eq,not_true_eq_false,if_false,Option.bind_eq_some_iff] at h
    obtain ⟨⟨status₂,space₂⟩,hcommit,h⟩ := h
    simp only at h
    have hshape₁ := heffect₁.shape hshape
    rcases changeIfFlagged_effect (commit_effect hshape₁) hcommit with
      ⟨hflag,hstatus₂,hsame⟩ | ⟨hstatus₂,heffect₂⟩
    · rw [if_pos hstatus₂] at h
      obtain ⟨rfl,rfl,rfl⟩ := Option.some.inj h
      rw [hflag] at hcommit
      cases hreserved : request.allocType.reserve with
      | true =>
        rw [hreserved] at heffect₁
        obtain ⟨k,r,_,_,_,hfollows⟩ := commit_follows hshape heffect₁
        exact absurd (Prod.mk.inj (Option.some.inj (hcommit.symm.trans hfollows))).1 hstatus₂
      | false =>
        rw [hreserved] at heffect₁
        exact Or.inl ⟨hstatus₂,rfl,hsame.trans heffect₁⟩
    · rw [if_neg (not_not.mpr hstatus₂)] at h
      obtain ⟨rfl,rfl,rfl⟩ := Option.some.inj h
      exact Or.inr ⟨rfl,rfl,space₁,heffect₁,heffect₂⟩

private theorem alloc_effects (hshape : ListShape reservationSize space)
    (heffects : Effects reservationSize start history space) {request : AllocRequest}
    {status : Status} {mapped : Option (Nat × Nat)}
    (h : vmReservationSpaceAllocRegion reservationSize space request =
      some (status,mapped,space')) :
    Effects reservationSize start
      (history ++ pageEvents reservationSize space (.alloc request)) space' := by
  rw [pageEvents,h]
  simp only [vmReservationSpaceAllocRegion,Option.bind_eq_bind,Option.bind_eq_some_iff] at h
  obtain ⟨_,_,_,_,h⟩ := h
  obtain ⟨pointer,hmoved⟩ := allocRange_moved space request.baseAddress request.size
  generalize allocRange space request.baseAddress request.size = moved at hmoved h
  obtain ⟨range,space₀⟩ := moved
  simp only at hmoved
  subst space₀
  have hmove := heffects.move pointer
  have hshape₀ : ListShape reservationSize { space with freeVirtualAddressPointer := pointer } :=
    hshape.of_entries rfl rfl rfl
  cases range with
  | none =>
    obtain ⟨rfl,rfl,rfl⟩ := Option.some.inj h
    simpa using hmove
  | some range =>
    rcases vmReservationSpaceChangeRange_effect hshape₀ h with
      ⟨_,rfl,rfl⟩ | ⟨rfl,rfl,space₁,heffect₁,heffect₂⟩
    · simpa using hmove
    · simpa only [List.append_assoc] using (hmove.flagged heffect₁).flagged heffect₂

theorem vmReservationSpaceAllocRegion_effect (hshape : ListShape reservationSize space)
    {request : AllocRequest} {range : Nat × Nat}
    (h : vmReservationSpaceAllocRegion reservationSize space request =
      some (.success,some range,space')) :
    (allocRange space request.baseAddress request.size).1 = some range ∧
      ∃ pointer space₁, FlaggedEffect reservationSize request.allocType.reserve
          { space with freeVirtualAddressPointer := pointer }
          (.reserve range request.rights request.uncacheable request.fileObject) space₁ ∧
        FlaggedEffect reservationSize request.allocType.commit space₁ (.commit range) space' := by
  simp only [vmReservationSpaceAllocRegion,Option.bind_eq_bind,Option.bind_eq_some_iff] at h
  obtain ⟨_,_,_,_,h⟩ := h
  obtain ⟨pointer,hmoved⟩ := allocRange_moved space request.baseAddress request.size
  generalize allocRange space request.baseAddress request.size = moved at hmoved h ⊢
  obtain ⟨found,space₀⟩ := moved
  simp only at hmoved
  subst space₀
  have hshape₀ : ListShape reservationSize { space with freeVirtualAddressPointer := pointer } :=
    hshape.of_entries rfl rfl rfl
  cases found with
  | none => cases h
  | some found =>
    rcases vmReservationSpaceChangeRange_effect hshape₀ h with
      ⟨hfailed,-,-⟩ | ⟨-,hrange,space₁,hreserve,hcommit⟩
    · exact absurd rfl hfailed
    · obtain rfl := Option.some.inj hrange
      exact ⟨rfl,pointer,space₁,hreserve,hcommit⟩

/-- A release empties the entry of the address and hands back its copy, a decommit clears
bits of its bitmap. -/
theorem vmReservationSpaceFreeRegion_effect (hshape : ListShape reservationSize space)
    {address : Nat} {freeType : VmmFreeType} {range : Nat × Nat} {copy : Option VmmReservation}
    (h : vmReservationSpaceFreeRegion reservationSize space address freeType =
      some (range,copy,space')) :
    ∃ k r, space.Live k r ∧ match freeType with
      | .release => range = (r.startVa,r.size) ∧ copy = some r ∧
          space' = { space with entries := space.entries.set k vmmReservationZero }
      | .decommit _ => copy = none ∧ Effect reservationSize space (.decommit range) space' := by
  simp only [vmReservationSpaceFreeRegion,Option.bind_eq_bind,Option.bind_eq_some_iff] at h
  obtain ⟨_,_,found,hfound,k,hk,r,hr,h⟩ := h
  obtain ⟨r₁,hlive,hin⟩ := (vmFindReservation_spec hshape hfound).1 k hk
  have heq : r₁ = r := Option.some.inj (hlive.1.symm.trans hr)
  subst r₁
  refine ⟨k,r,hlive,?_⟩
  cases freeType with
  | release =>
    simp only [Option.bind_eq_some_iff] at h
    obtain ⟨_,_,h⟩ := h
    obtain ⟨rfl,rfl,rfl⟩ := Option.some.inj h
    exact ⟨rfl,rfl,rfl⟩
  | decommit size =>
    simp only [Option.bind_eq_some_iff,vmDecommitReservation,Option.bind_eq_bind] at h
    obtain ⟨_,_,r',⟨interval,hinterval,hr'⟩,h⟩ := h
    obtain ⟨rfl,rfl,rfl⟩ := Option.some.inj h
    have hr' := Option.some.inj hr'
    subst r'
    exact ⟨rfl,.decommit hlive hin rfl hinterval⟩

private theorem free_effects (hshape : ListShape reservationSize space)
    (heffects : Effects reservationSize start history space) {address : Nat}
    {freeType : VmmFreeType} {range : Nat × Nat} {copy : Option VmmReservation}
    (h : vmReservationSpaceFreeRegion reservationSize space address freeType =
      some (range,copy,space')) :
    Effects reservationSize start
      (history ++ pageEvents reservationSize space (.free address freeType)) space' := by
  have hspec := vmReservationSpaceFreeRegion_effect hshape h
  obtain ⟨k,r,hlive,hspec⟩ := hspec
  cases freeType with
  | release =>
    obtain ⟨rfl,_,rfl⟩ := hspec
    rw [pageEvents,h]
    exact heffects.step (.release hlive)
  | decommit size =>
    rw [pageEvents,h]
    exact heffects.step hspec.2

/-- The record of a run explains the space it ends in. -/
theorem reachable_effects {metadataBaseAddress reservationBaseAddress metadataSize : Nat}
    {p : VmmReservationSpace × List PageEvent}
    (h : ((metadataSystem reservationSize metadataBaseAddress reservationBaseAddress
      metadataSize).recording (pageEvents reservationSize)).Reachable p) :
    ∃ created, vmReservationSpaceInit metadataBaseAddress reservationBaseAddress metadataSize =
        some created ∧ ListShape reservationSize p.1 ∧
      Effects reservationSize (vmReservationSpaceFinishInit created) p.2 p.1 := by
  have hinitial (created : VmmReservationSpace) :
      ListShape reservationSize (vmReservationSpaceFinishInit created) :=
    ⟨[],_,rfl,rfl,trivial⟩
  induction h with
  | init h =>
    obtain ⟨⟨created,hcreated,hspace⟩,hrecord⟩ := h
    rw [hspace,hrecord]
    exact ⟨created,hcreated,hinitial created,.refl⟩
  | @step p p' call _ _ hstep ih =>
    obtain ⟨created,hcreated,hshape,heffects⟩ := ih
    obtain ⟨hcall,hrecord⟩ := TransitionSystem.recording_step.mp hstep
    refine ⟨created,hcreated,?_⟩
    have heffects' : Effects reservationSize (vmReservationSpaceFinishInit created) p'.2 p'.1 := by
      rw [hrecord]
      cases call with
      | alloc request =>
        obtain ⟨⟨status,mapped,final⟩,hcall,hfinal⟩ := Option.map_eq_some_iff.mp hcall
        exact hfinal ▸ alloc_effects hshape heffects hcall
      | free address freeType =>
        obtain ⟨⟨range,copy,final⟩,hcall,hfinal⟩ := Option.map_eq_some_iff.mp hcall
        exact hfinal ▸ free_effects hshape heffects hcall
    exact ⟨heffects'.shape (hinitial created),heffects'⟩

private theorem effects_forall_live {created : VmmReservationSpace} {P : VmmReservation → Prop}
    (hnew : ∀ (space : VmmReservationSpace) (range : Nat × Nat) (rights : PageRights)
      (uncacheable : Bool) (file : Option Nat), ReserveArguments range.1 range.2 →
        space.freeBitmapAddress % pageSize = 0 →
        P (newReservation space range rights uncacheable file))
    (hset : ∀ r index count, P r →
      P { r with commitBitmap := bitmapSetBits r.commitBitmap index count })
    (hclear : ∀ r index count, P r →
      P { r with commitBitmap := bitmapClearBits r.commitBitmap index count })
    (h : Effects reservationSize (vmReservationSpaceFinishInit created) history space) :
    ∀ i r, space.Live i r → P r := by
  induction h with
  | refl => exact fun i r hr => absurd hr (not_live_finishInit created i r)
  | move _ _ ih => exact ih
  | step h hevent ih =>
    intro i r' hr'
    have hshape := h.shape ⟨[],_,rfl,rfl,trivial⟩
    cases hevent with
    | reserve hargs hfree hfound haligned hfits =>
      obtain ⟨k,_,_,_,hlive⟩ := Effect.live_reserve hshape
        (.reserve hargs hfree hfound haligned hfits)
      rcases (hlive i r').mp hr' with ⟨_,rfl⟩ | ⟨_,hr⟩
      · exact hnew _ _ _ _ _ hargs haligned
      · exact ih i r' hr
    | @commit _ _ k r hlive _ _ =>
      rcases (live_rewrite hlive (by exact hlive.2) rfl i r').mp hr' with ⟨_,rfl⟩ | ⟨_,hr⟩
      · exact hset _ _ _ (ih k r hlive)
      · exact ih i r' hr
    | @decommit _ _ _ k r hlive _ _ _ =>
      rcases (live_rewrite hlive (by exact hlive.2) rfl i r').mp hr' with ⟨_,rfl⟩ | ⟨_,hr⟩
      · exact hclear _ _ _ (ih k r hlive)
      · exact ih i r' hr
    | release hlive => exact ih i r' ((live_release hlive rfl i r').mp hr').2

/-- In every run the list has its shape, and live reservations are of whole pages. -/
theorem reachable_arguments {metadataBaseAddress reservationBaseAddress metadataSize : Nat}
    (h : (metadataSystem reservationSize metadataBaseAddress reservationBaseAddress
      metadataSize).Reachable space) :
    ListShape reservationSize space ∧
      ∀ i r, space.Live i r → ReserveArguments r.startVa r.size := by
  obtain ⟨history,hrecorded⟩ :=
    TransitionSystem.ReachableUnder.exists_recording (pageEvents reservationSize) h
  obtain ⟨created,_,hshape,heffects⟩ := reachable_effects hrecorded
  exact ⟨hshape,effects_forall_live (fun _ _ _ _ _ hargs _ => hargs) (fun _ _ _ hr => hr)
    (fun _ _ _ hr => hr) heffects⟩

/-- The bitmaps of live reservations start at pages. -/
theorem reachable_bitmaps {metadataBaseAddress reservationBaseAddress metadataSize : Nat}
    (h : (metadataSystem reservationSize metadataBaseAddress reservationBaseAddress
      metadataSize).Reachable space) :
    ∀ i r, space.Live i r → r.commitBitmap.bitmapBuffer % pageSize = 0 := by
  obtain ⟨history,hrecorded⟩ :=
    TransitionSystem.ReachableUnder.exists_recording (pageEvents reservationSize) h
  obtain ⟨created,_,_,heffects⟩ := reachable_effects hrecorded
  exact effects_forall_live (fun _ _ _ _ _ _ haligned => haligned) (fun _ _ _ hr => hr)
    (fun _ _ _ hr => hr) heffects

end Calls

end Hal9000
