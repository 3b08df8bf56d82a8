import Hal9000.Process.ActiveTables

/-!
# Cached translations

Each CPU may cache a present translation of the tables it has loaded, under the PCID of their
process. `_VmUnmapPage` and `VmmChangeCr3` drop cached translations on the CPU that executes them
only. A frame or a process ID can be reused safely if no other CPU has cached its translations.
-/

namespace Hal9000

structure TlbEntry (Process Page Frame : Type) where
  /-- `none` for a global entry. -/
  pcid : Option Nat
  /-- The tables it was cached from, which a CPU does not keep. The kernel's are `none`. -/
  space : Option Process
  page : Page
  frame : Frame
  deriving DecidableEq

/-- Where `_VmUnmapPage` is, with `ReleaseMemory` set. -/
inductive UnmapPc (Process Page Frame : Type)
  | none
  | invalidate (space : Option Process) (page : Page) (frame : Frame)
  | release (space : Option Process) (page : Page) (frame : Frame)
  deriving DecidableEq

/-- A frame that waits to be zeroed, with the address it was unmapped from. -/
structure ReleasedPage (Process Page Frame : Type) where
  space : Option Process
  page : Page
  frame : Frame
  deriving DecidableEq

structure TlbState (Cpu Process Page Frame : Type) where
  table : Option Process → Page → Option Frame
  pagingLock : Option Process → Bool
  cr3 : Cpu → Process
  tlb : Cpu → List (TlbEntry Process Page Frame)
  unmap : Cpu → UnmapPc Process Page Frame
  pagesToZero : List (ReleasedPage Process Page Frame)
  life : Process → ProcessLife
  pidBitmap : Nat → Bool

inductive TlbAction (Cpu Process Page Frame : Type)
  /-- The CPU caches a translation. -/
  | cache (cpu : Cpu) (page : Page)
  | evict (cpu : Cpu) (entry : TlbEntry Process Page Frame)
  | vmMapPage (cpu : Cpu) (space : Option Process) (page : Page) (frame : Frame) (invalidate : Bool)
  | vmUnmapPage (cpu : Cpu) (space : Option Process) (page : Page)
  | unmapStep (cpu : Cpu)
  /-- The next frame is zeroed and goes back to the physical memory manager. -/
  | zeroWorker
  | mmuChangeProcessSpace (cpu : Cpu) (process : Process)
  | processCreate (process : Process)
  /-- The two loads of `MmuDestroyAddressSpaceForProcess`. -/
  | activate (cpu : Cpu) (process : Process)
  | restore (cpu : Cpu) (currentProcess : Process)
  | processSystemFreePid (process : Process)

def pcidTotalNoOfValues : Nat := 4096

/-- `PCID_IS_VALID`. -/
def pcidIsValid (pcid : Nat) : Bool := decide (0 < pcid ∧ pcid < pcidTotalNoOfValues)

def UnmapPc.space {Process Page Frame : Type} : UnmapPc Process Page Frame → Option (Option Process)
  | .none => .none
  | .invalidate space _ _ | .release space _ _ => some space

section Tlb

variable {Cpu Process Page Frame : Type} [DecidableEq Cpu] [DecidableEq Process]
  [DecidableEq Page] [DecidableEq Frame]
variable (isKernel : Page → Bool) (processId : Process → Nat) (pcidSupportAvailable : Bool)

/-- Without support every translation is cached under PCID 0. -/
def pcidOf (process : Process) : Nat := if pcidSupportAvailable then processId process else 0

/-- The tables that a CPU translates a page with. -/
def spaceOf (page : Page) (process : Process) : Option Process :=
  if isKernel page then none else some process

/-- `INVLPG` reaches the global entries and those of the loaded PCID. -/
def TlbState.Reaches (s : TlbState Cpu Process Page Frame) (cpu : Cpu)
    (entry : TlbEntry Process Page Frame) : Prop :=
  entry.pcid = none ∨ entry.pcid = some (pcidOf processId pcidSupportAvailable (s.cr3 cpu))

instance (s : TlbState Cpu Process Page Frame) (cpu : Cpu) (entry : TlbEntry Process Page Frame) :
    Decidable (s.Reaches processId pcidSupportAvailable cpu entry) :=
  inferInstanceAs (Decidable (_ ∨ _))

def TlbState.setTable (s : TlbState Cpu Process Page Frame) (space : Option Process) (page : Page)
    (frame : Option Frame) : TlbState Cpu Process Page Frame :=
  { s with table := Function.update s.table space (Function.update (s.table space) page frame) }

def TlbState.setUnmap (s : TlbState Cpu Process Page Frame) (cpu : Cpu)
    (pc : UnmapPc Process Page Frame) : TlbState Cpu Process Page Frame :=
  { s with unmap := Function.update s.unmap cpu pc }

def TlbState.setLock (s : TlbState Cpu Process Page Frame) (space : Option Process) (held : Bool) :
    TlbState Cpu Process Page Frame :=
  { s with pagingLock := Function.update s.pagingLock space held }

def TlbState.setTlb (s : TlbState Cpu Process Page Frame) (cpu : Cpu)
    (entries : List (TlbEntry Process Page Frame)) : TlbState Cpu Process Page Frame :=
  { s with tlb := Function.update s.tlb cpu entries }

def TlbState.setPid (s : TlbState Cpu Process Page Frame) (pid : Nat) (taken : Bool) :
    TlbState Cpu Process Page Frame :=
  { s with pidBitmap := Function.update s.pidBitmap pid taken }

def TlbState.setLife (s : TlbState Cpu Process Page Frame) (process : Process)
    (life : ProcessLife) : TlbState Cpu Process Page Frame :=
  { s with life := Function.update s.life process life }

def pageInvalidateTlb (s : TlbState Cpu Process Page Frame) (cpu : Cpu) (page : Page) :
    TlbState Cpu Process Page Frame :=
  s.setTlb cpu ((s.tlb cpu).filter fun entry =>
    !decide (entry.page = page ∧ s.Reaches processId pcidSupportAvailable cpu entry))

/-- `MOV CR3` with `bInvalidate` drops what is cached under the new PCID, but for global entries. -/
def vmmChangeCr3 (s : TlbState Cpu Process Page Frame) (cpu : Cpu) (process : Process)
    (bInvalidate : Bool) : Option (TlbState Cpu Process Page Frame) := do
  assert (pcidIsValid (processId process))
  let kept := if bInvalidate then
      (s.tlb cpu).filter (·.pcid != some (pcidOf processId pcidSupportAvailable process))
    else s.tlb cpu
  return { s.setTlb cpu kept with cr3 := Function.update s.cr3 cpu process }

/-- `_VmMapPage`, for the last level. The address was not unmapped from this very frame while the
frame waits to be zeroed. -/
def TlbState.vmMapPage (s : TlbState Cpu Process Page Frame) (cpu : Cpu) (space : Option Process)
    (page : Page) (frame : Frame) (bInvalidate : Bool) :
    Option (TlbState Cpu Process Page Frame) :=
  if space.isNone ≠ isKernel page ∨ s.pagingLock space = true ∨
      (⟨space,page,frame⟩ : ReleasedPage Process Page Frame) ∈ s.pagesToZero then none
  else if (s.table space page).isSome && !bInvalidate then some s
  else some (pageInvalidateTlb processId pcidSupportAvailable (s.setTable space page (some frame))
    cpu page)

/-- `_VmUnmapPage` clears the entry, under the lock of the paging data. -/
def TlbState.vmUnmapPage (s : TlbState Cpu Process Page Frame) (cpu : Cpu) (space : Option Process)
    (page : Page) : Option (TlbState Cpu Process Page Frame) :=
  match s.unmap cpu,s.pagingLock space,s.table space page with
  | .none,false,some frame =>
    if space.isNone ≠ isKernel page then none
    else some (((s.setTable space page none).setLock space true).setUnmap cpu
      (.invalidate space page frame))
  | _,_,_ => none

/-- `_VmUnmapPage`, from `PageInvalidateTlb` on. -/
def unmapStep (s : TlbState Cpu Process Page Frame) (cpu : Cpu) :
    Option (TlbState Cpu Process Page Frame) :=
  match s.unmap cpu with
  | .invalidate space page frame =>
    some ((pageInvalidateTlb processId pcidSupportAvailable s cpu page).setUnmap cpu
      (.release space page frame))
  | .release space page frame =>
    let s : TlbState Cpu Process Page Frame :=
      { s with pagesToZero := s.pagesToZero ++ [⟨space,page,frame⟩] }
    some ((s.setLock space false).setUnmap cpu .none)
  | .none => none

/-- A load of CR3 by a CPU that is not unmapping, which it does with interrupts disabled. -/
def loadTables (s : TlbState Cpu Process Page Frame) (cpu : Cpu) (process : Process)
    (bInvalidate : Bool) : Option (TlbState Cpu Process Page Frame) :=
  match s.unmap cpu,s.life process with
  | .none,.live => vmmChangeCr3 processId pcidSupportAvailable s cpu process bInvalidate
  | _,_ => none

def tlbStep (s : TlbState Cpu Process Page Frame) :
    TlbAction Cpu Process Page Frame → Option (TlbState Cpu Process Page Frame)
  | .cache cpu page =>
    let space := spaceOf isKernel page (s.cr3 cpu)
    (s.table space page).map fun frame => s.setTlb cpu
      (⟨space.map (pcidOf processId pcidSupportAvailable),space,page,frame⟩ :: s.tlb cpu)
  | .evict cpu entry => some (s.setTlb cpu ((s.tlb cpu).erase entry))
  | .vmMapPage cpu space page frame bInvalidate =>
    TlbState.vmMapPage isKernel processId pcidSupportAvailable s cpu space page frame bInvalidate
  | .vmUnmapPage cpu space page => TlbState.vmUnmapPage isKernel s cpu space page
  | .unmapStep cpu => unmapStep processId pcidSupportAvailable s cpu
  | .zeroWorker =>
    match s.pagesToZero with
    | [] => none
    | _ :: rest => some { s with pagesToZero := rest }
  | .mmuChangeProcessSpace cpu process | .restore cpu process =>
    loadTables processId pcidSupportAvailable s cpu process (!pcidSupportAvailable)
  | .processCreate process =>
    match s.life process,s.pidBitmap (processId process) with
    | .absent,false => do
      assert (pcidIsValid (processId process))
      return (s.setLife process .live).setPid (processId process) true
    | _,_ => none
  | .activate cpu process =>
    (loadTables processId pcidSupportAvailable s cpu process true).map fun s =>
      s.setLife process .destroying
  | .processSystemFreePid process =>
    match s.life process with
    | .destroying => do
      assert (s.pidBitmap (processId process))
      return (s.setLife process .destroyed).setPid (processId process) false
    | _ => none

/-- Processes with IDs of their own, and nothing cached. -/
structure TlbState.Initial (s : TlbState Cpu Process Page Frame) : Prop where
  tlb : ∀ cpu, s.tlb cpu = []
  unmap : ∀ cpu, s.unmap cpu = .none
  pagesToZero : s.pagesToZero = []
  life : ∀ process, s.life process = .absent ∨ s.life process = .live
  loaded : ∀ cpu, s.life (s.cr3 cpu) = .live
  pids : ∀ process, s.life process = .live → s.pidBitmap (processId process) = true
  distinct : ∀ p q, s.life p = .live → s.life q = .live → processId p = processId q → p = q

def tlbSystem : TransitionSystem (TlbState Cpu Process Page Frame)
    (TlbAction Cpu Process Page Frame) where
  init := TlbState.Initial processId
  step := tlbStep isKernel processId pcidSupportAvailable

/-- Nothing is cached that the invalidations of the code do not reach: an address is unmapped where
alone it is cached, a process is destroyed where alone its pages are cached, and they are cached
no more from then on. -/
def InvalidationSuffices (s : TlbState Cpu Process Page Frame) :
    TlbAction Cpu Process Page Frame → Prop
  | .cache cpu page => isKernel page = false → s.life (s.cr3 cpu) = .live
  | .vmUnmapPage cpu space page => ∀ other, ∀ entry ∈ s.tlb other, entry.space = space →
    entry.page = page → other = cpu ∧ s.Reaches processId pcidSupportAvailable cpu entry
  | .activate cpu process => ∀ other, ∀ entry ∈ s.tlb other, entry.space = some process → other = cpu
  | _ => True

/-- What the unmapping of an address relies on where it is. -/
def UnmapOk (s : TlbState Cpu Process Page Frame) (cpu : Cpu) : UnmapPc Process Page Frame → Prop
  | .none => True
  | .invalidate space page _ => s.pagingLock space = true ∧ s.table space page = none ∧
    ∀ other, ∀ entry ∈ s.tlb other, entry.space = space → entry.page = page →
      other = cpu ∧ s.Reaches processId pcidSupportAvailable cpu entry
  | .release space page _ => s.pagingLock space = true ∧ s.table space page = none ∧
    ∀ other, ∀ entry ∈ s.tlb other, entry.space = space → entry.page ≠ page

/-- A released address is translated to its frame by no table and no CPU. -/
def TlbState.Gone (s : TlbState Cpu Process Page Frame) (item : ReleasedPage Process Page Frame) :
    Prop :=
  s.table item.space item.page ≠ some item.frame ∧ ∀ cpu, ∀ entry ∈ s.tlb cpu,
    entry.space = item.space → entry.page = item.page → entry.frame ≠ item.frame

structure TlbInv (s : TlbState Cpu Process Page Frame) : Prop where
  loaded : ∀ cpu, s.life (s.cr3 cpu) ≠ .absent
  tagged : ∀ cpu, ∀ entry ∈ s.tlb cpu, ∀ process, entry.space = some process →
    entry.pcid = some (pcidOf processId pcidSupportAvailable process) ∧
      s.life process = .live ∧ (pcidSupportAvailable = false → process = s.cr3 cpu)
  pids : ∀ process, s.life process = .live ∨ s.life process = .destroying →
    s.pidBitmap (processId process) = true
  distinct : ∀ p q, s.life p = .live ∨ s.life p = .destroying →
    s.life q = .live ∨ s.life q = .destroying → processId p = processId q → p = q
  unmap : ∀ cpu, UnmapOk processId pcidSupportAvailable s cpu (s.unmap cpu)
  single : ∀ cpu cpu' space, (s.unmap cpu).space = some space →
    (s.unmap cpu').space = some space → cpu = cpu'
  gone : ∀ item ∈ s.pagesToZero, s.Gone item

variable {isKernel processId pcidSupportAvailable} {s s' : TlbState Cpu Process Page Frame}
  {cpu : Cpu}

omit [DecidableEq Cpu] [DecidableEq Process] [DecidableEq Page] [DecidableEq Frame] in
theorem UnmapOk.locked {pc : UnmapPc Process Page Frame} {space : Option Process}
    (h : UnmapOk processId pcidSupportAvailable s cpu pc) (hspace : pc.space = some space) :
    s.pagingLock space = true := by
  cases pc with
  | none => cases hspace
  | invalidate _ _ _ =>
    cases hspace
    exact h.1
  | release _ _ _ =>
    cases hspace
    exact h.1

omit [DecidableEq Cpu] [DecidableEq Process] [DecidableEq Page] [DecidableEq Frame] in
theorem UnmapOk.mono {pc : UnmapPc Process Page Frame}
    (h : UnmapOk processId pcidSupportAvailable s cpu pc)
    (hlock : ∀ space, pc.space = some space → s.pagingLock space = true →
      s'.pagingLock space = true)
    (htable : ∀ space page, pc.space = some space → s.table space page = none →
      s'.table space page = none)
    (htlb : ∀ other, ∀ entry ∈ s'.tlb other, pc.space = some entry.space → entry ∈ s.tlb other ∨
      s.table entry.space entry.page ≠ none)
    (hcr3 : pc ≠ .none → s'.cr3 cpu = s.cr3 cpu) :
    UnmapOk processId pcidSupportAvailable s' cpu pc := by
  cases pc with
  | none => trivial
  | invalidate space page frame =>
    obtain ⟨hheld,hnone,hentries⟩ := h
    refine ⟨hlock space rfl hheld,htable space page rfl hnone,fun other entry he hs hp => ?_⟩
    rcases htlb other entry he (by rw [hs]; rfl) with hold | hcached
    · obtain ⟨hcpu,hreach⟩ := hentries other entry hold hs hp
      refine ⟨hcpu,?_⟩
      rw [TlbState.Reaches,hcr3 nofun]
      exact hreach
    · rw [hs,hp] at hcached
      exact absurd hnone hcached
  | release space page frame =>
    obtain ⟨hheld,hnone,hentries⟩ := h
    refine ⟨hlock space rfl hheld,htable space page rfl hnone,fun other entry he hs hp => ?_⟩
    rcases htlb other entry he (by rw [hs]; rfl) with hold | hcached
    · exact hentries other entry hold hs hp
    · rw [hs,hp] at hcached
      exact hcached hnone

omit [DecidableEq Process] [DecidableEq Page] [DecidableEq Frame] in
theorem TlbInv.setTlb (h : TlbInv processId pcidSupportAvailable s)
    {kept : List (TlbEntry Process Page Frame)} (hkept : ∀ entry ∈ kept, entry ∈ s.tlb cpu) :
    TlbInv processId pcidSupportAvailable (s.setTlb cpu kept) := by
  have htlb : ∀ other, ∀ entry ∈ (s.setTlb cpu kept).tlb other, entry ∈ s.tlb other := by
    intro other entry he
    simp only [TlbState.setTlb] at he
    by_cases hother : other = cpu
    · subst other
      rw [Function.update_self] at he
      exact hkept entry he
    · rwa [Function.update_of_ne hother] at he
  exact ⟨h.loaded,fun other entry he => h.tagged other entry (htlb other entry he),h.pids,h.distinct,
    fun other => (h.unmap other).mono (fun _ _ => id) (fun _ _ _ => id)
      (fun other entry he _ => Or.inl (htlb other entry he)) (fun _ => rfl),h.single,
    fun item hi => ⟨(h.gone item hi).1,
      fun other entry he => (h.gone item hi).2 other entry (htlb other entry he)⟩⟩

omit [DecidableEq Process] [DecidableEq Frame] in
theorem TlbInv.pageInvalidateTlb (h : TlbInv processId pcidSupportAvailable s) (page : Page) :
    TlbInv processId pcidSupportAvailable
      (Hal9000.pageInvalidateTlb processId pcidSupportAvailable s cpu page) :=
  h.setTlb fun _ he => List.mem_of_mem_filter he

omit [DecidableEq Process] [DecidableEq Page] [DecidableEq Frame] in
theorem TlbInv.cache (h : TlbInv processId pcidSupportAvailable s) {page : Page} {frame : Frame}
    (hmapped : s.table (spaceOf isKernel page (s.cr3 cpu)) page = some frame)
    (hlive : isKernel page = false → s.life (s.cr3 cpu) = .live) :
    TlbInv processId pcidSupportAvailable (s.setTlb cpu
      (⟨(spaceOf isKernel page (s.cr3 cpu)).map (pcidOf processId pcidSupportAvailable),
        spaceOf isKernel page (s.cr3 cpu),page,frame⟩ :: s.tlb cpu)) := by
  generalize hnew : (⟨_,_,page,frame⟩ : TlbEntry Process Page Frame) = new
  have htlb : ∀ other, ∀ entry ∈ (s.setTlb cpu (new :: s.tlb cpu)).tlb other,
      entry ∈ s.tlb other ∨ other = cpu ∧ entry = new := by
    intro other entry he
    simp only [TlbState.setTlb] at he
    by_cases hother : other = cpu
    · subst other
      rw [Function.update_self] at he
      rcases List.mem_cons.mp he with rfl | hold
      · exact Or.inr ⟨rfl,rfl⟩
      · exact Or.inl hold
    · rw [Function.update_of_ne hother] at he
      exact Or.inl he
  have htable : s.table new.space new.page = some new.frame := by
    rw [← hnew]
    exact hmapped
  refine ⟨h.loaded,fun other entry he process hspace => ?_,h.pids,h.distinct,fun other => ?_,
    h.single,fun item hi => ⟨(h.gone item hi).1,fun other entry he hs hp => ?_⟩⟩
  · rcases htlb other entry he with hold | ⟨rfl,rfl⟩
    · exact h.tagged other entry hold process hspace
    · rw [← hnew] at hspace ⊢
      simp only [spaceOf] at hspace ⊢
      by_cases hkernel : isKernel page = true
      · rw [if_pos hkernel] at hspace
        cases hspace
      · rw [if_neg hkernel] at hspace ⊢
        cases hspace
        exact ⟨rfl,hlive (Bool.not_eq_true _ ▸ hkernel),fun _ => rfl⟩
  · refine (h.unmap other).mono (fun _ _ => id) (fun _ _ _ => id) (fun other entry he _ => ?_)
      (fun _ => rfl)
    rcases htlb other entry he with hold | ⟨_,rfl⟩
    · exact Or.inl hold
    · refine Or.inr ?_
      rw [htable]
      nofun
  · rcases htlb other entry he with hold | ⟨_,rfl⟩
    · exact (h.gone item hi).2 other entry hold hs hp
    · rw [hs,hp] at htable
      intro hframe
      rw [hframe] at htable
      exact (h.gone item hi).1 htable

omit [DecidableEq Cpu] [DecidableEq Frame] in
theorem TlbInv.setTable (h : TlbInv processId pcidSupportAvailable s) {space : Option Process}
    {page : Page} {entry : Option Frame} (hlock : s.pagingLock space = false)
    (hgone : ∀ frame, entry = some frame → ⟨space,page,frame⟩ ∉ s.pagesToZero) :
    TlbInv processId pcidSupportAvailable (s.setTable space page entry) := by
  have hother : ∀ space' page', space' ≠ space →
      (s.setTable space page entry).table space' page' = s.table space' page' := by
    intro space' page' hne
    simp only [TlbState.setTable,Function.update_of_ne hne]
  refine ⟨h.loaded,h.tagged,h.pids,h.distinct,fun cpu => ?_,h.single,fun item hi =>
    ⟨?_,(h.gone item hi).2⟩⟩
  · refine (h.unmap cpu).mono (fun _ _ => id) (fun space' page' hspace hnone => ?_)
      (fun _ _ he _ => Or.inl he) (fun _ => rfl)
    have hne : space' ≠ space := by
      rintro rfl
      rw [(h.unmap cpu).locked hspace] at hlock
      cases hlock
    rw [hother _ _ hne,hnone]
  · by_cases hspace : item.space = space
    · by_cases hpage : item.page = page
      · simp only [TlbState.setTable,hspace,hpage,Function.update_self]
        intro heq
        refine hgone item.frame heq ?_
        rw [← hspace,← hpage]
        exact hi
      · have hsame : (s.setTable space page entry).table item.space item.page =
            s.table item.space item.page := by
          simp only [TlbState.setTable,hspace,Function.update_self,Function.update_of_ne hpage]
        rw [hsame]
        exact (h.gone item hi).1
    · rw [hother _ _ hspace]
      exact (h.gone item hi).1

theorem TlbInv.vmMapPage (h : TlbInv processId pcidSupportAvailable s) {space : Option Process}
    {page : Page} {frame : Frame} {bInvalidate : Bool}
    (hstep : TlbState.vmMapPage isKernel processId pcidSupportAvailable s cpu space page frame
      bInvalidate = some s') : TlbInv processId pcidSupportAvailable s' := by
  simp only [TlbState.vmMapPage] at hstep
  split_ifs at hstep with hrefused hpresent
  · cases hstep
    exact h
  · cases hstep
    rw [not_or,not_or] at hrefused
    refine (h.setTable (Bool.not_eq_true _ ▸ hrefused.2.1) ?_).pageInvalidateTlb page
    intro frame' heq
    cases heq
    exact hrefused.2.2

omit [DecidableEq Page] [DecidableEq Frame] in
theorem TlbInv.setUnmap (h : TlbInv processId pcidSupportAvailable s)
    {pc : UnmapPc Process Page Frame} {space : Option Process} {held : Bool}
    (hpc : UnmapOk processId pcidSupportAvailable (s.setLock space held) cpu pc)
    (hapart : ∀ other, other ≠ cpu → (s.unmap other).space ≠ some space)
    (hspace : ∀ space', pc.space = some space' → space' = space) :
    TlbInv processId pcidSupportAvailable ((s.setLock space held).setUnmap cpu pc) := by
  refine ⟨h.loaded,h.tagged,h.pids,h.distinct,fun other => ?_,fun c c' space' hc hc' => ?_,h.gone⟩
  · simp only [TlbState.setUnmap]
    by_cases hother : other = cpu
    · subst other
      rw [Function.update_self]
      exact hpc
    · rw [Function.update_of_ne hother]
      refine (h.unmap other).mono (fun space' hspace' hheld => ?_) (fun _ _ _ => id)
        (fun _ _ he _ => Or.inl he) (fun _ => rfl)
      have hne : space' ≠ space := by
        rintro rfl
        exact hapart other hother hspace'
      simpa only [TlbState.setLock,Function.update_of_ne hne] using hheld
  · simp only [TlbState.setUnmap,TlbState.setLock] at hc hc'
    by_cases hcpu : c = cpu <;> by_cases hcpu' : c' = cpu
    · rw [hcpu,hcpu']
    · rw [hcpu,Function.update_self] at hc
      rw [Function.update_of_ne hcpu',hspace space' hc] at hc'
      exact absurd hc' (hapart c' hcpu')
    · rw [hcpu',Function.update_self] at hc'
      rw [Function.update_of_ne hcpu,hspace space' hc'] at hc
      exact absurd hc (hapart c hcpu)
    · rw [Function.update_of_ne hcpu] at hc
      rw [Function.update_of_ne hcpu'] at hc'
      exact h.single c c' space' hc hc'

omit [DecidableEq Frame] in
theorem TlbInv.vmUnmapPage (h : TlbInv processId pcidSupportAvailable s) {space : Option Process}
    {page : Page}
    (hguard : InvalidationSuffices isKernel processId pcidSupportAvailable s
      (.vmUnmapPage cpu space page))
    (hstep : TlbState.vmUnmapPage isKernel s cpu space page = some s') :
    TlbInv processId pcidSupportAvailable s' := by
  simp only [TlbState.vmUnmapPage] at hstep
  split at hstep
  · rename_i frame _ hlock _
    split_ifs at hstep
    cases hstep
    have hcleared : TlbInv processId pcidSupportAvailable (s.setTable space page none) :=
      h.setTable hlock nofun
    refine hcleared.setUnmap ⟨Function.update_self _ _ _,?_,hguard⟩ (fun other _ hspace => ?_)
      fun space' hspace => (Option.some.inj hspace).symm
    · simp only [TlbState.setLock,TlbState.setTable,Function.update_self]
    · rw [(h.unmap other).locked hspace] at hlock
      cases hlock
  · cases hstep

omit [DecidableEq Frame] in
theorem TlbInv.unmapStep (h : TlbInv processId pcidSupportAvailable s)
    (hstep : Hal9000.unmapStep processId pcidSupportAvailable s cpu = some s') :
    TlbInv processId pcidSupportAvailable s' := by
  have hok := h.unmap cpu
  have hapart : ∀ space, (s.unmap cpu).space = some space →
      ∀ other, other ≠ cpu → (s.unmap other).space ≠ some space :=
    fun space hspace other hne hother => hne (h.single other cpu space hother hspace)
  simp only [Hal9000.unmapStep] at hstep
  cases hpc : s.unmap cpu with
  | none =>
    rw [hpc] at hstep
    cases hstep
  | invalidate space page frame =>
    rw [hpc] at hstep hok
    cases hstep
    obtain ⟨hheld,hnone,hentries⟩ := hok
    have hlock : (Hal9000.pageInvalidateTlb processId pcidSupportAvailable s cpu page).setLock space
        true = Hal9000.pageInvalidateTlb processId pcidSupportAvailable s cpu page := by
      simp only [TlbState.setLock,Hal9000.pageInvalidateTlb,TlbState.setTlb,← hheld,
        Function.update_eq_self]
    rw [← hlock]
    refine (h.pageInvalidateTlb page).setUnmap ⟨?_,hnone,fun other entry he hs hp => ?_⟩
      (hapart space (by rw [hpc]; rfl)) fun space' hspace => (Option.some.inj hspace).symm
    · simp only [TlbState.setLock,Function.update_self]
    · simp only [TlbState.setLock,Hal9000.pageInvalidateTlb,TlbState.setTlb] at he
      by_cases hother : other = cpu
      · subst other
        rw [Function.update_self,List.mem_filter] at he
        have hreach := (hentries _ entry he.1 hs hp).2
        simp [hp,hreach] at he
      · rw [Function.update_of_ne hother] at he
        exact hother (hentries other entry he hs hp).1
  | release space page frame =>
    rw [hpc] at hstep hok
    cases hstep
    obtain ⟨hheld,hnone,hentries⟩ := hok
    have hqueued : TlbInv processId pcidSupportAvailable
        { s with pagesToZero := s.pagesToZero ++ [⟨space,page,frame⟩] } := by
      refine ⟨h.loaded,h.tagged,h.pids,h.distinct,fun other => (h.unmap other).mono (fun _ _ => id)
        (fun _ _ _ => id) (fun _ _ he _ => Or.inl he) (fun _ => rfl),h.single,fun item hi => ?_⟩
      rcases List.mem_append.mp hi with hold | hnew
      · exact h.gone item hold
      · rw [List.mem_singleton.mp hnew]
        refine ⟨?_,fun other entry he hs hp => absurd hp (hentries other entry he hs)⟩
        change s.table space page ≠ some frame
        rw [hnone]
        nofun
    exact hqueued.setUnmap trivial (hapart space (by rw [hpc]; rfl)) nofun

omit [DecidableEq Process] [DecidableEq Page] [DecidableEq Frame] in
/-- What a load leaves: the tables are the new ones, and with `bInvalidate` nothing of their PCID is
cached. -/
theorem loadTables_eq {process : Process} {bInvalidate : Bool}
    (hstep : loadTables processId pcidSupportAvailable s cpu process bInvalidate = some s') :
    s.unmap cpu = .none ∧ s.life process = .live ∧ ∃ kept, (∀ entry ∈ kept, entry ∈ s.tlb cpu) ∧
      (bInvalidate = true → ∀ entry ∈ kept,
        entry.pcid ≠ some (pcidOf processId pcidSupportAvailable process)) ∧
      s' = { s.setTlb cpu kept with cr3 := Function.update s.cr3 cpu process } := by
  simp only [loadTables] at hstep
  split at hstep
  · rename_i hidle hlive
    obtain ⟨_,_,hstep⟩ := Option.bind_eq_some_iff.mp hstep
    cases hstep
    refine ⟨hidle,hlive,_,fun entry he => ?_,fun hflag entry he => ?_,rfl⟩
    · split_ifs at he
      · exact List.mem_of_mem_filter he
      · exact he
    · rw [if_pos hflag] at he
      simpa using (List.mem_filter.mp he).2
  · cases hstep

omit [DecidableEq Process] [DecidableEq Page] [DecidableEq Frame] in
theorem TlbInv.loadTables (h : TlbInv processId pcidSupportAvailable s) {process : Process}
    {bInvalidate : Bool} (hflag : pcidSupportAvailable = false → bInvalidate = true)
    (hstep : Hal9000.loadTables processId pcidSupportAvailable s cpu process bInvalidate = some s') :
    TlbInv processId pcidSupportAvailable s' := by
  obtain ⟨hidle,hlive,kept,hkept,hdropped,rfl⟩ := loadTables_eq hstep
  have hsub := h.setTlb hkept
  refine ⟨fun other => ?_,fun other entry he p hspace => ?_,h.pids,h.distinct,fun other => ?_,
    h.single,hsub.gone⟩
  · simp only
    by_cases hother : other = cpu
    · subst other
      rw [Function.update_self]
      change s.life process ≠ .absent
      rw [hlive]
      nofun
    · rw [Function.update_of_ne hother]
      exact h.loaded other
  · obtain ⟨htag,hp,hcr3⟩ := hsub.tagged other entry he p hspace
    refine ⟨htag,hp,fun hsupport => ?_⟩
    simp only
    by_cases hother : other = cpu
    · -- without PCIDs the load drops all translations of pages of processes
      subst other
      simp only [TlbState.setTlb,Function.update_self] at he
      have hsame : pcidOf processId pcidSupportAvailable p =
          pcidOf processId pcidSupportAvailable process := by
        simp only [pcidOf,hsupport,Bool.false_eq_true,if_false]
      exact absurd (hsame ▸ htag) (hdropped (hflag hsupport) entry he)
    · rw [Function.update_of_ne hother]
      exact hcr3 hsupport
  · refine (hsub.unmap other).mono (fun _ _ => id) (fun _ _ _ => id) (fun _ _ he _ => Or.inl he)
      (fun hbusy => ?_)
    have hother : other ≠ cpu := by
      rintro rfl
      exact hbusy hidle
    exact Function.update_of_ne hother _ _

omit [DecidableEq Cpu] [DecidableEq Page] [DecidableEq Frame] in
theorem TlbInv.setLife (h : TlbInv processId pcidSupportAvailable s) {process : Process}
    {life : ProcessLife} (hlife : life = .destroying ∨ life = .destroyed)
    (halive : life = .destroying → s.life process = .live)
    (huncached : ∀ other, ∀ entry ∈ s.tlb other, entry.space ≠ some process) :
    TlbInv processId pcidSupportAvailable (s.setLife process life) := by
  have hback : ∀ p, (s.setLife process life).life p = .live ∨
      (s.setLife process life).life p = .destroying → s.life p = .live ∨ s.life p = .destroying := by
    intro p hp
    simp only [TlbState.setLife] at hp
    by_cases heq : p = process
    · subst p
      rw [Function.update_self] at hp
      rcases hlife with rfl | rfl
      · exact Or.inl (halive rfl)
      · rcases hp with hp | hp <;> cases hp
    · rwa [Function.update_of_ne heq] at hp
  refine ⟨fun cpu => ?_,fun cpu entry he p hspace => ?_,fun p hp => h.pids p (hback p hp),
    fun p q hp hq => h.distinct p q (hback p hp) (hback q hq),h.unmap,h.single,h.gone⟩
  · simp only [TlbState.setLife]
    by_cases heq : s.cr3 cpu = process
    · rw [heq,Function.update_self]
      rcases hlife with rfl | rfl <;> nofun
    · rw [Function.update_of_ne heq]
      exact h.loaded cpu
  · obtain ⟨htag,hlive,hcr3⟩ := h.tagged cpu entry he p hspace
    have hne : p ≠ process := by
      rintro rfl
      exact huncached cpu entry he hspace
    refine ⟨htag,?_,hcr3⟩
    simpa only [TlbState.setLife,Function.update_of_ne hne] using hlive

omit [DecidableEq Page] [DecidableEq Frame] in
theorem TlbInv.activate (h : TlbInv processId pcidSupportAvailable s) {process : Process}
    (hguard : InvalidationSuffices isKernel processId pcidSupportAvailable s
      (.activate cpu process))
    (hstep : Hal9000.loadTables processId pcidSupportAvailable s cpu process true = some s') :
    TlbInv processId pcidSupportAvailable (s'.setLife process .destroying) := by
  have hloaded := h.loadTables (fun _ => rfl) hstep
  obtain ⟨_,hlive,kept,hkept,hdropped,rfl⟩ := loadTables_eq hstep
  refine hloaded.setLife (Or.inl rfl) (fun _ => hlive) fun other entry he hspace => ?_
  simp only [TlbState.setTlb] at he
  by_cases hother : other = cpu
  · subst other
    rw [Function.update_self] at he
    exact hdropped rfl entry he (h.tagged _ entry (hkept entry he) process hspace).1
  · rw [Function.update_of_ne hother] at he
    exact hother (hguard other entry he hspace)

omit [DecidableEq Cpu] [DecidableEq Page] [DecidableEq Frame] in
theorem TlbInv.processCreate (h : TlbInv processId pcidSupportAvailable s) {process : Process}
    (habsent : s.life process = .absent) (hfree : s.pidBitmap (processId process) = false) :
    TlbInv processId pcidSupportAvailable
      ((s.setLife process .live).setPid (processId process) true) := by
  have hback : ∀ p, p ≠ process → (s.setLife process .live).life p = s.life p :=
    fun p hp => Function.update_of_ne hp _ _
  have hapart : ∀ p, s.life p = .live ∨ s.life p = .destroying →
      processId p ≠ processId process := by
    intro p hp heq
    have htaken := h.pids p hp
    rw [heq,hfree] at htaken
    cases htaken
  refine ⟨fun cpu => ?_,fun cpu entry he p hspace => ?_,fun p hp => ?_,fun p q hp hq heq => ?_,
    h.unmap,h.single,h.gone⟩
  · have hne : s.cr3 cpu ≠ process := by
      intro heq
      exact h.loaded cpu (heq ▸ habsent)
    change (s.setLife process .live).life (s.cr3 cpu) ≠ .absent
    rw [hback _ hne]
    exact h.loaded cpu
  · obtain ⟨htag,hlive,hcr3⟩ := h.tagged cpu entry he p hspace
    have hne : p ≠ process := by
      rintro rfl
      rw [habsent] at hlive
      cases hlive
    exact ⟨htag,(hback p hne).trans hlive,hcr3⟩
  · simp only [TlbState.setPid]
    by_cases heq : p = process
    · rw [heq,Function.update_self]
    · change (s.setLife process .live).life p = .live ∨
        (s.setLife process .live).life p = .destroying at hp
      rw [hback p heq] at hp
      rw [Function.update_of_ne (hapart p hp)]
      exact h.pids p hp
  · change (s.setLife process .live).life p = .live ∨
      (s.setLife process .live).life p = .destroying at hp
    change (s.setLife process .live).life q = .live ∨
      (s.setLife process .live).life q = .destroying at hq
    by_cases hpp : p = process <;> by_cases hqp : q = process
    · rw [hpp,hqp]
    · rw [hback q hqp] at hq
      exact absurd (heq.symm.trans (by rw [hpp])) (hapart q hq)
    · rw [hback p hpp] at hp
      exact absurd (heq.trans (by rw [hqp])) (hapart p hp)
    · rw [hback p hpp] at hp
      rw [hback q hqp] at hq
      exact h.distinct p q hp hq heq

omit [DecidableEq Cpu] [DecidableEq Page] [DecidableEq Frame] in
theorem TlbInv.processSystemFreePid (h : TlbInv processId pcidSupportAvailable s)
    {process : Process} (hdying : s.life process = .destroying) :
    TlbInv processId pcidSupportAvailable
      ((s.setLife process .destroyed).setPid (processId process) false) := by
  have hdead : TlbInv processId pcidSupportAvailable (s.setLife process .destroyed) := by
    refine h.setLife (Or.inr rfl) nofun fun other entry he hspace => ?_
    have hlive := (h.tagged other entry he process hspace).2.1
    rw [hdying] at hlive
    cases hlive
  refine ⟨hdead.loaded,hdead.tagged,fun p hp => ?_,hdead.distinct,hdead.unmap,hdead.single,
    hdead.gone⟩
  have hne : processId p ≠ processId process := by
    intro heq
    change (s.setLife process .destroyed).life p = .live ∨
      (s.setLife process .destroyed).life p = .destroying at hp
    by_cases hpp : p = process
    · rw [hpp] at hp
      simp only [TlbState.setLife,Function.update_self] at hp
      rcases hp with hp | hp <;> cases hp
    · simp only [TlbState.setLife,Function.update_of_ne hpp] at hp
      exact hpp (h.distinct p process hp (Or.inr hdying) heq)
  simp only [TlbState.setPid,Function.update_of_ne hne]
  exact hdead.pids p hp

theorem TlbInv.step (h : TlbInv processId pcidSupportAvailable s)
    {action : TlbAction Cpu Process Page Frame}
    (hguard : InvalidationSuffices isKernel processId pcidSupportAvailable s action)
    (hstep : tlbStep isKernel processId pcidSupportAvailable s action = some s') :
    TlbInv processId pcidSupportAvailable s' := by
  cases action with
  | cache cpu page =>
    obtain ⟨frame,hmapped,rfl⟩ := Option.map_eq_some_iff.mp hstep
    exact h.cache hmapped hguard
  | evict cpu entry =>
    cases hstep
    exact h.setTlb fun _ he => List.mem_of_mem_erase he
  | vmMapPage cpu space page frame bInvalidate => exact h.vmMapPage hstep
  | vmUnmapPage cpu space page => exact h.vmUnmapPage hguard hstep
  | unmapStep cpu => exact h.unmapStep hstep
  | zeroWorker =>
    simp only [tlbStep] at hstep
    split at hstep
    · cases hstep
    · rename_i hqueue
      cases hstep
      refine ⟨h.loaded,h.tagged,h.pids,h.distinct,fun cpu => (h.unmap cpu).mono (fun _ _ => id)
        (fun _ _ _ => id) (fun _ _ he _ => Or.inl he) (fun _ => rfl),h.single,fun item hi => ?_⟩
      exact h.gone item (by rw [hqueue]; exact List.mem_cons_of_mem _ hi)
  | mmuChangeProcessSpace cpu process =>
    exact h.loadTables (fun hsupport => by rw [hsupport]; rfl) hstep
  | processCreate process =>
    simp only [tlbStep] at hstep
    split at hstep
    · rename_i habsent hfree
      obtain ⟨_,_,hstep⟩ := Option.bind_eq_some_iff.mp hstep
      cases hstep
      exact h.processCreate habsent hfree
    · cases hstep
  | activate cpu process =>
    obtain ⟨s₁,hload,rfl⟩ := Option.map_eq_some_iff.mp hstep
    exact h.activate hguard hload
  | restore cpu process => exact h.loadTables (fun hsupport => by rw [hsupport]; rfl) hstep
  | processSystemFreePid process =>
    simp only [tlbStep] at hstep
    split at hstep
    · rename_i hdying
      obtain ⟨_,_,hstep⟩ := Option.bind_eq_some_iff.mp hstep
      cases hstep
      exact h.processSystemFreePid hdying
    · cases hstep

omit [DecidableEq Cpu] [DecidableEq Process] [DecidableEq Page] [DecidableEq Frame] in
theorem TlbInv.init (h : TlbState.Initial processId s) :
    TlbInv processId pcidSupportAvailable s := by
  have hlive : ∀ process, s.life process = .live ∨ s.life process = .destroying →
      s.life process = .live := by
    intro process hp
    rcases hp with hp | hp
    · exact hp
    · rcases h.life process with hlife | hlife <;> rw [hp] at hlife <;> cases hlife
  refine ⟨fun cpu => ?_,fun cpu entry he => ?_,fun p hp => h.pids p (hlive p hp),
    fun p q hp hq => h.distinct p q (hlive p hp) (hlive q hq),fun cpu => ?_,fun cpu cpu' space hc => ?_,
    fun item hi => ?_⟩
  · rw [h.loaded cpu]
    nofun
  · rw [h.tlb cpu] at he
    cases he
  · rw [h.unmap cpu]
    trivial
  · rw [h.unmap cpu] at hc
    cases hc
  · rw [h.pagesToZero] at hi
    cases hi

/-- In every run in which the invalidations reach what is cached, no CPU translates an unmapped
address to a frame that is released, up to when the frame is handed back, and a CPU that runs a
process hits translations of the kernel and of this process only. -/
theorem stale_translations_dropped
    (h : (tlbSystem isKernel processId pcidSupportAvailable).ReachableUnder
      (InvalidationSuffices isKernel processId pcidSupportAvailable) s) :
    (∀ item ∈ s.pagesToZero, ∀ cpu, ∀ entry ∈ s.tlb cpu, entry.space = item.space →
      entry.page = item.page → entry.frame ≠ item.frame) ∧
    ∀ cpu, s.life (s.cr3 cpu) = .live → ∀ entry ∈ s.tlb cpu,
      s.Reaches processId pcidSupportAvailable cpu entry →
        entry.space = none ∨ entry.space = some (s.cr3 cpu) := by
  have hinv : TlbInv processId pcidSupportAvailable s :=
    h.invariant (fun _ hinit => .init hinit) fun _ _ _ _ hinv hguard hstep => hinv.step hguard hstep
  refine ⟨fun item hi => (hinv.gone item hi).2,fun cpu hlive entry he hhit => ?_⟩
  cases hspace : entry.space with
  | none => exact Or.inl rfl
  | some process =>
    refine Or.inr (congrArg some ?_)
    obtain ⟨htag,halive,hcr3⟩ := hinv.tagged cpu entry he process hspace
    cases hsupport : pcidSupportAvailable with
    | false => exact hcr3 hsupport
    | true =>
      rcases hhit with hglobal | hhit
      · rw [hglobal] at htag
        cases htag
      · rw [htag,pcidOf,pcidOf,hsupport,if_pos rfl,if_pos rfl] at hhit
        exact hinv.distinct process _ (Or.inl halive) (Or.inl hlive) (Option.some.inj hhit)

end Tlb

instance InvalidationSuffices.decidable {n : Nat} {Process Page Frame : Type}
    [DecidableEq Process] [DecidableEq Page] (isKernel : Page → Bool) (processId : Process → Nat)
    (pcidSupportAvailable : Bool) (s : TlbState (Fin n) Process Page Frame) :
    ∀ action, Decidable (InvalidationSuffices isKernel processId pcidSupportAvailable s action)
  | .cache cpu page =>
    inferInstanceAs (Decidable (isKernel page = false → s.life (s.cr3 cpu) = .live))
  | .vmUnmapPage cpu space page =>
    inferInstanceAs (Decidable (∀ other, ∀ entry ∈ s.tlb other, entry.space = space →
      entry.page = page → other = cpu ∧ s.Reaches processId pcidSupportAvailable cpu entry))
  | .activate cpu process =>
    inferInstanceAs (Decidable (∀ other, ∀ entry ∈ s.tlb other, entry.space = some process →
      other = cpu))
  | .evict _ _ | .vmMapPage _ _ _ _ _ | .unmapStep _ | .zeroWorker | .mmuChangeProcessSpace _ _ |
    .processCreate _ | .restore _ _ | .processSystemFreePid _ => .isTrue trivial

/-- Page 0 is the kernel's; processes 1 and 2 have the same ID. -/
def isPageZero (page : Fin 2) : Bool := page == 0

def sharedId : Fin 3 → Nat
  | 0 => 1
  | _ => 2

/-- CPU 1 runs process 1, and process 2 is not created yet. -/
def twoCpuTlb : TlbState (Fin 2) (Fin 3) (Fin 2) Nat where
  table := fun | none => fun _ => some 100 | some _ => fun _ => some 200
  pagingLock _ := false
  cr3 := fun | 0 => 0 | 1 => 1
  tlb _ := []
  unmap _ := .none
  pagesToZero := []
  life := fun | 2 => .absent | _ => .live
  pidBitmap pid := decide (pid ≤ 2)

theorem twoCpuTlb_initial : TlbState.Initial sharedId twoCpuTlb :=
  ⟨fun _ => rfl,fun _ => rfl,rfl,by decide,by decide,by decide,by decide⟩

/-- The kernel's page is unmapped where it is cached, and process 1 is destroyed on the CPU it ran
on. -/
theorem stale_translations_dropped_two : ∃ s : TlbState (Fin 2) (Fin 3) (Fin 2) Nat,
    s.pagesToZero = [⟨none,0,100⟩] ∧ s.cr3 1 = 2 ∧
      (∀ cpu, ∀ entry ∈ s.tlb cpu, entry.space = none → entry.page = 0 → entry.frame ≠ 100) ∧
      ∀ entry ∈ s.tlb 1, s.Reaches sharedId true 1 entry →
        entry.space = none ∨ entry.space = some 2 := by
  obtain ⟨s,hreach,hs⟩ := TransitionSystem.exists_reachable (tlbSystem isPageZero sharedId true)
    (InvalidationSuffices isPageZero sharedId true) twoCpuTlb twoCpuTlb_initial
    [.cache 0 0,.vmUnmapPage 0 none 0,.unmapStep 0,.unmapStep 0,.cache 1 1,.activate 1 1,
      .restore 1 0,.processSystemFreePid 1,.processCreate 2,.mmuChangeProcessSpace 1 2,.cache 1 1]
    (fun s => decide (s.pagesToZero = [⟨none,0,100⟩] ∧ s.cr3 1 = 2 ∧ s.life (s.cr3 1) = .live))
    (by decide +kernel) (by decide +kernel)
  obtain ⟨hqueue,hcr3,hlive⟩ := of_decide_eq_true hs
  obtain ⟨hgone,hown⟩ := stale_translations_dropped hreach
  refine ⟨s,hqueue,hcr3,hgone ⟨none,0,100⟩ (by rw [hqueue]; exact List.mem_singleton_self _),?_⟩
  rw [← hcr3]
  exact hown 1 hlive

/-- CPU 1 goes on to translate the kernel's page after CPU 0 released its frame; and CPU 1 goes on
to translate a page of process 1 after CPU 0 destroyed it, in process 2. -/
theorem stale_translations_hit :
    (∃ s : TlbState (Fin 2) (Fin 3) (Fin 2) Nat,
      (tlbSystem isPageZero sharedId true).Reachable s ∧
        s.pagesToZero = [⟨none,0,100⟩] ∧ ⟨none,none,0,100⟩ ∈ s.tlb 1) ∧
    ∃ s : TlbState (Fin 2) (Fin 3) (Fin 2) Nat,
      (tlbSystem isPageZero sharedId true).Reachable s ∧ s.cr3 1 = 2 ∧ s.life 2 = .live ∧
        ∃ entry ∈ s.tlb 1, s.Reaches sharedId true 1 entry ∧ entry.space = some 1 := by
  constructor
  · obtain ⟨s,hreach,hs⟩ := TransitionSystem.exists_reachable (tlbSystem isPageZero sharedId true)
      (fun _ _ => True) twoCpuTlb twoCpuTlb_initial
      [.cache 1 0,.vmUnmapPage 0 none 0,.unmapStep 0,.unmapStep 0]
      (fun s => decide (s.pagesToZero = [⟨none,0,100⟩] ∧ ⟨none,none,0,100⟩ ∈ s.tlb 1))
      (TransitionSystem.runSatisfies_of_forall (fun _ _ => trivial) _ _) (by decide +kernel)
    exact ⟨s,hreach,of_decide_eq_true hs⟩
  · obtain ⟨s,hreach,hs⟩ := TransitionSystem.exists_reachable (tlbSystem isPageZero sharedId true)
      (fun _ _ => True) twoCpuTlb twoCpuTlb_initial
      [.cache 1 1,.mmuChangeProcessSpace 1 0,.activate 0 1,.restore 0 0,.processSystemFreePid 1,
        .processCreate 2,.mmuChangeProcessSpace 1 2]
      (fun s => decide (s.cr3 1 = 2 ∧ s.life 2 = .live ∧
        ∃ entry ∈ s.tlb 1, s.Reaches sharedId true 1 entry ∧ entry.space = some 1))
      (TransitionSystem.runSatisfies_of_forall (fun _ _ => trivial) _ _) (by decide +kernel)
    exact ⟨s,hreach,of_decide_eq_true hs⟩

end Hal9000
