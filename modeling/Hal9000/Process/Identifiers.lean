import Hal9000.Framework.Identifiers
import Hal9000.Memory.PhysicalFrames
import Hal9000.Process.CachedTranslations

/-!
# Process identifiers

`_ProcessInit` allocates what a process needs, takes an identifier from the bitmap and puts the
process on the list; whatever fails goes through `_ProcessDestroy`, which gives back what there is.
The bitmap and the list are each accessed under a mutex, and a step is what happens under one of
them or between two of them. An identifier is held once as long as `_ProcessDestroy` is called only
for a live process.
-/

namespace Hal9000

/-- What `_ProcessInit` is called with. -/
structure ProcessRequest where
  name : List Char
  arguments : Option (List Char)
  deriving DecidableEq

/-- `PROCESS`; a pointer is kept as whether it is set, a string as what it points to. -/
structure ProcessObjectData where
  id : Nat
  processName : Option (List Char)
  fullCommandLine : Option (List Char)
  numberOfArguments : Nat
  headerInfo : Bool
  pagingData : Bool
  vaSpace : Bool

/-- How far the thread that creates or destroys the process is. -/
inductive ProcessStage
  | unused
  -- _ProcessInit
  | allocHeaderInfo (request : ProcessRequest)
  | allocName (request : ProcessRequest)
  | parseCommandLine (request : ProcessRequest)
  | retrievePid
  | insertInList
  /-- `_ProcessInit` has returned. -/
  | initialized
  -- MmuCreateAddressSpaceForProcess
  | createPagingTables
  | createVaSpace
  | live
  -- _ProcessDestroy
  | removeFromList
  | freeCommandLine
  | freeName
  | freeHeaderInfo
  | destroyAddressSpace
  | freePid
  | freeProcess
  | destroyed
  deriving DecidableEq

structure ProcessSystem (Process : Type) where
  pidBitmap : Bitmap
  processList : List Process
  systemProcess : Option Process
  process : Process → ProcessObjectData
  stage : Process → ProcessStage

/-- What a zeroed `PROCESS` holds. -/
def processZero : ProcessObjectData := ⟨0,none,none,0,false,false,false⟩

/-- `"%s %s"` or `"%s"`. -/
def fullCommandLineText (processName : List Char) : Option (List Char) → List Char
  | none => processName
  | some arguments => processName ++ ' ' :: arguments

def fullCommandLineSize (processName : List Char) (arguments : Option (List Char)) : Nat :=
  processName.length + ((arguments.map fun arguments => arguments.length + 1).getD 0) + 1

/-- `snprintf`: the text and its terminator have to fit. -/
def snprintf (text : List Char) (size : Nat) : Option (List Char) :=
  if text.length < size then some text else none

section Identifiers

variable {Process : Type} [DecidableEq Process]

-- `strcelem` counts the elements between separators.
variable (strcelem : List Char → Char → Nat)

def ProcessSystem.setStage (s : ProcessSystem Process) (p : Process) (stage : ProcessStage) :
    ProcessSystem Process :=
  { s with stage := Function.update s.stage p stage }

def ProcessSystem.setProcess (s : ProcessSystem Process) (p : Process) (data : ProcessObjectData) :
    ProcessSystem Process :=
  { s with process := Function.update s.process p data }

/-- `ProcessSystemPreinit`. -/
def processSystemPreinit (pidBitmapBuffer : Nat) : ProcessSystem Process where
  pidBitmap := bitmapSetBits (bitmapInit (bitmapPreinit pcidTotalNoOfValues) pidBitmapBuffer) 0 1
  processList := []
  systemProcess := none
  process _ := processZero
  stage _ := .unused

/-- `_ProcessSystemRetrieveNextPid`; `MAX_DWORD` is no valid identifier. -/
def processSystemRetrieveNextPid (pidBitmap : Bitmap) : Option (Nat × Bitmap) := do
  let (idx,pidBitmap) ← bitmapScanFromAndFlip pidBitmap 0 1
  assert (pcidIsValid idx)
  return (idx,pidBitmap)

/-- `_ProcessSystemFreePid`. -/
def processSystemFreePid (pidBitmap : Bitmap) (processId : Nat) : Option Bitmap := do
  assert (pcidIsValid processId)
  assert (pidBitmap.bits processId)
  return bitmapClearBits pidBitmap processId 1

/-- `ProcessIsSystem`, which follows the pointer to the system process. -/
def ProcessSystem.processIsSystem (s : ProcessSystem Process) (p : Process) : Option Bool :=
  s.systemProcess.map fun system => (s.process system).id == (s.process p).id

def ProcessSystem.assertNotSystem (s : ProcessSystem Process) (p : Process) : Option Unit := do
  let isSystem ← s.processIsSystem p
  assert (!isSystem)

/-- `_ProcessParseCommandLine`; `allocates` tells whether its allocation succeeds. -/
def processParseCommandLine (data : ProcessObjectData) (processName : List Char)
    (arguments : Option (List Char)) (allocates : Bool) : Option ProcessObjectData :=
  if allocates then
    (snprintf (fullCommandLineText processName arguments)
      (fullCommandLineSize processName arguments)).map fun text => { data with
        fullCommandLine := some text
        numberOfArguments := ((arguments.map fun arguments => strcelem arguments ' ').getD 0) + 1 }
  else none

/-- The next step of the thread that creates or destroys the process. The flag is whether the call
it makes there succeeds. -/
def processRun (s : ProcessSystem Process) (p : Process) (succeeds : Bool) :
    Option (ProcessSystem Process) :=
  let data := s.process p
  match s.stage p with
  | .unused | .live | .destroyed => none
  | .allocHeaderInfo request =>
    if succeeds then some ((s.setProcess p { data with headerInfo := true }).setStage p
      (.allocName request))
    else some (s.setStage p .removeFromList)
  | .allocName request =>
    if succeeds then some ((s.setProcess p { data with processName := some request.name }).setStage
      p (.parseCommandLine request))
    else some (s.setStage p .removeFromList)
  | .parseCommandLine request =>
    match processParseCommandLine strcelem data request.name request.arguments succeeds with
    | some data => some ((s.setProcess p data).setStage p .retrievePid)
    | none => some (s.setStage p .removeFromList)
  | .retrievePid => do
    let (id,pidBitmap) ← processSystemRetrieveNextPid s.pidBitmap
    return ({ s with pidBitmap }.setProcess p { data with id }).setStage p .insertInList
  | .insertInList =>
    some ({ s with processList := s.processList ++ [p] }.setStage p .initialized)
  | .initialized =>
    -- UmApplicationRetrieveHeader
    some (s.setStage p (if succeeds then .createPagingTables else .removeFromList))
  | .createPagingTables => do
    s.assertNotSystem p
    return if succeeds then
      (s.setProcess p { data with pagingData := true }).setStage p .createVaSpace
    else s.setStage p .removeFromList
  | .createVaSpace =>
    if succeeds then some ((s.setProcess p { data with vaSpace := true }).setStage p .live)
    else do
      -- MmuDestroyAddressSpaceForProcess loads the tables once more
      s.assertNotSystem p
      assert (pcidIsValid data.id)
      return (s.setProcess p { data with pagingData := false }).setStage p .removeFromList
  | .removeFromList => do
    s.assertNotSystem p
    return { s with processList := s.processList.erase p }.setStage p .freeCommandLine
  | .freeCommandLine =>
    some ((s.setProcess p { data with fullCommandLine := none }).setStage p .freeName)
  | .freeName =>
    some ((s.setProcess p { data with processName := none }).setStage p .freeHeaderInfo)
  | .freeHeaderInfo =>
    some ((s.setProcess p { data with headerInfo := false }).setStage p .destroyAddressSpace)
  | .destroyAddressSpace => do
    s.assertNotSystem p
    assert (!data.pagingData || pcidIsValid data.id)
    return (s.setProcess p { data with vaSpace := false, pagingData := false }).setStage p .freePid
  | .freePid =>
    if data.id = 0 then some (s.setStage p .freeProcess)
    else (processSystemFreePid s.pidBitmap data.id).map fun pidBitmap =>
      { s with pidBitmap }.setStage p .freeProcess
  | .freeProcess => some (s.setStage p .destroyed)

/-- `_ProcessInit` is called, and has its `PROCESS`: memory that the heap gives out again is another
one. -/
def processInit (s : ProcessSystem Process) (p : Process) (request : ProcessRequest) :
    Option (ProcessSystem Process) :=
  if s.stage p = .unused then
    some ((s.setProcess p processZero).setStage p (.allocHeaderInfo request))
  else none

/-- What `ProcessSystemInitSystemProcess` does behind `_ProcessInit`. -/
def initSystemProcess (s : ProcessSystem Process) (p : Process) : Option (ProcessSystem Process) :=
  if s.stage p = .initialized ∧ s.systemProcess = none then
    some (({ s with systemProcess := some p }.setProcess p
      { s.process p with pagingData := true, vaSpace := true }).setStage p .live)
  else none

/-- `_ProcessDestroy` is called, whatever state the process is in. -/
def ProcessSystem.processDestroy (s : ProcessSystem Process) (p : Process) : ProcessSystem Process :=
  s.setStage p .removeFromList

def ProcessStage.hasFreedPid : ProcessStage → Bool
  | .freeProcess | .destroyed => true
  | _ => false

/-- The identifier that the process has taken and not given back. -/
def ProcessSystem.identifier (s : ProcessSystem Process) (p : Process) : Option Nat :=
  if (s.stage p).hasFreedPid = true ∨ (s.process p).id = 0 then none else some (s.process p).id

/-- Whether the process is on the list: from `_ProcessInit` on, until it is destroyed. -/
def ProcessStage.isListed (id : Nat) : ProcessStage → Bool
  | .initialized | .createPagingTables | .createVaSpace | .live => true
  | .removeFromList => decide (id ≠ 0)
  | _ => false

def ProcessObjectData.NoAddressSpace (data : ProcessObjectData) : Prop :=
  data.pagingData = false ∧ data.vaSpace = false

def ProcessObjectData.NoStrings (data : ProcessObjectData) : Prop :=
  data.fullCommandLine = none ∧ data.processName = none

/-- What `_ProcessInit` has filled in for a request. -/
def ProcessObjectData.Describes (data : ProcessObjectData) (request : ProcessRequest) : Prop :=
  data.headerInfo = true ∧ data.processName = some request.name ∧
    data.fullCommandLine = some (fullCommandLineText request.name request.arguments) ∧
    data.numberOfArguments =
      ((request.arguments.map fun arguments => strcelem arguments ' ').getD 0) + 1

/-- Which pointers are set, and whether there is an identifier. -/
def ProcessObjectData.Fits (data : ProcessObjectData) : ProcessStage → Prop
  | .unused | .allocHeaderInfo _ => data.id = 0 ∧ data.NoAddressSpace
  | .allocName _ => data.id = 0 ∧ data.NoAddressSpace ∧ data.headerInfo = true
  | .parseCommandLine request => data.id = 0 ∧ data.NoAddressSpace ∧ data.headerInfo = true ∧
    data.processName = some request.name
  | .retrievePid =>
    data.id = 0 ∧ data.NoAddressSpace ∧ ∃ request, data.Describes strcelem request
  | .insertInList | .initialized | .createPagingTables =>
    data.id ≠ 0 ∧ data.NoAddressSpace ∧ ∃ request, data.Describes strcelem request
  | .createVaSpace => data.id ≠ 0 ∧ data.pagingData = true ∧ data.vaSpace = false ∧
    ∃ request, data.Describes strcelem request
  | .live => data.id ≠ 0 ∧ data.pagingData = true ∧ data.vaSpace = true ∧
    ∃ request, data.Describes strcelem request
  | .removeFromList | .freeCommandLine => data.id = 0 → data.NoAddressSpace
  | .freeName => (data.id = 0 → data.NoAddressSpace) ∧ data.fullCommandLine = none
  | .freeHeaderInfo => (data.id = 0 → data.NoAddressSpace) ∧ data.NoStrings
  | .destroyAddressSpace =>
    (data.id = 0 → data.NoAddressSpace) ∧ data.NoStrings ∧ data.headerInfo = false
  | .freePid | .freeProcess | .destroyed =>
    data.NoAddressSpace ∧ data.NoStrings ∧ data.headerInfo = false

structure IdentifierInv (s : ProcessSystem Process) : Prop where
  bitCount : s.pidBitmap.bitCount = pcidTotalNoOfValues
  held : HeldOnce (fun n => s.pidBitmap.bits n = true) (fun n => n = 0) s.identifier
  valid : ∀ p n, s.identifier p = some n → pcidIsValid n = true
  fits : ∀ p, (s.process p).Fits strcelem (s.stage p)
  nodup : s.processList.Nodup
  listed : ∀ p, p ∈ s.processList ↔ (s.stage p).isListed (s.process p).id = true
  system : ∀ p, s.systemProcess = some p →
    (s.process p).id ≠ 0 ∧ (s.stage p = .live ∨ s.stage p = .removeFromList)

variable {strcelem} {s s' : ProcessSystem Process} {p : Process}

omit [DecidableEq Process] in
theorem IdentifierInv.update (h : IdentifierInv strcelem s)
    (hother : ∀ q, q ≠ p → s'.process q = s.process q ∧ s'.stage q = s.stage q)
    (hcount : s'.pidBitmap.bitCount = s.pidBitmap.bitCount)
    (hheld : HeldOnce (fun n => s'.pidBitmap.bits n = true) (fun n => n = 0) s'.identifier)
    (hvalid : ∀ n, s'.identifier p = some n → pcidIsValid n = true)
    (hfits : (s'.process p).Fits strcelem (s'.stage p)) (hnodup : s'.processList.Nodup)
    (hmem : ∀ q, q ≠ p → (q ∈ s'.processList ↔ q ∈ s.processList))
    (hlisted : p ∈ s'.processList ↔ (s'.stage p).isListed (s'.process p).id = true)
    (hsystem : ∀ q, q ≠ p → s'.systemProcess = some q → s.systemProcess = some q)
    (hself : s'.systemProcess = some p →
      (s'.process p).id ≠ 0 ∧ (s'.stage p = .live ∨ s'.stage p = .removeFromList)) :
    IdentifierInv strcelem s' := by
  refine ⟨hcount.trans h.bitCount,hheld,?_,?_,hnodup,?_,?_⟩
  · intro q n hq
    by_cases hqp : q = p
    · exact hvalid n (hqp ▸ hq)
    · rw [ProcessSystem.identifier,(hother q hqp).1,(hother q hqp).2] at hq
      exact h.valid q n hq
  · intro q
    by_cases hqp : q = p
    · rw [hqp]
      exact hfits
    · rw [(hother q hqp).1,(hother q hqp).2]
      exact h.fits q
  · intro q
    by_cases hqp : q = p
    · rw [hqp]
      exact hlisted
    · rw [hmem q hqp,(hother q hqp).1,(hother q hqp).2]
      exact h.listed q
  · intro q hq
    by_cases hqp : q = p
    · rw [hqp] at hq ⊢
      exact hself hq
    · rw [(hother q hqp).1,(hother q hqp).2]
      exact h.system q (hsystem q hqp hq)

section Fields

variable (data : ProcessObjectData) (stage : ProcessStage)

@[simp] theorem advanced_process_self :
    ((s.setProcess p data).setStage p stage).process p = data := by
  simp [ProcessSystem.setStage,ProcessSystem.setProcess]

@[simp] theorem advanced_stage_self : ((s.setProcess p data).setStage p stage).stage p = stage := by
  simp [ProcessSystem.setStage]

theorem advanced_other {q : Process} (hq : q ≠ p) :
    ((s.setProcess p data).setStage p stage).process q = s.process q ∧
      ((s.setProcess p data).setStage p stage).stage q = s.stage q := by
  simp [ProcessSystem.setStage,ProcessSystem.setProcess,hq]

theorem setStage_eq_advanced : s.setStage p stage =
    (s.setProcess p (s.process p)).setStage p stage := by
  simp [ProcessSystem.setStage,ProcessSystem.setProcess]

@[simp] theorem advanced_processList :
    ((s.setProcess p data).setStage p stage).processList = s.processList := rfl

@[simp] theorem advanced_systemProcess :
    ((s.setProcess p data).setStage p stage).systemProcess = s.systemProcess := rfl

@[simp] theorem advanced_pidBitmap :
    ((s.setProcess p data).setStage p stage).pidBitmap = s.pidBitmap := rfl

end Fields

omit [DecidableEq Process] in
theorem identifier_congr (hprocess : s'.process p = s.process p) (hstage : s'.stage p = s.stage p) :
    s'.identifier p = s.identifier p := by
  rw [ProcessSystem.identifier,ProcessSystem.identifier,hprocess,hstage]

theorem advanced_identifier (data : ProcessObjectData) (stage : ProcessStage)
    (h : (if stage.hasFreedPid = true ∨ data.id = 0 then none else some data.id) =
      s.identifier p) (q : Process) :
    ((s.setProcess p data).setStage p stage).identifier q = s.identifier q := by
  by_cases hq : q = p
  · rw [hq,← h]
    simp [ProcessSystem.identifier]
  · exact identifier_congr (advanced_other data stage hq).1 (advanced_other data stage hq).2

theorem IdentifierInv.move (h : IdentifierInv strcelem s) (data : ProcessObjectData)
    (stage : ProcessStage)
    (hidentifier : (if stage.hasFreedPid = true ∨ data.id = 0 then none else some data.id) =
      s.identifier p)
    (hfits : data.Fits strcelem stage)
    (hlisted : stage.isListed data.id = (s.stage p).isListed (s.process p).id)
    (hsystem : s.systemProcess = some p →
      data.id ≠ 0 ∧ (stage = .live ∨ stage = .removeFromList)) :
    IdentifierInv strcelem ((s.setProcess p data).setStage p stage) := by
  have hsame := advanced_identifier data stage hidentifier
  apply h.update (p := p)
  · exact fun q hq => advanced_other data stage hq
  · rfl
  · exact h.held.congr (fun _ => Iff.rfl) hsame
  · intro n hn
    rw [hsame] at hn
    exact h.valid p n hn
  · simpa using hfits
  · exact h.nodup
  · exact fun q hq => Iff.rfl
  · have hp := h.listed p
    rw [← hlisted] at hp
    simpa using hp
  · exact fun q _ hq => hq
  · simpa using hsystem

omit [DecidableEq Process] in
theorem retrieveNextPid_some {pidBitmap pidBitmap' : Bitmap} {id : Nat}
    (h : processSystemRetrieveNextPid pidBitmap = some (id,pidBitmap')) :
    pidBitmap.bits id = false ∧ pcidIsValid id = true ∧ pidBitmap'.bitCount = pidBitmap.bitCount ∧
      ∀ n, pidBitmap'.bits n = true ↔ n = id ∨ pidBitmap.bits n = true := by
  obtain ⟨⟨idx,flipped⟩,hscan,h⟩ := Option.bind_eq_some_iff.mp h
  obtain ⟨_,hvalid,h⟩ := Option.bind_eq_some_iff.mp h
  obtain ⟨rfl,rfl⟩ := Prod.mk.inj (Option.some.inj h)
  obtain ⟨index,hfound,heq⟩ := Option.map_eq_some_iff.mp hscan
  obtain ⟨rfl,rfl⟩ := Prod.mk.inj heq
  refine ⟨(bitmapScanFrom_some hfound).2 0 (by decide),by simpa using hvalid,rfl,?_⟩
  intro n
  have hone : index ≤ n ∧ n ≤ index ↔ n = index := by omega
  simp [bitmapSetBits,hone]

theorem retrieveNextPid_none {pidBitmap : Bitmap}
    (hcount : pidBitmap.bitCount = pcidTotalNoOfValues) (hzero : pidBitmap.bits 0 = true)
    (h : processSystemRetrieveNextPid pidBitmap = none) {n : Nat}
    (hn : n < pcidTotalNoOfValues) : pidBitmap.bits n = true := by
  cases hscan : bitmapScanFrom pidBitmap 0 1 with
  | none =>
    rw [bitmapScanFrom,List.find?_range_eq_none] at hscan
    have hbit := hscan n (by rw [hcount]; exact hn)
    simpa [hcount,Nat.succ_le_of_lt hn] using hbit
  | some index =>
    obtain ⟨hbound,hclear⟩ := bitmapScanFrom_some hscan
    have hne : index ≠ 0 := by
      rintro rfl
      simp [hzero] at hclear
    have hvalid : pcidIsValid index = true := by
      rw [pcidIsValid,decide_eq_true_eq]
      omega
    simp [processSystemRetrieveNextPid,bitmapScanFromAndFlip,hscan,hvalid] at h

theorem IdentifierInv.retrievePid (h : IdentifierInv strcelem s) (hstage : s.stage p = .retrievePid)
    {id : Nat} {pidBitmap : Bitmap}
    (hpid : processSystemRetrieveNextPid s.pidBitmap = some (id,pidBitmap)) :
    IdentifierInv strcelem (({ s with pidBitmap }.setProcess p { s.process p with id }).setStage p
      .insertInList) := by
  obtain ⟨hclear,hvalid,hcount,hbits⟩ := retrieveNextPid_some hpid
  have hfits := h.fits p
  rw [hstage] at hfits
  have hne : id ≠ 0 := by
    have hrange := of_decide_eq_true hvalid
    omega
  have hnone : s.identifier p = none := by simp [ProcessSystem.identifier,hfits.1]
  have hself : (({ s with pidBitmap }.setProcess p { s.process p with id }).setStage p
      .insertInList).identifier p = some id := by
    simp [ProcessSystem.identifier,hne,ProcessStage.hasFreedPid]
  apply h.update (p := p)
  · exact fun q hq => advanced_other (s := { s with pidBitmap }) _ _ hq
  · exact hcount
  · apply h.held.take (by simp [hclear]) hnone hbits hself
    intro q hq
    have hsame := advanced_other (s := { s with pidBitmap }) { s.process p with id }
      .insertInList hq
    exact identifier_congr hsame.1 hsame.2
  · intro n hn
    rw [← Option.some.inj (hself.symm.trans hn)]
    exact hvalid
  · rw [advanced_process_self,advanced_stage_self]
    exact ⟨hne,hfits.2⟩
  · exact h.nodup
  · exact fun q _ => Iff.rfl
  · have hp := h.listed p
    rw [hstage] at hp
    simpa [ProcessStage.isListed] using hp
  · exact fun q _ hq => hq
  · intro hsystem
    have hlive := h.system p hsystem
    simp [hstage] at hlive

theorem IdentifierInv.insertInList (h : IdentifierInv strcelem s)
    (hstage : s.stage p = .insertInList) : IdentifierInv strcelem
      ({ s with processList := s.processList ++ [p] }.setStage p .initialized) := by
  have hfits := h.fits p
  have hp := h.listed p
  rw [hstage] at hfits hp
  have hnot : p ∉ s.processList := by simpa [ProcessStage.isListed] using hp
  rw [setStage_eq_advanced]
  have hother : ∀ q, q ≠ p → _ := fun q hq =>
    advanced_other (s := { s with processList := s.processList ++ [p] }) (s.process p)
      .initialized hq
  apply h.update (p := p)
  · exact hother
  · rfl
  · apply h.held.congr (fun _ => Iff.rfl)
    intro q
    by_cases hq : q = p
    · simp [ProcessSystem.identifier,hq,hstage,ProcessStage.hasFreedPid]
    · exact identifier_congr (hother q hq).1 (hother q hq).2
  · intro n hn
    apply h.valid p n
    simpa [ProcessSystem.identifier,hstage,ProcessStage.hasFreedPid] using hn
  · rw [advanced_process_self,advanced_stage_self]
    exact hfits
  · exact List.nodup_append.mpr ⟨h.nodup,List.nodup_singleton p,by
      intro q hq r hr
      rw [List.mem_singleton.mp hr]
      exact fun heq => hnot (heq ▸ hq)⟩
  · intro q hq
    change q ∈ s.processList ++ [p] ↔ _
    simp [hq]
  · rw [advanced_process_self,advanced_stage_self]
    change p ∈ s.processList ++ [p] ↔ _
    simp [ProcessStage.isListed]
  · exact fun q _ hq => hq
  · intro hsystem
    have hlive := h.system p hsystem
    simp [hstage] at hlive

omit [DecidableEq Process] in
theorem IdentifierInv.not_system (h : IdentifierInv strcelem s) (hlive : s.stage p ≠ .live)
    (hremove : s.stage p ≠ .removeFromList) : s.systemProcess ≠ some p := by
  intro hsystem
  rcases (h.system p hsystem).2 with hstage | hstage
  · exact hlive hstage
  · exact hremove hstage

omit [DecidableEq Process] in
theorem assertNotSystem_some (h : s.assertNotSystem p = some ()) : s.systemProcess ≠ some p := by
  intro hsystem
  simp [ProcessSystem.assertNotSystem,ProcessSystem.processIsSystem,hsystem,assert] at h

omit [DecidableEq Process] in
theorem IdentifierInv.system_identifier (h : IdentifierInv strcelem s)
    (hsystem : s.systemProcess = some p) : s.identifier p = some (s.process p).id := by
  obtain ⟨hne,hstage⟩ := h.system p hsystem
  rcases hstage with hstage | hstage <;>
    simp [ProcessSystem.identifier,hne,hstage,ProcessStage.hasFreedPid]

omit [DecidableEq Process] in
theorem IdentifierInv.assertNotSystem (h : IdentifierInv strcelem s) {q : Process}
    (hsystem : s.systemProcess = some q) (hne : q ≠ p)
    (hfreed : (s.stage p).hasFreedPid = false) : s.assertNotSystem p = some () := by
  have hid : (s.process q).id ≠ (s.process p).id := by
    intro heq
    have hzero := (h.system q hsystem).1
    apply hne
    apply h.held.unique q p (s.process q).id (h.system_identifier hsystem)
    rw [heq] at hzero ⊢
    simp [ProcessSystem.identifier,hfreed,hzero]
  simp [ProcessSystem.assertNotSystem,ProcessSystem.processIsSystem,hsystem,hid,assert]

theorem IdentifierInv.removeFromList (h : IdentifierInv strcelem s)
    (hstage : s.stage p = .removeFromList) (hnot : s.systemProcess ≠ some p) :
    IdentifierInv strcelem ({ s with processList := s.processList.erase p }.setStage p
      .freeCommandLine) := by
  have hfits := h.fits p
  rw [hstage] at hfits
  rw [setStage_eq_advanced]
  have hother : ∀ q, q ≠ p → _ := fun q hq =>
    advanced_other (s := { s with processList := s.processList.erase p }) (s.process p)
      .freeCommandLine hq
  apply h.update (p := p)
  · exact hother
  · rfl
  · apply h.held.congr (fun _ => Iff.rfl)
    intro q
    by_cases hq : q = p
    · simp [ProcessSystem.identifier,hq,hstage,ProcessStage.hasFreedPid]
    · exact identifier_congr (hother q hq).1 (hother q hq).2
  · intro n hn
    apply h.valid p n
    simpa [ProcessSystem.identifier,hstage,ProcessStage.hasFreedPid] using hn
  · rw [advanced_process_self,advanced_stage_self]
    exact hfits
  · exact h.nodup.erase p
  · intro q hq
    change q ∈ s.processList.erase p ↔ _
    exact List.mem_erase_of_ne hq
  · rw [advanced_stage_self]
    change p ∈ s.processList.erase p ↔ _
    simp [ProcessStage.isListed,h.nodup.not_mem_erase]
  · exact fun q _ hq => hq
  · exact fun hsystem => absurd hsystem hnot

theorem IdentifierInv.freePid (h : IdentifierInv strcelem s) (hstage : s.stage p = .freePid)
    {pidBitmap : Bitmap} (hid : (s.process p).id ≠ 0)
    (hpid : processSystemFreePid s.pidBitmap (s.process p).id = some pidBitmap) :
    IdentifierInv strcelem ({ s with pidBitmap }.setStage p .freeProcess) := by
  have hfits := h.fits p
  have hlisted := h.listed p
  rw [hstage] at hfits hlisted
  obtain ⟨_,_,hpid⟩ := Option.bind_eq_some_iff.mp hpid
  obtain ⟨_,_,hpid⟩ := Option.bind_eq_some_iff.mp hpid
  have hclear : bitmapClearBits s.pidBitmap (s.process p).id 1 = pidBitmap := Option.some.inj hpid
  rw [setStage_eq_advanced]
  have hother : ∀ q, q ≠ p → _ := fun q hq =>
    advanced_other (s := { s with pidBitmap }) (s.process p) .freeProcess hq
  have hself : (({ s with pidBitmap }.setProcess p (s.process p)).setStage p
      .freeProcess).identifier p = none := by
    simp [ProcessSystem.identifier,ProcessStage.hasFreedPid]
  apply h.update (p := p)
  · exact hother
  · rw [← hclear]
    rfl
  · have hholds : s.identifier p = some (s.process p).id := by
      simp [ProcessSystem.identifier,hstage,hid,ProcessStage.hasFreedPid]
    apply h.held.giveBack hholds _ hself
    · exact fun q hq => identifier_congr (hother q hq).1 (hother q hq).2
    · intro n
      rw [advanced_pidBitmap,← hclear]
      simp [bitmapClearBits]
  · intro n hn
    rw [hself] at hn
    cases hn
  · rw [advanced_process_self,advanced_stage_self]
    exact hfits
  · exact h.nodup
  · exact fun q _ => Iff.rfl
  · simpa [ProcessStage.isListed] using hlisted
  · exact fun q _ hq => hq
  · intro hsystem
    have hlive := (h.system p hsystem).2
    simp [hstage] at hlive

theorem IdentifierInv.systemProcess (h : IdentifierInv strcelem s)
    (hstage : s.stage p = .initialized) :
    IdentifierInv strcelem (({ s with systemProcess := some p }.setProcess p
      { s.process p with pagingData := true, vaSpace := true }).setStage p .live) := by
  have hfits := h.fits p
  have hlisted := h.listed p
  rw [hstage] at hfits hlisted
  have hother : ∀ q, q ≠ p → _ := fun q hq =>
    advanced_other (s := { s with systemProcess := some p })
      { s.process p with pagingData := true, vaSpace := true } .live hq
  apply h.update (p := p)
  · exact hother
  · rfl
  · apply h.held.congr (fun _ => Iff.rfl)
    intro q
    by_cases hq : q = p
    · simp [ProcessSystem.identifier,hq,hstage,ProcessStage.hasFreedPid]
    · exact identifier_congr (hother q hq).1 (hother q hq).2
  · intro n hn
    apply h.valid p n
    simpa [ProcessSystem.identifier,hstage,ProcessStage.hasFreedPid] using hn
  · rw [advanced_process_self,advanced_stage_self]
    exact ⟨hfits.1,rfl,rfl,hfits.2.2⟩
  · exact h.nodup
  · exact fun q _ => Iff.rfl
  · simpa [ProcessStage.isListed] using hlisted
  · intro q hq heq
    exact absurd (Option.some.inj heq).symm hq
  · intro _
    rw [advanced_process_self,advanced_stage_self]
    exact ⟨hfits.1,Or.inl rfl⟩

theorem IdentifierInv.fail (h : IdentifierInv strcelem s)
    (hfreed : (s.stage p).hasFreedPid = false)
    (hspace : (s.process p).id = 0 → (s.process p).NoAddressSpace)
    (hlisted : (s.stage p).isListed (s.process p).id = decide ((s.process p).id ≠ 0))
    (hnot : s.systemProcess ≠ some p) :
    IdentifierInv strcelem (s.setStage p .removeFromList) := by
  rw [setStage_eq_advanced]
  apply h.move
  · rw [ProcessSystem.identifier,hfreed]
    rfl
  · exact hspace
  · exact hlisted.symm
  · exact fun hsystem => absurd hsystem hnot

omit [DecidableEq Process] in
theorem fullCommandLine_fits (processName : List Char) (arguments : Option (List Char)) :
    (fullCommandLineText processName arguments).length <
      fullCommandLineSize processName arguments := by
  cases arguments with
  | none => simp [fullCommandLineText,fullCommandLineSize]
  | some arguments => simp [fullCommandLineText,fullCommandLineSize]

omit [DecidableEq Process] in
theorem parseCommandLine_some {data data' : ProcessObjectData} {request : ProcessRequest}
    {allocates : Bool} (hheader : data.headerInfo = true)
    (hname : data.processName = some request.name)
    (h : processParseCommandLine strcelem data request.name request.arguments allocates =
      some data') :
    data'.Describes strcelem request ∧ data'.id = data.id ∧
      (data'.pagingData = data.pagingData ∧ data'.vaSpace = data.vaSpace) := by
  cases allocates with
  | false => simp [processParseCommandLine] at h
  | true =>
    rw [processParseCommandLine,if_pos rfl,snprintf,if_pos (fullCommandLine_fits _ _)] at h
    rw [← Option.some.inj h]
    exact ⟨⟨hheader,hname,rfl,rfl⟩,rfl,rfl,rfl⟩

theorem IdentifierInv.run_init (h : IdentifierInv strcelem s) {succeeds : Bool}
    (hstage : (∃ request, s.stage p = .allocHeaderInfo request) ∨
      (∃ request, s.stage p = .allocName request) ∨
      (∃ request, s.stage p = .parseCommandLine request) ∨ s.stage p = .retrievePid ∨
      s.stage p = .insertInList ∨ s.stage p = .initialized)
    (hrun : processRun strcelem s p succeeds = some s') : IdentifierInv strcelem s' := by
  have hfits := h.fits p
  have hnot := h.not_system (p := p)
  rcases hstage with hstage | hstage | hstage | hstage | hstage | hstage
  · obtain ⟨request,hstage⟩ := hstage
    rw [hstage] at hfits
    simp only [hstage,ne_eq,reduceCtorEq,not_false_eq_true,forall_const] at hnot
    cases succeeds with
    | false =>
      rw [processRun,hstage] at hrun
      cases Option.some.inj hrun
      apply h.fail _ _ _ hnot <;> simp [hstage,hfits.1,hfits.2,ProcessStage.hasFreedPid,
        ProcessStage.isListed]
    | true =>
      rw [processRun,hstage] at hrun
      cases Option.some.inj hrun
      apply h.move
      · simp [ProcessSystem.identifier,hfits.1]
      · exact ⟨hfits.1,hfits.2,rfl⟩
      · simp [hstage,ProcessStage.isListed]
      · exact fun hsystem => absurd hsystem hnot
  · obtain ⟨request,hstage⟩ := hstage
    rw [hstage] at hfits
    simp only [hstage,ne_eq,reduceCtorEq,not_false_eq_true,forall_const] at hnot
    cases succeeds with
    | false =>
      rw [processRun,hstage] at hrun
      cases Option.some.inj hrun
      apply h.fail _ _ _ hnot <;> simp [hstage,hfits.1,hfits.2.1,ProcessStage.hasFreedPid,
        ProcessStage.isListed]
    | true =>
      rw [processRun,hstage] at hrun
      cases Option.some.inj hrun
      apply h.move
      · simp [ProcessSystem.identifier,hfits.1]
      · exact ⟨hfits.1,hfits.2.1,hfits.2.2,rfl⟩
      · simp [hstage,ProcessStage.isListed]
      · exact fun hsystem => absurd hsystem hnot
  · obtain ⟨request,hstage⟩ := hstage
    rw [hstage] at hfits
    simp only [hstage,ne_eq,reduceCtorEq,not_false_eq_true,forall_const] at hnot
    rw [processRun,hstage] at hrun
    cases hparse : processParseCommandLine strcelem (s.process p) request.name request.arguments
        succeeds with
    | none =>
      simp only [hparse] at hrun
      cases Option.some.inj hrun
      apply h.fail _ _ _ hnot <;> simp [hstage,hfits.1,hfits.2.1,ProcessStage.hasFreedPid,
        ProcessStage.isListed]
    | some data =>
      simp only [hparse] at hrun
      cases Option.some.inj hrun
      obtain ⟨hdescribes,hid,hspace⟩ := parseCommandLine_some hfits.2.2.1 hfits.2.2.2 hparse
      rw [hfits.1] at hid
      apply h.move
      · simp [ProcessSystem.identifier,hfits.1,hid]
      · exact ⟨hid,⟨hspace.1.trans hfits.2.1.1,hspace.2.trans hfits.2.1.2⟩,request,hdescribes⟩
      · simp [hstage,ProcessStage.isListed]
      · exact fun hsystem => absurd hsystem hnot
  · rw [processRun,hstage] at hrun
    obtain ⟨⟨id,pidBitmap⟩,hpid,hrun⟩ := Option.bind_eq_some_iff.mp hrun
    cases Option.some.inj hrun
    exact h.retrievePid hstage hpid
  · rw [processRun,hstage] at hrun
    cases Option.some.inj hrun
    exact h.insertInList hstage
  · rw [hstage] at hfits
    simp only [hstage,ne_eq,reduceCtorEq,not_false_eq_true,forall_const] at hnot
    rw [processRun,hstage] at hrun
    cases Option.some.inj hrun
    cases succeeds with
    | false =>
      apply h.fail _ _ _ hnot <;> simp [hstage,hfits.1,ProcessStage.hasFreedPid,
        ProcessStage.isListed]
    | true =>
      rw [setStage_eq_advanced]
      apply h.move
      · simp [ProcessSystem.identifier,hstage,ProcessStage.hasFreedPid]
      · exact hfits
      · simp [hstage,ProcessStage.isListed]
      · exact fun hsystem => absurd hsystem hnot

theorem IdentifierInv.run_create (h : IdentifierInv strcelem s) {succeeds : Bool}
    (hstage : s.stage p = .createPagingTables ∨ s.stage p = .createVaSpace)
    (hrun : processRun strcelem s p succeeds = some s') : IdentifierInv strcelem s' := by
  have hfits := h.fits p
  have hnot := h.not_system (p := p)
  rcases hstage with hstage | hstage
  · rw [hstage] at hfits
    simp only [hstage,ne_eq,reduceCtorEq,not_false_eq_true,forall_const] at hnot
    rw [processRun,hstage] at hrun
    obtain ⟨_,_,hrun⟩ := Option.bind_eq_some_iff.mp hrun
    cases Option.some.inj hrun
    cases succeeds with
    | false =>
      apply h.fail _ _ _ hnot <;> simp [hstage,hfits.1,ProcessStage.hasFreedPid,
        ProcessStage.isListed]
    | true =>
      apply h.move
      · simp [ProcessSystem.identifier,hstage,ProcessStage.hasFreedPid]
      · exact ⟨hfits.1,rfl,hfits.2.1.2,hfits.2.2⟩
      · simp [hstage,ProcessStage.isListed]
      · exact fun hsystem => absurd hsystem hnot
  · rw [hstage] at hfits
    simp only [hstage,ne_eq,reduceCtorEq,not_false_eq_true,forall_const] at hnot
    rw [processRun,hstage] at hrun
    cases succeeds with
    | false =>
      obtain ⟨_,_,hrun⟩ := Option.bind_eq_some_iff.mp hrun
      obtain ⟨_,_,hrun⟩ := Option.bind_eq_some_iff.mp hrun
      cases Option.some.inj hrun
      apply h.move
      · simp [ProcessSystem.identifier,hstage,ProcessStage.hasFreedPid]
      · exact fun hid => absurd hid hfits.1
      · simp [hstage,hfits.1,ProcessStage.isListed]
      · exact fun hsystem => absurd hsystem hnot
    | true =>
      cases Option.some.inj hrun
      apply h.move
      · simp [ProcessSystem.identifier,hstage,ProcessStage.hasFreedPid]
      · exact ⟨hfits.1,hfits.2.1,rfl,hfits.2.2.2⟩
      · simp [hstage,ProcessStage.isListed]
      · exact fun hsystem => absurd hsystem hnot

theorem IdentifierInv.run_destroy (h : IdentifierInv strcelem s) {succeeds : Bool}
    (hstage : s.stage p = .removeFromList ∨ s.stage p = .freeCommandLine ∨
      s.stage p = .freeName ∨ s.stage p = .freeHeaderInfo ∨ s.stage p = .destroyAddressSpace ∨
      s.stage p = .freePid ∨ s.stage p = .freeProcess)
    (hrun : processRun strcelem s p succeeds = some s') : IdentifierInv strcelem s' := by
  have hfits := h.fits p
  have hnot := h.not_system (p := p)
  rcases hstage with hstage | hstage | hstage | hstage | hstage | hstage | hstage <;>
    rw [hstage] at hfits <;> rw [processRun,hstage] at hrun <;>
    simp only [hstage,ne_eq,reduceCtorEq,not_false_eq_true,forall_const] at hnot
  · obtain ⟨_,hassert,hrun⟩ := Option.bind_eq_some_iff.mp hrun
    cases Option.some.inj hrun
    exact h.removeFromList hstage (assertNotSystem_some hassert)
  · cases Option.some.inj hrun
    apply h.move
    · simp [ProcessSystem.identifier,hstage,ProcessStage.hasFreedPid]
    · exact ⟨hfits,rfl⟩
    · simp [hstage,ProcessStage.isListed]
    · exact fun hsystem => absurd hsystem hnot
  · cases Option.some.inj hrun
    apply h.move
    · simp [ProcessSystem.identifier,hstage,ProcessStage.hasFreedPid]
    · exact ⟨hfits.1,hfits.2,rfl⟩
    · simp [hstage,ProcessStage.isListed]
    · exact fun hsystem => absurd hsystem hnot
  · cases Option.some.inj hrun
    apply h.move
    · simp [ProcessSystem.identifier,hstage,ProcessStage.hasFreedPid]
    · exact ⟨hfits.1,hfits.2,rfl⟩
    · simp [hstage,ProcessStage.isListed]
    · exact fun hsystem => absurd hsystem hnot
  · obtain ⟨_,_,hrun⟩ := Option.bind_eq_some_iff.mp hrun
    obtain ⟨_,_,hrun⟩ := Option.bind_eq_some_iff.mp hrun
    cases Option.some.inj hrun
    apply h.move
    · simp [ProcessSystem.identifier,hstage,ProcessStage.hasFreedPid]
    · exact ⟨⟨rfl,rfl⟩,hfits.2⟩
    · simp [hstage,ProcessStage.isListed]
    · exact fun hsystem => absurd hsystem hnot
  · by_cases hid : (s.process p).id = 0
    · simp only [hid,if_true] at hrun
      cases Option.some.inj hrun
      rw [setStage_eq_advanced]
      apply h.move
      · simp [ProcessSystem.identifier,hid]
      · exact hfits
      · simp [hstage,ProcessStage.isListed]
      · exact fun hsystem => absurd hsystem hnot
    · simp only [hid,if_false] at hrun
      obtain ⟨pidBitmap,hpid,hrun⟩ := Option.map_eq_some_iff.mp hrun
      rw [← hrun]
      exact h.freePid hstage hid hpid
  · cases Option.some.inj hrun
    rw [setStage_eq_advanced]
    apply h.move
    · simp [ProcessSystem.identifier,hstage,ProcessStage.hasFreedPid]
    · exact hfits
    · simp [hstage,ProcessStage.isListed]
    · exact fun hsystem => absurd hsystem hnot

theorem IdentifierInv.run (h : IdentifierInv strcelem s) {succeeds : Bool}
    (hrun : processRun strcelem s p succeeds = some s') : IdentifierInv strcelem s' := by
  cases hstage : s.stage p with
  | unused | live | destroyed => simp [processRun,hstage] at hrun
  | allocHeaderInfo _ | allocName _ | parseCommandLine _ | retrievePid | insertInList
  | initialized =>
    apply h.run_init _ hrun
    simp [hstage]
  | createPagingTables | createVaSpace =>
    apply h.run_create _ hrun
    simp [hstage]
  | removeFromList | freeCommandLine | freeName | freeHeaderInfo | destroyAddressSpace | freePid
  | freeProcess =>
    apply h.run_destroy _ hrun
    simp [hstage]

theorem IdentifierInv.processInit (h : IdentifierInv strcelem s) {request : ProcessRequest}
    (hinit : processInit s p request = some s') : IdentifierInv strcelem s' := by
  rw [Hal9000.processInit] at hinit
  split_ifs at hinit with hstage
  obtain rfl := Option.some.inj hinit
  have hfits := h.fits p
  rw [hstage] at hfits
  apply h.move
  · simp [ProcessSystem.identifier,hfits.1,processZero]
  · exact ⟨rfl,rfl,rfl⟩
  · simp [hstage,ProcessStage.isListed]
  · intro hsystem
    have hlive := (h.system p hsystem).2
    simp [hstage] at hlive

theorem IdentifierInv.processDestroy (h : IdentifierInv strcelem s) (hstage : s.stage p = .live) :
    IdentifierInv strcelem (s.processDestroy p) := by
  have hfits := h.fits p
  rw [hstage] at hfits
  rw [ProcessSystem.processDestroy,setStage_eq_advanced]
  apply h.move
  · simp [ProcessSystem.identifier,hstage,ProcessStage.hasFreedPid]
  · exact fun hid => absurd hid hfits.1
  · simp [hstage,hfits.1,ProcessStage.isListed]
  · exact fun hsystem => ⟨hfits.1,Or.inr rfl⟩

omit [DecidableEq Process] in
theorem IdentifierInv.init (pidBitmapBuffer : Nat) :
    IdentifierInv strcelem (processSystemPreinit pidBitmapBuffer : ProcessSystem Process) where
  bitCount := rfl
  held := by
    apply (HeldOnce.init _).congr _ (fun _ => rfl)
    · intro p
      simp [ProcessSystem.identifier,processSystemPreinit,processZero]
    · intro n
      simp [processSystemPreinit,bitmapSetBits,bitmapInit]
  valid p n hn := by simp [ProcessSystem.identifier,processSystemPreinit,processZero] at hn
  fits p := ⟨rfl,rfl,rfl⟩
  nodup := List.nodup_nil
  listed p := by simp [processSystemPreinit,ProcessStage.isListed]
  system p hp := by cases hp

omit [DecidableEq Process] in
/-- The tables of a process are there only while it has its identifier, which tags their
translations. -/
theorem IdentifierInv.pagingData (h : IdentifierInv strcelem s)
    (hpaging : (s.process p).pagingData = true) : s.identifier p = some (s.process p).id := by
  have hfits := h.fits p
  cases hstage : s.stage p <;> rw [hstage] at hfits <;>
    simp [ProcessObjectData.Fits,ProcessObjectData.NoAddressSpace,hpaging] at hfits <;>
    simp [ProcessSystem.identifier,hstage,hfits,ProcessStage.hasFreedPid]

omit [DecidableEq Process] in
theorem IdentifierInv.listed_identifier (h : IdentifierInv strcelem s) (hp : p ∈ s.processList) :
    s.identifier p = some (s.process p).id := by
  have hlisted := (h.listed p).mp hp
  have hfits := h.fits p
  cases hstage : s.stage p <;> rw [hstage] at hfits hlisted <;>
    simp [ProcessStage.isListed] at hlisted <;>
    simp [ProcessObjectData.Fits] at hfits <;>
    simp [ProcessSystem.identifier,hstage,hfits,hlisted,ProcessStage.hasFreedPid]

omit [DecidableEq Process] in
theorem IdentifierInv.retrieveNextPid_eq_none (h : IdentifierInv strcelem s) :
    processSystemRetrieveNextPid s.pidBitmap = none ↔
      ∀ n, pcidIsValid n = true → ∃ q, s.identifier q = some n := by
  constructor
  · intro hpid n hn
    have hzero : s.pidBitmap.bits 0 = true := (h.held.taken_iff 0).mpr (Or.inl rfl)
    have hrange := of_decide_eq_true hn
    have hbit := retrieveNextPid_none h.bitCount hzero hpid hrange.2
    rcases (h.held.taken_iff n).mp hbit with hn | hn
    · omega
    · exact hn
  · intro hall
    rw [Option.eq_none_iff_forall_ne_some]
    intro found hpid
    obtain ⟨hclear,hid,_⟩ := retrieveNextPid_some hpid
    have hbit := (h.held.taken_iff found.1).mpr (Or.inr (hall found.1 hid))
    rw [hclear] at hbit
    cases hbit

/-- Of the assertions on the way of a process, only the one that there is an identifier left can
fail. -/
theorem IdentifierInv.processRun_eq_none (hinv : IdentifierInv strcelem s)
    {system : Process} (hsystem : s.systemProcess = some system) (hne : system ≠ p)
    (hrunning : s.stage p ≠ .unused ∧ s.stage p ≠ .live ∧ s.stage p ≠ .destroyed)
    (succeeds : Bool) : processRun strcelem s p succeeds = none ↔
      s.stage p = .retrievePid ∧ ∀ n, pcidIsValid n = true → ∃ q, s.identifier q = some n := by
  have hfits := hinv.fits p
  have hassert := hinv.assertNotSystem hsystem hne
  have hvalid : (s.stage p).hasFreedPid = false → (s.process p).id ≠ 0 →
      pcidIsValid (s.process p).id = true := by
    intro hfreed hid
    apply hinv.valid p
    simp [ProcessSystem.identifier,hfreed,hid]
  cases hstage : s.stage p with
  | unused | live | destroyed => simp [hstage] at hrunning
  | allocHeaderInfo _ | allocName _ =>
    cases succeeds <;> simp [processRun,hstage]
  | parseCommandLine request =>
    cases hparse : processParseCommandLine strcelem (s.process p) request.name request.arguments
      succeeds <;> simp [processRun,hstage,hparse]
  | insertInList | initialized | freeCommandLine | freeName | freeHeaderInfo | freeProcess =>
    simp [processRun,hstage]
  | createPagingTables =>
    have hnot := hassert (by rw [hstage]; rfl)
    simp [processRun,hstage,hnot]
  | createVaSpace =>
    have hnot := hassert (by rw [hstage]; rfl)
    rw [hstage] at hfits hvalid
    cases succeeds <;> simp [processRun,hstage,hnot,hvalid rfl hfits.1,assert]
  | removeFromList =>
    have hnot := hassert (by rw [hstage]; rfl)
    simp [processRun,hstage,hnot]
  | destroyAddressSpace =>
    have hnot := hassert (by rw [hstage]; rfl)
    have hpaging : (!(s.process p).pagingData || pcidIsValid (s.process p).id) = true := by
      cases hdata : (s.process p).pagingData with
      | false => rfl
      | true => simp [hinv.valid p _ (hinv.pagingData hdata)]
    simp [processRun,hstage,hnot,hpaging,assert]
  | freePid =>
    rw [hstage] at hvalid
    by_cases hid : (s.process p).id = 0
    · simp [processRun,hstage,hid]
    · have hbit : s.pidBitmap.bits (s.process p).id = true := by
        apply (hinv.held.taken_iff _).mpr
        refine Or.inr ⟨p,?_⟩
        simp [ProcessSystem.identifier,hstage,hid,ProcessStage.hasFreedPid]
      simp [processRun,hstage,hid,processSystemFreePid,hvalid rfl hid,hbit,assert]
  | retrievePid =>
    rw [processRun,hstage,← hinv.retrieveNextPid_eq_none]
    simp only [true_and]
    cases processSystemRetrieveNextPid s.pidBitmap <;> simp

end Identifiers

end Hal9000
