import Hal9000.Io.Interrupts

/-!
# The tables of the I/O APIC system

The interrupt overrides of the MADT and the routing entries of the PCI devices are copied into
arrays, each by two passes over an iterator: one counts and one fills. The late initialization
counts the routing entries in the counter of the overrides.
-/

namespace Hal9000

/-- `ACPI_MADT_INTERRUPT_OVERRIDE`. -/
structure AcpiMadtInterruptOverride where
  bus : Nat
  sourceIrq : Nat
  globalIrq : Nat
  intiFlags : Nat

/-- `ACPI_PRT_ENTRY`; of the source name only the first four bytes are looked at. -/
structure AcpiPrtEntry where
  segmentNumber : Nat
  busNumber : Nat
  address : Nat
  pin : Nat
  sourceIndex : Nat
  source : Nat

structure PciDeviceLocation where
  bus : Nat
  device : Nat
  function : Nat
  deriving DecidableEq

structure IoApicPrtEntry where
  deviceLocation : PciDeviceLocation
  ioApicLine : Nat
  interruptPin : Nat
  deriving DecidableEq

/-- The counters are 32-bit words. A table is `none` while its pointer is `NULL`. -/
structure IoApicSystemData where
  apicList : List IoApicEntry
  noOfInterruptOverrides : Nat
  interruptOverrides : Option (List IoApicInterruptOverride)
  noOfPrtEntries : Nat
  prtEntries : Option (List IoApicPrtEntry)

/-- What an initialization function returns, and the data it leaves. -/
abbrev IoApicResult := Except IoStatus Unit × IoApicSystemData

section Retrieve

variable {Entry Item : Type}

/-- One pass over the entries that the iterator still has to return. A write past the end of the
table has no result. -/
def retrievePass (initItem : Entry → Option Item) (checkEntry : Entry → Bool) :
    List Entry → Option (List Item) → Nat → Option (Option (List Item) × Nat)
  | [],table,noOfEntries => some (table,noOfEntries)
  | entry :: rest,none,noOfEntries => do
    assert (checkEntry entry)
    retrievePass initItem checkEntry rest none ((noOfEntries + 1) % 2 ^ 32)
  | entry :: rest,some items,noOfEntries => do
    assert (checkEntry entry)
    let item ← initItem entry
    if noOfEntries < items.length then
      retrievePass initItem checkEntry rest (some (items.set noOfEntries item))
        ((noOfEntries + 1) % 2 ^ 32)
    else none

/-- Both passes: what `NoOfInterruptOverrides` holds after them, and the count and the table. The
iterators start again with `RestartSearch`. -/
def retrieveTable (initItem : Entry → Option Item) (checkEntry : Entry → Bool) (zeroItem : Item)
    (entries : List Entry) (allocates : Bool) :
    Option (Nat × Except IoStatus (Nat × Option (List Item))) := do
  let (_,counted) ← retrievePass initItem checkEntry entries none 0
  if counted = 0 then some (0,.ok (0,none))
  else if allocates then do
    let (table,filled) ←
      retrievePass initItem checkEntry entries (some (List.replicate counted zeroItem)) 0
    assert (filled == counted)
    some (counted,.ok (filled,table))
  else some (counted,.error .heapInsufficientResources)

end Retrieve

def pinPolarityOf (intiFlags : Nat) : ApicPinPolarity :=
  if intiFlags.testBit 1 then .activeLow else .activeHigh

def triggerModeOf (intiFlags : Nat) : ApicTriggerMode :=
  if intiFlags.testBit 3 then .level else .edge

def initInterruptOverride (entry : AcpiMadtInterruptOverride) :
    Option IoApicInterruptOverride := do
  assert (entry.globalIrq ≤ 255)
  assert (entry.bus == 0)
  some {
    sourceIrq := entry.sourceIrq
    destinationIrq := entry.globalIrq % 256
    triggerMode := triggerModeOf entry.intiFlags
    pinPolarity := pinPolarityOf entry.intiFlags }

def initPrtEntry (entry : AcpiPrtEntry) : Option IoApicPrtEntry := do
  assert (entry.source == 0)
  some {
    deviceLocation :=
      ⟨entry.busNumber,entry.address / 2 ^ 16 % 2 ^ 16 % 256,entry.address % 256⟩
    ioApicLine := entry.sourceIndex
    -- the firmware counts the pins from 0 on, the configuration space from 1 on
    interruptPin := (entry.pin % 256 + 1) % 256 }

namespace IoApicSystemData

/-- `IoApicSystemPreinit`. -/
def preinit : IoApicSystemData := ⟨[],0,none,0,none⟩

variable (data : IoApicSystemData)

/-- `_IoApicSystemRetrieveInterruptOverrides`. -/
def retrieveInterruptOverrides (overrides : List AcpiMadtInterruptOverride) (allocates : Bool) :
    Option IoApicResult := do
  let (counted,result) ← retrieveTable initInterruptOverride (fun _ => true)
    ⟨0,0,.edge,.activeHigh⟩ overrides allocates
  match result with
  | .error status => some (.error status,{ data with noOfInterruptOverrides := counted })
  | .ok (count,table) =>
    some (.ok (),{ data with noOfInterruptOverrides := count, interruptOverrides := table })

/-- `_IoApicSystemRetrievePrtEntries`: the passes count in `NoOfInterruptOverrides`. -/
def retrievePrtEntries (prtEntries : List AcpiPrtEntry) (allocates : Bool) :
    Option IoApicResult := do
  let (counted,result) ← retrieveTable initPrtEntry (fun entry => entry.segmentNumber == 0)
    ⟨⟨0,0,0⟩,0,0⟩ prtEntries allocates
  match result with
  | .error status => some (.error status,{ data with noOfInterruptOverrides := counted })
  | .ok (count,table) =>
    some (.ok (),{ data with
      noOfInterruptOverrides := counted, noOfPrtEntries := count, prtEntries := table })

/-- `_IoApicReturnInterruptOverrideForIrq`. An entry past the end of the array is not read. -/
def returnInterruptOverrideForIrq (irq : Nat) : Option (Option IoApicInterruptOverride) :=
  (List.range data.noOfInterruptOverrides).foldlM (fun pResult i => do
    let overrides ← data.interruptOverrides
    let override ← overrides[i]?
    some (if override.sourceIrq == irq then some override else pResult)) none

/-- `_IoApicSystemGetIoApicForIrq`: the I/O APIC, and the IRQ relative to its first one. -/
def getIoApicForIrq (irq : Nat) : Option (Option RedirectionSlot) := do
  let pInterruptOverride ← data.returnInterruptOverrideForIrq irq
  let finalIrq := match pInterruptOverride with
    | some override => override.destinationIrq
    | none => irq
  some ((data.apicList.zipIdx.find? fun entry =>
    checkBounds finalIrq 1 entry.1.irqBase (entry.1.maximumRedirectionEntry + 1)).map
      fun entry => (entry.2,finalIrq - entry.1.irqBase))

end IoApicSystemData

/-- `IoApicSystemInit`, with what `_IoApicSystemRetrieveIoApics` reads from the devices. -/
def ioApicSystemInit (ioApics : Except IoStatus (List IoApicEntry))
    (overrides : List AcpiMadtInterruptOverride) (allocates : Bool) : Option IoApicResult :=
  match ioApics with
  | .error status => some (.error status,.preinit)
  | .ok apicList =>
    { IoApicSystemData.preinit with apicList }.retrieveInterruptOverrides overrides allocates

/-- `IoApicLateSystemInit`. -/
def ioApicLateSystemInit (data : IoApicSystemData) (prtEntries : List AcpiPrtEntry)
    (allocates : Bool) : Option IoApicResult :=
  data.retrievePrtEntries prtEntries allocates

/-- The entry says of its IRQ what the MADT says. -/
structure IoApicInterruptOverride.Describes (override : IoApicInterruptOverride)
    (entry : AcpiMadtInterruptOverride) : Prop where
  sourceIrq : override.sourceIrq = entry.sourceIrq
  destinationIrq : override.destinationIrq = entry.globalIrq
  pinPolarity : override.pinPolarity = pinPolarityOf entry.intiFlags
  triggerMode : override.triggerMode = triggerModeOf entry.intiFlags

/-- A search for an IRQ stays inside the table, and finds an override listed in the MADT if and
only if there is one. -/
def OverridesDescribed (data : IoApicSystemData) (overrides : List AcpiMadtInterruptOverride) :
    Prop :=
  ∀ irq, ∃ result, data.returnInterruptOverrideForIrq irq = some result ∧
    match result with
    | none => ∀ entry ∈ overrides, entry.sourceIrq ≠ irq
    | some override => ∃ entry ∈ overrides, entry.sourceIrq = irq ∧ override.Describes entry

/-- There are no more routing entries than overrides, and each override that is not counted any
more shares its IRQ with one that is. -/
def PrtCountFits (overrides : List AcpiMadtInterruptOverride) (prtEntries : List AcpiPrtEntry) :
    Prop :=
  prtEntries.length % 2 ^ 32 ≤ overrides.length % 2 ^ 32 ∧
    ∀ entry ∈ overrides.drop (prtEntries.length % 2 ^ 32),
      ∃ counted ∈ overrides.take (prtEntries.length % 2 ^ 32),
        counted.sourceIrq = entry.sourceIrq

section Retrieve

variable {Entry Item : Type} {initItem : Entry → Option Item} {checkEntry : Entry → Bool}

theorem retrievePass_counts {entries : List Entry} {table : Option (List Item)} {counted n : Nat}
    (hn : n < 2 ^ 32)
    (h : retrievePass initItem checkEntry entries none n = some (table,counted)) :
    counted = (n + entries.length) % 2 ^ 32 := by
  induction entries generalizing n with
  | nil =>
    simp only [retrievePass,Option.some.injEq,Prod.mk.injEq] at h
    rw [← h.2,List.length_nil,Nat.add_zero,Nat.mod_eq_of_lt hn]
  | cons entry rest ih =>
    obtain ⟨_,_,hrest⟩ := Option.bind_eq_some_iff.mp h
    rw [ih (Nat.mod_lt _ (by decide)) hrest,List.length_cons]
    omega

theorem retrievePass_fills {entries : List Entry} {items : List Item}
    {table : Option (List Item)} {filled n : Nat} (hitems : items.length < 2 ^ 32)
    (hn : n ≤ items.length)
    (h : retrievePass initItem checkEntry entries (some items) n = some (table,filled)) :
    filled = n + entries.length ∧ n + entries.length ≤ items.length ∧
      ∃ written, List.Forall₂ (fun entry item => initItem entry = some item) entries written ∧
        table = some (items.take n ++ written ++ items.drop (n + entries.length)) := by
  induction entries generalizing items n with
  | nil =>
    simp only [retrievePass,Option.some.injEq,Prod.mk.injEq] at h
    refine ⟨h.2.symm,hn,[],.nil,?_⟩
    rw [← h.1]
    simp
  | cons entry rest ih =>
    obtain ⟨_,_,h⟩ := Option.bind_eq_some_iff.mp h
    obtain ⟨item,hitem,h⟩ := Option.bind_eq_some_iff.mp h
    split at h
    · rename_i hlt
      rw [Nat.mod_eq_of_lt (by omega)] at h
      obtain ⟨hfilled,hle,written,hwritten,htable⟩ :=
        ih (by rwa [List.length_set]) (by rw [List.length_set]; omega) h
      rw [List.length_set] at hle
      have htake : (items.set n item).take (n + 1) = items.take n ++ [item] := by
        rw [List.take_add_one,List.take_set_of_le (Nat.le_refl n)]
        simp [hlt]
      have hdrop : (items.set n item).drop (n + 1 + rest.length) =
          items.drop (n + 1 + rest.length) := by
        exact List.drop_set_of_lt (by omega)
      rw [List.length_cons]
      refine ⟨by omega,by omega,item :: written,.cons hitem hwritten,?_⟩
      rw [htable,htake,hdrop,show n + (rest.length + 1) = n + 1 + rest.length by omega]
      simp
    · cases h

theorem retrieveTable_ok {zeroItem : Item} {entries : List Entry} {allocates : Bool}
    {counted count : Nat} {table : Option (List Item)}
    (h : retrieveTable initItem checkEntry zeroItem entries allocates =
      some (counted,.ok (count,table))) :
    counted = entries.length % 2 ^ 32 ∧ count = counted ∧ (table.getD []).length = counted ∧
      ∀ c ≤ counted, List.Forall₂ (fun entry item => initItem entry = some item)
        (entries.take c) ((table.getD []).take c) := by
  obtain ⟨⟨none',first⟩,hfirst,h⟩ := Option.bind_eq_some_iff.mp h
  have hcounted := retrievePass_counts (by decide) hfirst
  rw [Nat.zero_add] at hcounted
  dsimp only at h
  split at h
  · rename_i hzero
    simp only [Option.some.injEq,Prod.mk.injEq,Except.ok.injEq] at h
    obtain ⟨rfl,rfl,rfl⟩ := h
    refine ⟨by omega,rfl,rfl,fun c hc => ?_⟩
    rw [Nat.le_zero.mp hc]
    exact .nil
  · split at h
    · obtain ⟨⟨table₂,filled⟩,hsecond,h⟩ := Option.bind_eq_some_iff.mp h
      obtain ⟨_,hfilled,h⟩ := Option.bind_eq_some_iff.mp h
      rw [assert_eq_some,beq_iff_eq] at hfilled
      simp only [Option.some.injEq,Prod.mk.injEq,Except.ok.injEq] at h
      obtain ⟨rfl,rfl,rfl⟩ := h
      have hlt : first < 2 ^ 32 := hcounted ▸ Nat.mod_lt _ (by decide)
      obtain ⟨hlength,_,written,hwritten,rfl⟩ :=
        retrievePass_fills (by rwa [List.length_replicate]) (Nat.zero_le _) hsecond
      have hwrote : written.length = first := by rw [← hwritten.length_eq]; omega
      have htable : ((some (List.take 0 (List.replicate first zeroItem) ++ written ++
          List.drop (0 + entries.length) (List.replicate first zeroItem))).getD [] :
            List Item) = written := by
        rw [List.drop_of_length_le (by rw [List.length_replicate]; omega)]
        simp
      rw [htable]
      exact ⟨hcounted,hfilled,hwrote,fun c _ => List.forall₂_take c hwritten⟩
    · cases h

end Retrieve

theorem forall₂_left {α β : Type} {R : α → β → Prop} {as : List α} {bs : List β}
    (h : List.Forall₂ R as bs) {a : α} (ha : a ∈ as) : ∃ b ∈ bs, R a b := by
  induction h with
  | nil => cases ha
  | cons hab _ ih =>
    rcases List.mem_cons.mp ha with rfl | ha
    · exact ⟨_,List.mem_cons_self,hab⟩
    · obtain ⟨b,hb,hr⟩ := ih ha
      exact ⟨b,List.mem_cons_of_mem _ hb,hr⟩

theorem initInterruptOverride_describes {entry : AcpiMadtInterruptOverride}
    {override : IoApicInterruptOverride} (h : initInterruptOverride entry = some override) :
    override.Describes entry := by
  obtain ⟨_,hirq,h⟩ := Option.bind_eq_some_iff.mp h
  obtain ⟨_,_,h⟩ := Option.bind_eq_some_iff.mp h
  rw [assert_eq_some,decide_eq_true_eq] at hirq
  cases h
  exact ⟨rfl,Nat.mod_eq_of_lt (by omega),rfl,rfl⟩

namespace IoApicSystemData

variable {data : IoApicSystemData}

/-- The overrides that are counted. -/
def tables (data : IoApicSystemData) : IoApicSystem where
  apicList := data.apicList
  interruptOverrides := (data.interruptOverrides.getD []).take data.noOfInterruptOverrides

private theorem search_table {overrides : Option (List IoApicInterruptOverride)} {count : Nat}
    (hcount : count ≤ (overrides.getD []).length) (irq : Nat) :
    (List.range count).foldlM (fun pResult i => do
      let overrides ← overrides
      let override ← overrides[i]?
      some (if override.sourceIrq == irq then some override else pResult)) none =
    some ((((overrides.getD []).take count).filter (·.sourceIrq == irq)).getLast?) := by
  induction count with
  | zero => simp
  | succ count ih =>
    cases overrides with
    | none => simp at hcount
    | some items =>
      have hlt : count < items.length := hcount
      rw [List.range_succ,List.foldlM_append,ih (Nat.le_of_lt hlt)]
      simp only [Option.getD_some,Option.bind_eq_bind,Option.bind_some,List.foldlM_cons,
        List.foldlM_nil,List.getElem?_eq_getElem hlt,List.take_add_one,List.filter_append]
      by_cases hirq : items[count].sourceIrq = irq <;> simp [hirq]

theorem returnInterruptOverrideForIrq_inside
    (hcount : data.noOfInterruptOverrides ≤ (data.interruptOverrides.getD []).length)
    (irq : Nat) : data.returnInterruptOverrideForIrq irq =
      some (data.tables.interruptOverrideForIrq irq) :=
  search_table hcount irq

theorem returnInterruptOverrideForIrq_outside
    (hcount : (data.interruptOverrides.getD []).length < data.noOfInterruptOverrides)
    (irq : Nat) : data.returnInterruptOverrideForIrq irq = none := by
  obtain ⟨more,hmore⟩ := Nat.exists_eq_add_of_lt hcount
  rw [returnInterruptOverrideForIrq,hmore,Nat.add_assoc,List.range_add,List.foldlM_append,
    search_table (Nat.le_refl _),Nat.add_comm more,List.range_add]
  cases data.interruptOverrides <;> simp

theorem getIoApicForIrq_inside
    (hcount : data.noOfInterruptOverrides ≤ (data.interruptOverrides.getD []).length)
    (irq : Nat) : data.getIoApicForIrq irq = some (data.tables.ioApicForIrq irq) := by
  rw [getIoApicForIrq,returnInterruptOverrideForIrq_inside hcount]
  rfl

end IoApicSystemData

theorem interruptOverrideForIrq_some {sys : IoApicSystem} {irq : Nat}
    {override : IoApicInterruptOverride} (h : sys.interruptOverrideForIrq irq = some override) :
    override ∈ sys.interruptOverrides ∧ override.sourceIrq = irq := by
  have hmem := List.mem_of_getLast? h
  simpa using hmem

theorem interruptOverrideForIrq_none {sys : IoApicSystem} {irq : Nat} :
    sys.interruptOverrideForIrq irq = none ↔
      ∀ override ∈ sys.interruptOverrides, override.sourceIrq ≠ irq := by
  simp [IoApicSystem.interruptOverrideForIrq]

theorem overridesDescribed_iff {data : IoApicSystemData}
    {overrides : List AcpiMadtInterruptOverride}
    (hcount : data.noOfInterruptOverrides ≤ (data.interruptOverrides.getD []).length)
    (hfilled : List.Forall₂ (fun entry item => initInterruptOverride entry = some item)
      (overrides.take data.noOfInterruptOverrides) data.tables.interruptOverrides) :
    OverridesDescribed data overrides ↔
      ∀ entry ∈ overrides, ∃ counted ∈ overrides.take data.noOfInterruptOverrides,
        counted.sourceIrq = entry.sourceIrq := by
  have hlisted : ∀ override ∈ data.tables.interruptOverrides,
      ∃ counted ∈ overrides.take data.noOfInterruptOverrides, override.Describes counted := by
    intro override hoverride
    obtain ⟨counted,hmem,hinit⟩ := forall₂_left hfilled.flip hoverride
    exact ⟨counted,hmem,initInterruptOverride_describes hinit⟩
  constructor
  · intro h entry hentry
    obtain ⟨result,hresult,hfound⟩ := h entry.sourceIrq
    rw [data.returnInterruptOverrideForIrq_inside hcount,Option.some.injEq] at hresult
    cases result with
    | none => exact absurd rfl (hfound entry hentry)
    | some override =>
      obtain ⟨hmem,hirq⟩ := interruptOverrideForIrq_some hresult
      obtain ⟨counted,hcounted,hdescribes⟩ := hlisted override hmem
      exact ⟨counted,hcounted,hdescribes.sourceIrq.symm.trans hirq⟩
  · intro h irq
    refine ⟨_,data.returnInterruptOverrideForIrq_inside hcount irq,?_⟩
    cases hresult : data.tables.interruptOverrideForIrq irq with
    | none =>
      intro entry hentry hirq
      obtain ⟨counted,hcounted,hsame⟩ := h entry hentry
      obtain ⟨override,hmem,hinit⟩ := forall₂_left hfilled hcounted
      have hsource := (initInterruptOverride_describes hinit).sourceIrq
      exact interruptOverrideForIrq_none.mp hresult override hmem
        (hsource.trans (hsame.trans hirq))
    | some override =>
      obtain ⟨hmem,hirq⟩ := interruptOverrideForIrq_some hresult
      obtain ⟨counted,hcounted,hdescribes⟩ := hlisted override hmem
      exact ⟨counted,List.mem_of_mem_take hcounted,hdescribes.sourceIrq.symm.trans hirq,
        hdescribes⟩

/-- What both initializations leave of the overrides: their table, and the number of routing
entries as its length. -/
theorem initialized_overrides {ioApics : Except IoStatus (List IoApicEntry)}
    {overrides : List AcpiMadtInterruptOverride} {prtEntries : List AcpiPrtEntry}
    {allocates allocates' : Bool} {data data' : IoApicSystemData}
    (hinit : ioApicSystemInit ioApics overrides allocates = some (.ok (),data))
    (hlate : ioApicLateSystemInit data prtEntries allocates' = some (.ok (),data')) :
    data'.noOfInterruptOverrides = prtEntries.length % 2 ^ 32 ∧
      (data'.interruptOverrides.getD []).length = overrides.length % 2 ^ 32 ∧
      ∀ c ≤ overrides.length % 2 ^ 32,
        List.Forall₂ (fun entry item => initInterruptOverride entry = some item)
          (overrides.take c) ((data'.interruptOverrides.getD []).take c) := by
  cases ioApics with
  | error status => simp [ioApicSystemInit] at hinit
  | ok apicList =>
    obtain ⟨⟨counted,result⟩,hresult,hinit⟩ := Option.bind_eq_some_iff.mp hinit
    obtain ⟨⟨counted',result'⟩,hresult',hlate⟩ := Option.bind_eq_some_iff.mp hlate
    cases result with
    | error status => simp at hinit
    | ok table =>
      cases result' with
      | error status => simp at hlate
      | ok table' =>
        cases hinit
        cases hlate
        obtain ⟨hcounted,_,hlength,hfilled⟩ := retrieveTable_ok hresult
        obtain ⟨hcounted',_⟩ := retrieveTable_ok hresult'
        exact ⟨hcounted',hlength.trans hcounted,hcounted ▸ hfilled⟩

/-- After the late initialization the search keeps to the overrides of the MADT exactly if
their number is not exceeded and the ones beyond the new count are not needed. -/
theorem overrides_described_iff {ioApics : Except IoStatus (List IoApicEntry)}
    {overrides : List AcpiMadtInterruptOverride} {prtEntries : List AcpiPrtEntry}
    {allocates allocates' : Bool} {data data' : IoApicSystemData}
    (hinit : ioApicSystemInit ioApics overrides allocates = some (.ok (),data))
    (hlate : ioApicLateSystemInit data prtEntries allocates' = some (.ok (),data')) :
    OverridesDescribed data' overrides ↔ PrtCountFits overrides prtEntries := by
  obtain ⟨hcount,hlength,hfilled⟩ := initialized_overrides hinit hlate
  rw [PrtCountFits,← hcount,← hlength]
  by_cases hle : data'.noOfInterruptOverrides ≤ (data'.interruptOverrides.getD []).length
  · rw [overridesDescribed_iff hle (hfilled _ (hlength ▸ hle))]
    constructor
    · intro h
      exact ⟨hle,fun entry hentry => h entry (List.mem_of_mem_drop hentry)⟩
    · rintro ⟨_,h⟩ entry hentry
      rw [← List.take_append_drop data'.noOfInterruptOverrides overrides,
        List.mem_append] at hentry
      rcases hentry with hentry | hentry
      · exact ⟨entry,hentry,rfl⟩
      · exact h entry hentry
  · refine iff_of_false ?_ fun h => hle h.1
    intro h
    obtain ⟨result,hresult,_⟩ := h 0
    rw [data'.returnInterruptOverrideForIrq_outside (Nat.lt_of_not_le hle)] at hresult
    cases hresult

/-- The timer on line 2, and a level-triggered line. -/
def pcOverrides : List AcpiMadtInterruptOverride := [⟨0,0,2,0⟩,⟨0,9,9,13⟩]

/-- The pins of device 1 on lines from 16 on. -/
def pinRouted (pin : Nat) : AcpiPrtEntry := ⟨0,0,0x1ffff,pin,16 + pin,0⟩

theorem overrides_described_two : ∃ data data',
    ioApicSystemInit (.ok [⟨0,23⟩]) pcOverrides true = some (.ok (),data) ∧
      ioApicLateSystemInit data [pinRouted 0,pinRouted 1] true = some (.ok (),data') ∧
      OverridesDescribed data' pcOverrides := by
  obtain ⟨data,hinit⟩ : ∃ data,
      ioApicSystemInit (.ok [⟨0,23⟩]) pcOverrides true = some (.ok (),data) := ⟨_,rfl⟩
  obtain ⟨data',hlate⟩ : ∃ data',
      ioApicLateSystemInit data [pinRouted 0,pinRouted 1] true = some (.ok (),data') := ⟨_,rfl⟩
  refine ⟨data,data',hinit,hlate,(overrides_described_iff hinit hlate).mpr ?_⟩
  exact ⟨by decide,by simp [pcOverrides]⟩

/-- With a third routing entry every search reads past the end of the table. -/
theorem overrides_not_described : ∃ data data',
    ioApicSystemInit (.ok [⟨0,23⟩]) pcOverrides true = some (.ok (),data) ∧
      ioApicLateSystemInit data [pinRouted 0,pinRouted 1,pinRouted 2] true =
        some (.ok (),data') ∧
      data'.returnInterruptOverrideForIrq 0 = none ∧ ¬ OverridesDescribed data' pcOverrides := by
  refine ⟨_,_,rfl,rfl,rfl,?_⟩
  intro h
  obtain ⟨result,hresult,_⟩ := h 0
  cases hresult

end Hal9000
