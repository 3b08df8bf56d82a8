import Hal9000.Common.Machine
import Hal9000.Framework.RecordWalk

/-!
# The tables of the firmware

The MADT is a sequence of subtables of varying length, the MCFG one of allocations of 16 bytes.
Both parsers copy what they know into lists. Where they go next is said by the tables. A pointer
into a table is what the table has from there on, and nothing is read behind the table.
-/

namespace Hal9000

open RecordWalk

/-- A table as `AcpiGetTable` returns it. Its `Length` is a 32-bit word. -/
structure AcpiTable where
  bytes : List UInt8
  length_lt : bytes.length < 2 ^ 32

inductive AcpiStatus
  | notFound
  | other
  deriving DecidableEq

inductive AcpiInterfaceStatus
  | unsuccessful
  | deviceDoesNotExist
  deriving DecidableEq

/-- `ACPI_INTERFACE_DATA`: the `Data` of each entry, as it was copied. -/
structure AcpiInterfaceData where
  cpuList : List (List UInt8)
  ioApicList : List (List UInt8)
  intOverrideList : List (List UInt8)
  mcfgList : List (List UInt8)
  deriving DecidableEq

abbrev AcpiInterfaceResult := Except AcpiInterfaceStatus Unit × AcpiInterfaceData

def sizeofAcpiTableMadt : Nat := 44
def sizeofAcpiTableMcfg : Nat := 44
def sizeofAcpiMcfgAllocation : Nat := 16

def readBytes (pointer : List UInt8) (size : Nat) : Option (List UInt8) :=
  if size ≤ pointer.length then some (pointer.take size) else none

/-- A little-endian word. -/
def wordOf (bytes : List UInt8) : Nat := bytes.foldr (fun byte word => byte.toNat + 256 * word) 0

/-- `APIC_PROCESSOR_ACTIVE`. -/
def processorActive (lapicFlags : List UInt8) : Bool := (wordOf lapicFlags).testBit 0

/-- One subtable of `_AcpiInterfaceParseMadt`. -/
def parseMadtSubtable (pHeader : List UInt8) (data : AcpiInterfaceData) :
    Option AcpiInterfaceData := do
  let type ← pHeader[0]?
  -- ACPI_MADT_TYPE_LOCAL_APIC
  if type = 0 then
    let lapicFlags ← readBytes (pHeader.drop 4) 4
    if processorActive lapicFlags then
      let entry ← readBytes pHeader 8
      some { data with cpuList := data.cpuList ++ [entry] }
    else some data
  -- ACPI_MADT_TYPE_IO_APIC
  else if type = 1 then
    let entry ← readBytes pHeader 12
    some { data with ioApicList := data.ioApicList ++ [entry] }
  -- ACPI_MADT_TYPE_INTERRUPT_OVERRIDE
  else if type = 2 then
    let entry ← readBytes pHeader 10
    some { data with intOverrideList := data.intOverrideList ++ [entry] }
  -- ACPI_MADT_TYPE_LOCAL_APIC_NMI, which is only logged
  else if type = 4 then
    let _ ← readBytes (pHeader.drop 2) 4
    some data
  else some data

/-- The loop of `_AcpiInterfaceParseMadt`; the offset is a 32-bit word. -/
def parseMadtLoop (pData : List UInt8) (actualTableLength : Nat) :
    Nat → Nat → AcpiInterfaceData → Option AcpiInterfaceData
  | 0,_,_ => none
  | fuel + 1,offsetInTable,data =>
    if offsetInTable < actualTableLength then do
      let pHeader := pData.drop offsetInTable
      let data ← parseMadtSubtable pHeader data
      let length ← pHeader[1]?
      parseMadtLoop pData actualTableLength fuel ((offsetInTable + length.toNat) % 2 ^ 32) data
    else some data

/-- `_AcpiInterfaceParseMadt`. -/
def acpiInterfaceParseMadt (fuel : Nat) (table : Except AcpiStatus AcpiTable)
    (data : AcpiInterfaceData) : Option AcpiInterfaceResult :=
  match table with
  | .error _ => some (.error .unsuccessful,data)
  | .ok table => do
    let actualTableLength := (table.bytes.length + 2 ^ 32 - sizeofAcpiTableMadt) % 2 ^ 32
    let pData := table.bytes.drop sizeofAcpiTableMadt
    let data ← parseMadtLoop pData actualTableLength fuel 0 data
    some (.ok (),data)

/-- The loop of `_AcpiInterfaceParseMcfg`. -/
def parseMcfgLoop (pData : List UInt8) (actualTableLength : Nat) :
    Nat → Nat → AcpiInterfaceData → Option AcpiInterfaceData
  | 0,_,_ => none
  | fuel + 1,offsetInTable,data =>
    if offsetInTable < actualTableLength then do
      let entry ← readBytes (pData.drop offsetInTable) sizeofAcpiMcfgAllocation
      parseMcfgLoop pData actualTableLength fuel
        ((offsetInTable + sizeofAcpiMcfgAllocation) % 2 ^ 32)
        { data with mcfgList := data.mcfgList ++ [entry] }
    else some data

/-- `_AcpiInterfaceParseMcfg`. -/
def acpiInterfaceParseMcfg (fuel : Nat) (table : Except AcpiStatus AcpiTable)
    (data : AcpiInterfaceData) : Option AcpiInterfaceResult :=
  match table with
  | .error .notFound => some (.error .deviceDoesNotExist,data)
  | .error .other => some (.error .unsuccessful,data)
  | .ok table => do
    let actualTableLength := (table.bytes.length + 2 ^ 32 - sizeofAcpiTableMcfg) % 2 ^ 32
    let pData := table.bytes.drop sizeofAcpiTableMcfg
    let data ← parseMcfgLoop pData actualTableLength fuel 0 data
    some (.ok (),data)

/-- The `Length` of the subtable at the front; none is shorter than its header. -/
def subtableLength (subtable : List UInt8) : Nat := (subtable[1]?.map UInt8.toNat).getD 0

/-- A kind of subtable that has a list. -/
structure SubtableKind where
  type : UInt8
  size : Nat
  recognised : List UInt8 → Bool

namespace SubtableKind

/-- The local APIC of a processor that is active; the others are skipped. -/
def localApic : SubtableKind := ⟨0,8,fun subtable => processorActive ((subtable.drop 4).take 4)⟩
def ioApic : SubtableKind := ⟨1,12,fun _ => true⟩
def interruptOverride : SubtableKind := ⟨2,10,fun _ => true⟩

variable (kind : SubtableKind)

def Matches (subtable : List UInt8) : Prop :=
  subtable[0]? = some kind.type ∧ kind.recognised subtable

instance (subtable : List UInt8) : Decidable (kind.Matches subtable) :=
  inferInstanceAs (Decidable (_ ∧ _))

/-- The subtable has all the fields of its kind, and ends inside the table. -/
def Complete (subtable : List UInt8) : Prop :=
  kind.size ≤ subtableLength subtable ∧ subtableLength subtable ≤ subtable.length

instance (subtable : List UInt8) : Decidable (kind.Complete subtable) :=
  inferInstanceAs (Decidable (_ ∧ _))

def entry (subtable : List UInt8) : List (List UInt8) :=
  if kind.Matches subtable ∧ kind.Complete subtable then [subtable.take kind.size] else []

/-- The entries of the complete subtables, in table order. -/
def entries (table : AcpiTable) : List (List UInt8) :=
  (records subtableLength (table.bytes.drop sizeofAcpiTableMadt)).flatMap kind.entry

end SubtableKind

/-- The allocations that are complete, in table order. -/
def mcfgEntries (table : AcpiTable) : List (List UInt8) :=
  (records (fun _ => sizeofAcpiMcfgAllocation)
    (table.bytes.drop sizeofAcpiTableMcfg)).flatMap fun allocation =>
      if sizeofAcpiMcfgAllocation ≤ allocation.length then
        [allocation.take sizeofAcpiMcfgAllocation] else []

/-- The parser ends, reads inside the table, and lists what the table lists. -/
def MadtParsed (table : AcpiTable) (data : AcpiInterfaceData) : Prop :=
  ∃ fuel, acpiInterfaceParseMadt fuel (.ok table) data = some (.ok (),
    { data with
      cpuList := data.cpuList ++ SubtableKind.localApic.entries table
      ioApicList := data.ioApicList ++ SubtableKind.ioApic.entries table
      intOverrideList := data.intOverrideList ++ SubtableKind.interruptOverride.entries table })

def McfgParsed (table : AcpiTable) (data : AcpiInterfaceData) : Prop :=
  ∃ fuel, acpiInterfaceParseMcfg fuel (.ok table) data =
    some (.ok (),{ data with mcfgList := data.mcfgList ++ mcfgEntries table })

/-- How much of a subtable the parser reads. -/
def decodedSize (subtable : List UInt8) : Nat :=
  if subtable[0]? = some 0 then 8
  else if subtable[0]? = some 1 then 12
  else if subtable[0]? = some 2 then 10
  else if subtable[0]? = some 4 then 6
  else 2

/-- The table has what the parser reads of the subtable, whose length leads on, and a subtable
that is listed is complete. -/
structure SubtableFits (subtable : List UInt8) : Prop where
  inside : decodedSize subtable ≤ subtable.length
  length_pos : 0 < subtableLength subtable
  complete : ∀ kind ∈ [SubtableKind.localApic,.ioApic,.interruptOverride],
    kind.Matches subtable → kind.Complete subtable

/-- The table has its fixed part, every subtable that the lengths lead to fits, and ends below
4 GB. -/
def MadtFits (table : AcpiTable) : Prop :=
  sizeofAcpiTableMadt ≤ table.bytes.length ∧
    ∀ subtable ∈ records subtableLength (table.bytes.drop sizeofAcpiTableMadt),
      SubtableFits subtable ∧
        (table.bytes.drop sizeofAcpiTableMadt).length - subtable.length +
          subtableLength subtable < 2 ^ 32

/-- The table has its fixed part, and a whole number of allocations behind it. -/
def McfgFits (table : AcpiTable) : Prop :=
  sizeofAcpiTableMcfg ≤ table.bytes.length ∧
    sizeofAcpiMcfgAllocation ∣ table.bytes.length - sizeofAcpiTableMcfg

def visitSubtable (data : AcpiInterfaceData) (subtable : List UInt8) :
    Option AcpiInterfaceData := do
  let data ← parseMadtSubtable subtable data
  let _ ← subtable[1]?
  some data

/-- What the loop inserts for a subtable. -/
def SubtableKind.found (kind : SubtableKind) (subtable : List UInt8) : List (List UInt8) :=
  if kind.Matches subtable then [subtable.take kind.size] else []

def listSubtable (data : AcpiInterfaceData) (subtable : List UInt8) : AcpiInterfaceData :=
  { data with
    cpuList := data.cpuList ++ SubtableKind.localApic.found subtable
    ioApicList := data.ioApicList ++ SubtableKind.ioApic.found subtable
    intOverrideList := data.intOverrideList ++ SubtableKind.interruptOverride.found subtable }

theorem readBytes_of_le {pointer : List UInt8} {size : Nat} (h : size ≤ pointer.length) :
    readBytes pointer size = some (pointer.take size) := if_pos h

theorem readBytes_of_lt {pointer : List UInt8} {size : Nat} (h : pointer.length < size) :
    readBytes pointer size = none := if_neg (Nat.not_le.mpr h)

section Visit

variable {data : AcpiInterfaceData} {subtable : List UInt8} {type : UInt8}

theorem SubtableKind.found_of_ne (kind : SubtableKind) (htype : subtable[0]? = some type)
    (hne : type ≠ kind.type) : kind.found subtable = [] :=
  if_neg fun hmatches => hne (Option.some.inj (htype.symm.trans hmatches.1))

theorem SubtableKind.found_of_type (kind : SubtableKind)
    (htype : subtable[0]? = some kind.type) :
    kind.found subtable = if kind.recognised subtable then [subtable.take kind.size] else [] := by
  simp only [SubtableKind.found,SubtableKind.Matches,htype,true_and]

private theorem exists_length_byte (h : 2 ≤ subtable.length) :
    ∃ length, subtable[1]? = some length :=
  ⟨_,List.getElem?_eq_getElem h⟩

private theorem visit_localApic (htype : subtable[0]? = some 0) :
    visitSubtable data subtable =
      if 8 ≤ subtable.length then some (listSubtable data subtable) else none := by
  have hdrop : (subtable.drop 4).length = subtable.length - 4 := List.length_drop
  rw [visitSubtable,parseMadtSubtable,htype]
  by_cases hlength : 8 ≤ subtable.length
  · obtain ⟨length,hget⟩ := exists_length_byte (by omega : 2 ≤ subtable.length)
    rw [if_pos hlength,listSubtable,SubtableKind.localApic.found_of_type htype,
      SubtableKind.ioApic.found_of_ne htype (by decide),
      SubtableKind.interruptOverride.found_of_ne htype (by decide),hget,
      readBytes_of_le hlength,readBytes_of_le (by omega : 4 ≤ (subtable.drop 4).length)]
    by_cases hactive : processorActive ((subtable.drop 4).take 4)
    · simp [hactive,SubtableKind.localApic]
    · simp [hactive,SubtableKind.localApic]
  · rw [if_neg hlength,readBytes_of_lt (by omega : (subtable.drop 4).length < 4)]
    rfl

private theorem visit_ioApic (htype : subtable[0]? = some 1) :
    visitSubtable data subtable =
      if 12 ≤ subtable.length then some (listSubtable data subtable) else none := by
  rw [visitSubtable,parseMadtSubtable,htype]
  by_cases hlength : 12 ≤ subtable.length
  · obtain ⟨length,hget⟩ := exists_length_byte (by omega : 2 ≤ subtable.length)
    rw [if_pos hlength,listSubtable,SubtableKind.localApic.found_of_ne htype (by decide),
      SubtableKind.ioApic.found_of_type htype,
      SubtableKind.interruptOverride.found_of_ne htype (by decide),hget,
      readBytes_of_le hlength]
    simp [SubtableKind.ioApic]
  · rw [if_neg hlength,readBytes_of_lt (by omega : subtable.length < 12)]
    rfl

private theorem visit_interruptOverride (htype : subtable[0]? = some 2) :
    visitSubtable data subtable =
      if 10 ≤ subtable.length then some (listSubtable data subtable) else none := by
  rw [visitSubtable,parseMadtSubtable,htype]
  by_cases hlength : 10 ≤ subtable.length
  · obtain ⟨length,hget⟩ := exists_length_byte (by omega : 2 ≤ subtable.length)
    rw [if_pos hlength,listSubtable,SubtableKind.localApic.found_of_ne htype (by decide),
      SubtableKind.ioApic.found_of_ne htype (by decide),
      SubtableKind.interruptOverride.found_of_type htype,hget,readBytes_of_le hlength]
    simp [SubtableKind.interruptOverride]
  · rw [if_neg hlength,readBytes_of_lt (by omega : subtable.length < 10)]
    rfl

private theorem listSubtable_other (htype : subtable[0]? = some type) (h0 : type ≠ 0)
    (h1 : type ≠ 1) (h2 : type ≠ 2) : listSubtable data subtable = data := by
  rw [listSubtable,SubtableKind.localApic.found_of_ne htype h0,
    SubtableKind.ioApic.found_of_ne htype h1,
    SubtableKind.interruptOverride.found_of_ne htype h2]
  simp only [List.append_nil]

private theorem visit_localApicNmi (htype : subtable[0]? = some 4) :
    visitSubtable data subtable =
      if 6 ≤ subtable.length then some (listSubtable data subtable) else none := by
  have hdrop : (subtable.drop 2).length = subtable.length - 2 := List.length_drop
  rw [visitSubtable,parseMadtSubtable,htype,
    listSubtable_other htype (by decide) (by decide) (by decide)]
  by_cases hlength : 6 ≤ subtable.length
  · obtain ⟨length,hget⟩ := exists_length_byte (by omega : 2 ≤ subtable.length)
    rw [if_pos hlength,hget,readBytes_of_le (by omega : 4 ≤ (subtable.drop 2).length)]
    simp
  · rw [if_neg hlength,readBytes_of_lt (by omega : (subtable.drop 2).length < 4)]
    rfl

private theorem visit_other (htype : subtable[0]? = some type) (h0 : type ≠ 0) (h1 : type ≠ 1)
    (h2 : type ≠ 2) (h4 : type ≠ 4) :
    visitSubtable data subtable =
      if 2 ≤ subtable.length then some (listSubtable data subtable) else none := by
  rw [visitSubtable,parseMadtSubtable,htype,listSubtable_other htype h0 h1 h2]
  by_cases hlength : 2 ≤ subtable.length
  · obtain ⟨length,hget⟩ := exists_length_byte hlength
    rw [if_pos hlength,hget]
    simp [h0,h1,h2,h4]
  · rw [if_neg hlength,List.getElem?_eq_none (by omega)]
    simp [h0,h1,h2,h4]

theorem visitSubtable_eq (data : AcpiInterfaceData) (subtable : List UInt8) :
    visitSubtable data subtable =
      if decodedSize subtable ≤ subtable.length then some (listSubtable data subtable)
      else none := by
  cases subtable with
  | nil => rfl
  | cons type rest =>
    have htype : (type :: rest)[0]? = some type := rfl
    rw [decodedSize,htype]
    simp only [Option.some.injEq]
    by_cases h0 : type = 0
    · subst h0
      exact visit_localApic htype
    by_cases h1 : type = 1
    · subst h1
      exact visit_ioApic htype
    by_cases h2 : type = 2
    · subst h2
      exact visit_interruptOverride htype
    by_cases h4 : type = 4
    · subst h4
      exact visit_localApicNmi htype
    rw [if_neg h0,if_neg h1,if_neg h2,if_neg h4]
    exact visit_other htype h0 h1 h2 h4

theorem visitSubtable_eq_some (data : AcpiInterfaceData) (subtable : List UInt8)
    (result : AcpiInterfaceData) :
    visitSubtable data subtable = some result ↔
      decodedSize subtable ≤ subtable.length ∧ result = listSubtable data subtable := by
  rw [visitSubtable_eq]
  split
  case isTrue h => exact ⟨fun hsome => ⟨h,(Option.some.inj hsome).symm⟩,fun hr => congrArg some hr.2.symm⟩
  case isFalse h => exact ⟨fun hnone => (by cases hnone),fun hr => absurd hr.1 h⟩

end Visit

theorem foldl_listSubtable (subtables : List (List UInt8)) (data : AcpiInterfaceData) :
    subtables.foldl listSubtable data =
      { data with
        cpuList := data.cpuList ++ subtables.flatMap SubtableKind.localApic.found
        ioApicList := data.ioApicList ++ subtables.flatMap SubtableKind.ioApic.found
        intOverrideList :=
          data.intOverrideList ++ subtables.flatMap SubtableKind.interruptOverride.found } := by
  induction subtables generalizing data with
  | nil => simp only [List.foldl_nil,List.flatMap_nil,List.append_nil]
  | cons subtable subtables ih =>
    rw [List.foldl_cons,ih]
    simp only [listSubtable,List.flatMap_cons,List.append_assoc]

section Loop

variable {pData : List UInt8} {offset : Nat}

private theorem drop_ne_nil (h : offset < pData.length) : pData.drop offset ≠ [] := by
  rwa [ne_eq,List.drop_eq_nil_iff,Nat.not_le]

private theorem parseMadtLoop_step (fuel : Nat) (data : AcpiInterfaceData)
    (h : offset < pData.length) :
    parseMadtLoop pData pData.length (fuel + 1) offset data =
      (visitSubtable data (pData.drop offset)).bind fun data =>
        parseMadtLoop pData pData.length fuel
          ((offset + subtableLength (pData.drop offset)) % 2 ^ 32) data := by
  rw [parseMadtLoop,if_pos h,visitSubtable,subtableLength]
  dsimp only
  cases parseMadtSubtable (pData.drop offset) data with
  | none => rfl
  | some data' => cases (pData.drop offset)[1]? <;> rfl

theorem parseMadtLoop_eq_walk (fuel : Nat) (data : AcpiInterfaceData)
    (hbelow : ∀ subtable ∈ records subtableLength (pData.drop offset),
      pData.length - subtable.length + subtableLength subtable < 2 ^ 32) :
    parseMadtLoop pData pData.length (fuel + 1) offset data =
      walk subtableLength visitSubtable fuel (pData.drop offset) data := by
  induction fuel generalizing offset data with
  | zero =>
    by_cases hlt : offset < pData.length
    · rw [parseMadtLoop_step 0 data hlt,walk_zero_of_ne (drop_ne_nil hlt)]
      cases visitSubtable data (pData.drop offset) <;> rfl
    · rw [List.drop_eq_nil_of_le (Nat.not_lt.mp hlt),walk_nil,parseMadtLoop,if_neg hlt]
  | succ fuel ih =>
    by_cases hlt : offset < pData.length
    · rw [parseMadtLoop_step (fuel + 1) data hlt,walk_succ_of_ne (drop_ne_nil hlt)]
      have hend := hbelow _ (mem_records (drop_ne_nil hlt))
      rw [List.length_drop,Nat.sub_sub_self hlt.le] at hend
      rw [Nat.mod_eq_of_lt hend,List.drop_drop]
      congr 1
      funext data
      refine ih data ?_
      intro subtable hmem
      rw [← List.drop_drop] at hmem
      exact hbelow subtable (mem_records_of_mem_drop hmem)
    · rw [List.drop_eq_nil_of_le (Nat.not_lt.mp hlt),walk_nil,parseMadtLoop,if_neg hlt]

def visitAllocation (data : AcpiInterfaceData) (allocation : List UInt8) :
    Option AcpiInterfaceData :=
  (readBytes allocation sizeofAcpiMcfgAllocation).map fun entry =>
    { data with mcfgList := data.mcfgList ++ [entry] }

private theorem parseMcfgLoop_step (fuel : Nat) (data : AcpiInterfaceData)
    (h : offset < pData.length) :
    parseMcfgLoop pData pData.length (fuel + 1) offset data =
      (visitAllocation data (pData.drop offset)).bind fun data =>
        parseMcfgLoop pData pData.length fuel ((offset + sizeofAcpiMcfgAllocation) % 2 ^ 32)
          data := by
  rw [parseMcfgLoop,if_pos h,visitAllocation]
  cases readBytes (pData.drop offset) sizeofAcpiMcfgAllocation <;> rfl

theorem parseMcfgLoop_eq_walk (fuel : Nat) (data : AcpiInterfaceData)
    (hlength : pData.length + sizeofAcpiTableMcfg < 2 ^ 32) :
    parseMcfgLoop pData pData.length (fuel + 1) offset data =
      walk (fun _ => sizeofAcpiMcfgAllocation) visitAllocation fuel (pData.drop offset) data := by
  induction fuel generalizing offset data with
  | zero =>
    by_cases hlt : offset < pData.length
    · rw [parseMcfgLoop_step 0 data hlt,walk_zero_of_ne (drop_ne_nil hlt)]
      cases visitAllocation data (pData.drop offset) <;> rfl
    · rw [List.drop_eq_nil_of_le (Nat.not_lt.mp hlt),walk_nil,parseMcfgLoop,if_neg hlt]
  | succ fuel ih =>
    by_cases hlt : offset < pData.length
    · rw [parseMcfgLoop_step (fuel + 1) data hlt,walk_succ_of_ne (drop_ne_nil hlt)]
      have hend : offset + sizeofAcpiMcfgAllocation < 2 ^ 32 := by
        unfold sizeofAcpiMcfgAllocation
        unfold sizeofAcpiTableMcfg at hlength
        omega
      rw [Nat.mod_eq_of_lt hend,List.drop_drop]
      congr 1
      funext data
      exact ih data
    · rw [List.drop_eq_nil_of_le (Nat.not_lt.mp hlt),walk_nil,parseMcfgLoop,if_neg hlt]

end Loop

section Parsers

variable {table : AcpiTable} {data : AcpiInterfaceData}

private theorem actualTableLength_eq {sizeofTable : Nat} (hsize : sizeofTable ≤ table.bytes.length)
    (hword : sizeofTable < 2 ^ 32) :
    (table.bytes.length + 2 ^ 32 - sizeofTable) % 2 ^ 32 =
      (table.bytes.drop sizeofTable).length := by
  have hlt := table.length_lt
  rw [List.length_drop]
  omega

private theorem actualTableLength_wraps {sizeofTable : Nat}
    (hsize : table.bytes.length < sizeofTable) (hword : sizeofTable < 2 ^ 32) :
    0 < (table.bytes.length + 2 ^ 32 - sizeofTable) % 2 ^ 32 ∧
      table.bytes.drop sizeofTable = [] := by
  refine ⟨?_,List.drop_eq_nil_of_le hsize.le⟩
  rw [Nat.mod_eq_of_lt (by omega)]
  omega

private theorem subtableLength_lt (subtable : List UInt8) : subtableLength subtable < 2 ^ 8 := by
  rw [subtableLength]
  cases subtable[1]? with
  | none => exact Nat.two_pow_pos 8
  | some length => exact length.toNat_lt

theorem acpiInterfaceParseMadt_ok {fuel : Nat} {result : AcpiInterfaceData}
    (h : acpiInterfaceParseMadt fuel (.ok table) data = some (.ok (),result)) :
    sizeofAcpiTableMadt ≤ table.bytes.length ∧ ∃ fuel',
      parseMadtLoop (table.bytes.drop sizeofAcpiTableMadt)
        (table.bytes.drop sizeofAcpiTableMadt).length (fuel' + 1) 0 data = some result := by
  obtain ⟨result',hloop,hresult⟩ := Option.bind_eq_some_iff.mp h
  cases hresult
  cases fuel with
  | zero => cases hloop
  | succ fuel =>
    by_cases hsize : sizeofAcpiTableMadt ≤ table.bytes.length
    · rw [actualTableLength_eq hsize (by decide)] at hloop
      exact ⟨hsize,fuel,hloop⟩
    · obtain ⟨hpos,hnil⟩ := actualTableLength_wraps (Nat.not_le.mp hsize) (by decide)
      rw [parseMadtLoop,if_pos hpos,hnil] at hloop
      cases hloop

theorem acpiInterfaceParseMcfg_ok {fuel : Nat} {result : AcpiInterfaceData}
    (h : acpiInterfaceParseMcfg fuel (.ok table) data = some (.ok (),result)) :
    sizeofAcpiTableMcfg ≤ table.bytes.length ∧ ∃ fuel',
      parseMcfgLoop (table.bytes.drop sizeofAcpiTableMcfg)
        (table.bytes.drop sizeofAcpiTableMcfg).length (fuel' + 1) 0 data = some result := by
  obtain ⟨result',hloop,hresult⟩ := Option.bind_eq_some_iff.mp h
  cases hresult
  cases fuel with
  | zero => cases hloop
  | succ fuel =>
    by_cases hsize : sizeofAcpiTableMcfg ≤ table.bytes.length
    · rw [actualTableLength_eq hsize (by decide)] at hloop
      exact ⟨hsize,fuel,hloop⟩
    · obtain ⟨hpos,hnil⟩ := actualTableLength_wraps (Nat.not_le.mp hsize) (by decide)
      rw [parseMcfgLoop,if_pos hpos,hnil] at hloop
      cases hloop

private theorem entries_eq_iff (kind : SubtableKind) (subtables : List (List UInt8)) :
    subtables.flatMap kind.found = subtables.flatMap kind.entry ↔
      ∀ subtable ∈ subtables, kind.Matches subtable → kind.Complete subtable := by
  have hkept : ∀ subtable, kind.entry subtable = kind.found subtable ∨ kind.entry subtable = [] := by
    intro subtable
    by_cases hmatches : kind.Matches subtable
    · by_cases hcomplete : kind.Complete subtable
      · left
        rw [SubtableKind.entry,SubtableKind.found,if_pos ⟨hmatches,hcomplete⟩,if_pos hmatches]
      · right
        exact if_neg fun hboth => hcomplete hboth.2
    · right
      exact if_neg fun hboth => hmatches hboth.1
  rw [flatMap_eq_iff hkept]
  refine forall_congr' fun subtable => imp_congr_right fun _ => ?_
  rw [SubtableKind.found,SubtableKind.entry]
  by_cases hmatches : kind.Matches subtable
  · by_cases hcomplete : kind.Complete subtable
    · simp [hmatches,hcomplete]
    · simp [hmatches,hcomplete]
  · simp [hmatches]

theorem madtParsed_of_fits (hfits : MadtFits table) : MadtParsed table data := by
  obtain ⟨hsize,hsubtables⟩ := hfits
  refine ⟨(table.bytes.drop sizeofAcpiTableMadt).length + 1,?_⟩
  have hfold := (foldlM_iff visitSubtable_eq_some _ data _).mpr
    ⟨fun subtable hmem => (hsubtables subtable hmem).1.inside,rfl⟩
  have hwalk := walk_of_foldlM (fun subtable hmem => (hsubtables subtable hmem).1.length_pos) hfold
  have hlists : ∀ kind ∈ [SubtableKind.localApic,.ioApic,.interruptOverride],
      (records subtableLength (table.bytes.drop sizeofAcpiTableMadt)).flatMap kind.found =
        kind.entries table := by
    intro kind hkind
    exact (entries_eq_iff kind _).mpr fun subtable hmem =>
      (hsubtables subtable hmem).1.complete kind hkind
  have hbelow : ∀ subtable ∈
      records subtableLength ((table.bytes.drop sizeofAcpiTableMadt).drop 0),
      (table.bytes.drop sizeofAcpiTableMadt).length - subtable.length +
        subtableLength subtable < 2 ^ 32 := by
    rw [List.drop_zero]
    exact fun subtable hmem => (hsubtables subtable hmem).2
  rw [acpiInterfaceParseMadt]
  simp only [actualTableLength_eq hsize (by decide)]
  rw [parseMadtLoop_eq_walk _ _ hbelow,List.drop_zero,hwalk,foldl_listSubtable,hlists _ (by simp),
    hlists _ (by simp),hlists _ (by simp)]
  rfl

theorem madtFits_of_parsed (hsmall : table.bytes.length + 211 ≤ 2 ^ 32)
    (hparsed : MadtParsed table data) : MadtFits table := by
  obtain ⟨fuel,hparse⟩ := hparsed
  obtain ⟨hsize,fuel',hloop⟩ := acpiInterfaceParseMadt_ok hparse
  have hbelow : ∀ subtable ∈ records subtableLength (table.bytes.drop sizeofAcpiTableMadt),
      (table.bytes.drop sizeofAcpiTableMadt).length - subtable.length +
        subtableLength subtable < 2 ^ 32 := by
    intro subtable hmem
    have hpos := List.length_pos_iff.mpr (length_le_of_mem hmem).1
    have hlength := subtableLength_lt subtable
    rw [List.length_drop]
    unfold sizeofAcpiTableMadt
    omega
  rw [parseMadtLoop_eq_walk _ _ (by rwa [List.drop_zero]),List.drop_zero] at hloop
  obtain ⟨hpos,hfold⟩ := of_walk hloop
  obtain ⟨hinside,hresult⟩ := (foldlM_iff visitSubtable_eq_some _ data _).mp hfold
  rw [foldl_listSubtable] at hresult
  injection hresult with hcpu hioApic hoverride
  have hcomplete : ∀ kind ∈ [SubtableKind.localApic,.ioApic,.interruptOverride],
      ∀ subtable ∈ records subtableLength (table.bytes.drop sizeofAcpiTableMadt),
        kind.Matches subtable → kind.Complete subtable := by
    intro kind hkind
    refine (entries_eq_iff kind _).mp ?_
    simp only [List.mem_cons,List.not_mem_nil,or_false] at hkind
    rcases hkind with rfl | rfl | rfl
    · exact (List.append_cancel_left hcpu).symm
    · exact (List.append_cancel_left hioApic).symm
    · exact (List.append_cancel_left hoverride).symm
  refine ⟨hsize,fun subtable hmem => ⟨?_,hbelow subtable hmem⟩⟩
  exact
    { inside := hinside subtable hmem
      length_pos := hpos subtable hmem
      complete := fun kind hkind => hcomplete kind hkind subtable hmem }

private theorem visitAllocation_eq_some (data : AcpiInterfaceData) (allocation : List UInt8)
    (result : AcpiInterfaceData) :
    visitAllocation data allocation = some result ↔
      sizeofAcpiMcfgAllocation ≤ allocation.length ∧ result = { data with
        mcfgList := data.mcfgList ++ [allocation.take sizeofAcpiMcfgAllocation] } := by
  by_cases hlength : sizeofAcpiMcfgAllocation ≤ allocation.length
  · rw [visitAllocation,readBytes_of_le hlength,Option.map_some,Option.some.injEq]
    exact ⟨fun h => ⟨hlength,h.symm⟩,fun h => h.2.symm⟩
  · rw [visitAllocation,readBytes_of_lt (Nat.not_le.mp hlength),Option.map_none]
    exact ⟨fun h => (by cases h),fun h => absurd h.1 hlength⟩

private theorem foldl_allocations (allocations : List (List UInt8))
    (h : ∀ allocation ∈ allocations, sizeofAcpiMcfgAllocation ≤ allocation.length)
    (data : AcpiInterfaceData) :
    allocations.foldl (fun data allocation => { data with
        mcfgList := data.mcfgList ++ [allocation.take sizeofAcpiMcfgAllocation] }) data =
      { data with mcfgList := data.mcfgList ++ allocations.flatMap fun allocation =>
        if sizeofAcpiMcfgAllocation ≤ allocation.length then
          [allocation.take sizeofAcpiMcfgAllocation] else [] } := by
  induction allocations generalizing data with
  | nil => simp only [List.foldl_nil,List.flatMap_nil,List.append_nil]
  | cons allocation allocations ih =>
    obtain ⟨hfirst,hrest⟩ := List.forall_mem_cons.mp h
    rw [List.foldl_cons,ih hrest,List.flatMap_cons,if_pos hfirst]
    simp only [List.append_assoc]

theorem mcfgParsed_iff : McfgParsed table data ↔ McfgFits table := by
  have hlt := table.length_lt
  constructor
  · rintro ⟨fuel,hparse⟩
    obtain ⟨hsize,fuel',hloop⟩ := acpiInterfaceParseMcfg_ok hparse
    rw [parseMcfgLoop_eq_walk _ _ (by rw [List.length_drop]; omega),List.drop_zero] at hloop
    obtain ⟨hinside,-⟩ := (foldlM_iff visitAllocation_eq_some _ data _).mp (of_walk hloop).2
    have hdvd := (forall_mem_records_const (by decide) _).mp hinside
    rw [List.length_drop] at hdvd
    exact ⟨hsize,hdvd⟩
  · rintro ⟨hsize,hdvd⟩
    have hinside := (forall_mem_records_const (by decide : 0 < sizeofAcpiMcfgAllocation)
      (table.bytes.drop sizeofAcpiTableMcfg)).mpr (by rwa [List.length_drop])
    refine ⟨(table.bytes.drop sizeofAcpiTableMcfg).length + 1,?_⟩
    have hfold := (foldlM_iff visitAllocation_eq_some _ data _).mpr ⟨hinside,rfl⟩
    rw [acpiInterfaceParseMcfg]
    simp only [actualTableLength_eq hsize (by decide)]
    rw [parseMcfgLoop_eq_walk _ _ (by rw [List.length_drop]; omega),List.drop_zero,
      walk_of_foldlM (fun _ _ => by decide) hfold,foldl_allocations _ hinside]
    rfl

end Parsers

/-- The parsers end, read inside the tables and list what these list when the tables fit. Of
tables too short for an offset to wrap, these are the only ones. -/
theorem acpi_tables_parsed (table : AcpiTable) (data : AcpiInterfaceData) :
    (MadtFits table → MadtParsed table data) ∧
      (table.bytes.length + 211 ≤ 2 ^ 32 → MadtParsed table data → MadtFits table) ∧
      (McfgParsed table data ↔ McfgFits table) :=
  ⟨madtParsed_of_fits,madtFits_of_parsed,mcfgParsed_iff⟩

def exampleProcessors : List UInt8 := [0,8,0,0,1,0,0,0,0,8,1,1,1,0,0,0]
def exampleIoApic : List UInt8 := [1,12,2,0,0,0,0xC0,0xFE,0,0,0,0]
def exampleOverride : List UInt8 := [2,10,0,0,2,0,0,0,0,0]

/-- Two processors, an I/O APIC and an interrupt override. -/
def exampleMadt : AcpiTable :=
  ⟨List.replicate 44 0 ++ exampleProcessors ++ exampleIoApic ++ exampleOverride,by decide⟩

/-- Two allocations. -/
def exampleMcfg : AcpiTable := ⟨List.replicate 76 0,by decide⟩

private theorem exampleMadt_records :
    records subtableLength (exampleMadt.bytes.drop sizeofAcpiTableMadt) =
      [exampleProcessors ++ exampleIoApic ++ exampleOverride,
        exampleProcessors.drop 8 ++ exampleIoApic ++ exampleOverride,exampleIoApic ++ exampleOverride,
        exampleOverride] := by
  have hoverride : records subtableLength exampleOverride = [exampleOverride] := by
    rw [records_of_pos (by decide) (by decide)]
    exact congrArg _ records_nil
  have hioApic : records subtableLength (exampleIoApic ++ exampleOverride) =
      [exampleIoApic ++ exampleOverride,exampleOverride] := by
    rw [records_of_pos (by decide) (by decide)]
    exact congrArg _ hoverride
  have hsecond : records subtableLength (exampleProcessors.drop 8 ++ exampleIoApic ++
      exampleOverride) = [exampleProcessors.drop 8 ++ exampleIoApic ++ exampleOverride,
        exampleIoApic ++ exampleOverride,exampleOverride] := by
    rw [records_of_pos (by decide) (by decide)]
    exact congrArg _ hioApic
  have hdrop : exampleMadt.bytes.drop sizeofAcpiTableMadt =
      exampleProcessors ++ exampleIoApic ++ exampleOverride := by decide
  rw [hdrop,records_of_pos (by decide) (by decide)]
  exact congrArg _ hsecond

theorem acpi_tables_parsed_four :
    SubtableKind.localApic.entries exampleMadt = [[0,8,0,0,1,0,0,0],[0,8,1,1,1,0,0,0]] ∧
      SubtableKind.ioApic.entries exampleMadt = [exampleIoApic] ∧
      SubtableKind.interruptOverride.entries exampleMadt = [exampleOverride] ∧
      MadtParsed exampleMadt ⟨[],[],[],[]⟩ ∧ McfgParsed exampleMcfg ⟨[],[],[],[]⟩ := by
  obtain ⟨hmadt,-,-⟩ := acpi_tables_parsed exampleMadt ⟨[],[],[],[]⟩
  obtain ⟨-,-,hmcfg⟩ := acpi_tables_parsed exampleMcfg ⟨[],[],[],[]⟩
  simp only [SubtableKind.entries,exampleMadt_records]
  refine ⟨by decide,by decide,by decide,hmadt ⟨by decide,?_⟩,
    hmcfg.mpr (by unfold McfgFits; decide)⟩
  rw [exampleMadt_records]
  intro subtable hsubtable
  simp only [List.mem_cons,List.not_mem_nil,or_false] at hsubtable
  rcases hsubtable with rfl | rfl | rfl | rfl
  all_goals exact ⟨⟨by decide,by decide,by decide⟩,by decide⟩

/-- A subtable of an unknown type whose length is zero. -/
def emptySubtableTable : AcpiTable := ⟨List.replicate 44 0 ++ [128,0],by decide⟩

private theorem emptySubtable_loops (fuel : Nat) (data : AcpiInterfaceData) :
    parseMadtLoop [128,0] 2 fuel 0 data = none := by
  induction fuel with
  | zero => rfl
  | succ fuel ih => exact ih

/-- Nothing leads behind a subtable of length zero: the parser does not end. -/
theorem madt_parser_hangs :
    (∀ fuel, acpiInterfaceParseMadt fuel (.ok emptySubtableTable) ⟨[],[],[],[]⟩ = none) ∧
      ¬MadtParsed emptySubtableTable ⟨[],[],[],[]⟩ := by
  have hhangs : ∀ fuel,
      acpiInterfaceParseMadt fuel (.ok emptySubtableTable) ⟨[],[],[],[]⟩ = none := by
    intro fuel
    have hdrop : emptySubtableTable.bytes.drop sizeofAcpiTableMadt = [128,0] := by decide
    have hlength :
        (emptySubtableTable.bytes.length + 2 ^ 32 - sizeofAcpiTableMadt) % 2 ^ 32 = 2 := by decide
    rw [acpiInterfaceParseMadt]
    simp only [hdrop,hlength,emptySubtable_loops]
    rfl
  refine ⟨hhangs,?_⟩
  rintro ⟨fuel,hparse⟩
  rw [hhangs] at hparse
  cases hparse

end Hal9000
