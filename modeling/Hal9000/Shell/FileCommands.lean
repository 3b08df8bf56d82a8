import Hal9000.Io.FileObjects
import Hal9000.Shell.CmdInterpreter
import Hal9000.Shell.LineEditor

/-!
# Writing a file from the shell

The command fills a file, and up to nine sectors behind it, through one buffer. The buffer is as
long as the file if that is less than a sector; each round prints a counter into it and writes it.
-/

namespace Hal9000

/-- What `"%02dsector"` makes of the counter. -/
def sectorText (i : Nat) : List Char :=
  let sign := if asInt i < 0 then ['-'] else []
  let digits := (Nat.digits 10 (asInt i).natAbs).reverse.map Nat.digitChar
  sign ++ List.replicate (2 - (sign.length + digits.length)) '0' ++ digits ++ "sector".toList

/-- `sprintf` of a text that is formatted already; no result where it leaves the buffer. -/
def sprintf (buffer text : List Char) : Option (List Char) :=
  if text.length < buffer.length then
    some (text ++ Char.ofNat 0 :: buffer.drop (text.length + 1))
  else none

/-- What the function works on in its loop, and what it has written where. -/
structure WriteState (Device : Type) where
  pData : List Char
  i : Nat
  bytesRemaining : Nat
  fileOffset : Nat
  pFileObject : FileObject Device
  written : List (Nat × List Char)

/-- What the function meets with: the file that is opened, its size, the heap, and whether there
is memory for the request of a write and the answer to it, by the number of the write and the
length and the offset that are asked for. -/
structure WriteEnvironment (Device : Type) where
  opened : Option (FileObject Device)
  fileSize : Option (BitVec 64)
  heapAvailable : Bool
  answers : Nat → BitVec 64 → BitVec 64 → Bool × FileSystemReply

theorem sectorText_length (i : Nat) : (sectorText i).length =
    max 2 ((if asInt i < 0 then 1 else 0) + (Nat.digits 10 (asInt i).natAbs).length) + 6 := by
  have hword : "sector".toList.length = 6 := rfl
  simp only [sectorText,List.length_append,List.length_replicate,List.length_map,
    List.length_reverse,hword]
  split
  · rw [List.length_singleton]
    omega
  · rw [List.length_nil]
    omega

theorem sectorText_length_of_lt {i digits : Nat} (htwo : 2 ≤ digits) (hsmall : i < 2 ^ 31)
    (hi : i < 10 ^ digits) : (sectorText i).length ≤ digits + 6 := by
  have hcount := (Nat.digits_length_le_iff (by decide : 1 < 10) i).mpr hi
  have hnonneg : ¬ (i : Int) < 0 := by omega
  rw [sectorText_length,asInt_of_lt hsmall,if_neg hnonneg,Int.natAbs_natCast]
  omega

theorem sectorText_length_le {i : Nat} (hi : i < 2 ^ 32) : (sectorText i).length ≤ 17 := by
  have hbound : (asInt i).natAbs < 10 ^ 10 := by
    rw [asInt]
    split
    · omega
    · omega
  have hcount := (Nat.digits_length_le_iff (by decide : 1 < 10) _).mpr hbound
  rw [sectorText_length]
  split
  · omega
  · omega

section Command

variable {Device : Type}

/-- One round of the loop, and whether it is left because the write failed. -/
def writeRound (answers : Nat → BitVec 64 → BitVec 64 → Bool × FileSystemReply)
    (allocationSize : Nat) (s : WriteState Device) : Option (WriteState Device × Bool) := do
  let pData ← sprintf s.pData (sectorText s.i)
  let i := (s.i + 1) % 2 ^ 32
  let bytesToWrite := min s.bytesRemaining allocationSize % 2 ^ 32
  let length := BitVec.ofNat 64 bytesToWrite
  let offset := BitVec.ofNat 64 s.fileOffset
  let answer := answers s.written.length length offset
  let (result,pFileObject) ← ioWriteFile s.pFileObject length (some offset) answer.1 answer.2
  match result.status with
  | .error _ => some ({ s with pData := pData, i := i, pFileObject := pFileObject },true)
  | .ok _ => do
    let bytesWritten := (result.bytesTransferred.getD 0).toNat
    assert (bytesToWrite == bytesWritten)
    some
      ({ pData := pData
         i := i
         bytesRemaining := s.bytesRemaining - bytesWritten
         fileOffset := (s.fileOffset + bytesWritten) % qwordModulus
         pFileObject := pFileObject
         written := s.written ++ [(s.fileOffset,pData.take bytesToWrite)] },false)

/-- The loop; no result when the rounds do not suffice. -/
def writeLoop (answers : Nat → BitVec 64 → BitVec 64 → Bool × FileSystemReply)
    (allocationSize : Nat) : Nat → WriteState Device → Option (WriteState Device)
  | 0,_ => none
  | fuel + 1,s =>
    if s.bytesRemaining = 0 then some s
    else do
      let (s,left) ← writeRound answers allocationSize s
      if left then some s else writeLoop answers allocationSize fuel s

/-- `CmdWriteFile`: what it writes where. -/
def cmdWriteFile (fuel numberOfParameters : Nat) (parameters : List (Option (List Char)))
    (env : WriteEnvironment Device) : Option (List (Nat × List Char)) := do
  assert (decide (1 ≤ numberOfParameters ∧ numberOfParameters ≤ 4))
  if parameters[0]?.join.isNone then some []
  else
    let charToWrite ←
      if 2 ≤ numberOfParameters then parameters[1]?.join.map fun text => text.headD (Char.ofNat 0)
      else some 'x'
    let bExtend ←
      if 3 ≤ numberOfParameters then parameters[2]?.join.map (stricmpEqual · "ext".toList)
      else some false
    let bAsync ←
      if 4 ≤ numberOfParameters then parameters[3]?.join.map (stricmpEqual · "async".toList)
      else some false
    match env.opened,env.fileSize with
    | some pFileObject,some fileSize =>
      let allocationSize := min fileSize.toNat 0x200
      if env.heapAvailable then
        (writeLoop env.answers allocationSize fuel
          { pData := List.replicate allocationSize charToWrite
            i := 0
            bytesRemaining := (fileSize.toNat + if bExtend then 9 * 0x200 else 0) % qwordModulus
            fileOffset := 0
            pFileObject := { pFileObject with asynchronous := bAsync }
            written := [] }).map (·.written)
      else some []
    | _,_ => some []

/-- `IoWriteFile` transfers what is asked for. -/
def TransfersRequested (device : DeviceObject Device)
    (answers : Nat → BitVec 64 → BitVec 64 → Bool × FileSystemReply) : Prop :=
  ∀ file : FileObject Device, file.fileSystemDevice = device → ∀ n length offset,
    ∃ file', file'.fileSystemDevice = device ∧
      ioWriteFile file length (some offset) (answers n length offset).1
        (answers n length offset).2 = some (⟨.ok (),some length⟩,file')

/-- The positions that are written, in order. -/
def writtenPositions (written : List (Nat × List Char)) : List Nat :=
  written.flatMap fun write => List.range' write.1 write.2.length

/-- The counter and its terminator fit in the buffer. -/
def CounterFits (allocationSize i : Nat) : Prop := (sectorText i).length < allocationSize

/-- What holds before every round: the positions up to the offset are written, and those that
remain come after it. -/
structure WriteInv (device : DeviceObject Device) (allocationSize total : Nat)
    (s : WriteState Device) : Prop where
  buffer : s.pData.length = allocationSize
  device : s.pFileObject.fileSystemDevice = device
  counter : s.i < 2 ^ 32
  remaining : s.fileOffset + s.bytesRemaining = total
  written : writtenPositions s.written = List.range s.fileOffset

variable {device : DeviceObject Device} {allocationSize total : Nat} {s : WriteState Device}
  {answers : Nat → BitVec 64 → BitVec 64 → Bool × FileSystemReply}

theorem sprintf_length {buffer text printed : List Char} (h : sprintf buffer text = some printed) :
    text.length < buffer.length ∧ printed.length = buffer.length := by
  rw [sprintf] at h
  split at h
  · rename_i hfits
    cases h
    refine ⟨hfits,?_⟩
    rw [List.length_append,List.length_cons,List.length_drop]
    omega
  · cases h

theorem writeRound_writes (htransfers : TransfersRequested device answers)
    (hsmall : allocationSize ≤ 0x200) (htotal : total < qwordModulus)
    (hinv : WriteInv device allocationSize total s) (hfits : CounterFits allocationSize s.i) :
    ∃ s', writeRound answers allocationSize s = some (s',false) ∧
      WriteInv device allocationSize total s' ∧ s'.i = (s.i + 1) % 2 ^ 32 ∧
      s'.bytesRemaining = s.bytesRemaining - min s.bytesRemaining allocationSize := by
  have hbuffer := hinv.buffer
  have hremaining := hinv.remaining
  have hprint : sprintf s.pData (sectorText s.i) =
      some (sectorText s.i ++ Char.ofNat 0 :: s.pData.drop ((sectorText s.i).length + 1)) := by
    rw [sprintf,if_pos]
    rw [hbuffer]
    exact hfits
  obtain ⟨-,hlength⟩ := sprintf_length hprint
  generalize sectorText s.i ++ Char.ofNat 0 :: s.pData.drop ((sectorText s.i).length + 1) = printed
    at hprint hlength
  have hcount : min s.bytesRemaining allocationSize % 2 ^ 32 =
      min s.bytesRemaining allocationSize := by
    apply Nat.mod_eq_of_lt
    omega
  have hword : (BitVec.ofNat 64 (min s.bytesRemaining allocationSize)).toNat =
      min s.bytesRemaining allocationSize := by
    rw [BitVec.toNat_ofNat]
    apply Nat.mod_eq_of_lt
    omega
  obtain ⟨file',hdevice,hwrite⟩ := htransfers s.pFileObject hinv.device s.written.length
    (BitVec.ofNat 64 (min s.bytesRemaining allocationSize)) (BitVec.ofNat 64 s.fileOffset)
  have hoffset : (s.fileOffset + min s.bytesRemaining allocationSize) % qwordModulus =
      s.fileOffset + min s.bytesRemaining allocationSize := by
    apply Nat.mod_eq_of_lt
    omega
  have hassert : assert (min s.bytesRemaining allocationSize ==
      min s.bytesRemaining allocationSize) = some () := assert_eq_some.mpr (beq_self_eq_true _)
  refine ⟨⟨printed,(s.i + 1) % 2 ^ 32,s.bytesRemaining - min s.bytesRemaining allocationSize,
    s.fileOffset + min s.bytesRemaining allocationSize,file',
    s.written ++ [(s.fileOffset,printed.take (min s.bytesRemaining allocationSize))]⟩,?_,
    ⟨hlength.trans hbuffer,hdevice,Nat.mod_lt _ (by decide),?_,?_⟩,rfl,rfl⟩
  · simp only [writeRound,hprint,hcount,hwrite,Option.bind_eq_bind,Option.bind_some,
      Option.getD_some,hword,hassert,hoffset]
  · dsimp only
    omega
  · rw [writtenPositions,List.flatMap_append,List.flatMap_singleton,← writtenPositions,
      hinv.written,List.length_take,hlength,hbuffer,List.range_add,List.range'_eq_map_range,
      Nat.min_assoc,Nat.min_self]

theorem writeRound_overflows (hbuffer : s.pData.length = allocationSize)
    (hfits : ¬ CounterFits allocationSize s.i) : writeRound answers allocationSize s = none := by
  have hprint : sprintf s.pData (sectorText s.i) = none := by
    rw [sprintf,if_neg]
    rw [hbuffer]
    exact hfits
  rw [writeRound,hprint]
  rfl

/-- The counters of the rounds that are left all fit: there are as many rounds as buffers in the
bytes that remain. -/
def CountersFit (allocationSize i bytesRemaining : Nat) : Prop :=
  ∀ j, j * allocationSize < bytesRemaining → CounterFits allocationSize ((i + j) % 2 ^ 32)

theorem countersFit_step {i bytesRemaining : Nat} (hpos : bytesRemaining ≠ 0) (hi : i < 2 ^ 32) :
    CountersFit allocationSize i bytesRemaining ↔ CounterFits allocationSize i ∧
      CountersFit allocationSize ((i + 1) % 2 ^ 32)
        (bytesRemaining - min bytesRemaining allocationSize) := by
  have hnext (j : Nat) : ((i + 1) % 2 ^ 32 + j) % 2 ^ 32 = (i + (j + 1)) % 2 ^ 32 := by
    rw [Nat.mod_add_mod]
    congr 1
    omega
  have hhere : (i + 0) % 2 ^ 32 = i := Nat.mod_eq_of_lt hi
  constructor
  · intro h
    refine ⟨hhere ▸ h 0 (by omega),fun j hj => ?_⟩
    rw [hnext]
    apply h
    rw [Nat.succ_mul]
    omega
  · rintro ⟨hfirst,hrest⟩ j hj
    cases j with
    | zero => exact hhere.symm ▸ hfirst
    | succ j =>
      rw [← hnext]
      apply hrest
      rw [Nat.succ_mul] at hj
      omega

theorem writeLoop_written (htransfers : TransfersRequested device answers)
    (hsmall : allocationSize ≤ 0x200) (htotal : total < qwordModulus) {fuel : Nat}
    {s' : WriteState Device} (hinv : WriteInv device allocationSize total s)
    (h : writeLoop answers allocationSize fuel s = some s') :
    writtenPositions s'.written = List.range total ∧
      CountersFit allocationSize s.i s.bytesRemaining := by
  induction fuel generalizing s with
  | zero => cases h
  | succ fuel ih =>
    rw [writeLoop] at h
    by_cases hremaining : s.bytesRemaining = 0
    · rw [if_pos hremaining] at h
      cases h
      have hoffset := hinv.remaining
      rw [hremaining,Nat.add_zero] at hoffset
      refine ⟨hoffset ▸ hinv.written,fun j hj => ?_⟩
      rw [hremaining] at hj
      exact absurd hj (Nat.not_lt_zero _)
    · rw [if_neg hremaining] at h
      by_cases hfits : CounterFits allocationSize s.i
      · obtain ⟨next,hround,hnext,hi,hleft⟩ :=
          writeRound_writes htransfers hsmall htotal hinv hfits
        rw [hround] at h
        obtain ⟨hwritten,hrest⟩ := ih hnext h
        rw [hi,hleft] at hrest
        exact ⟨hwritten,(countersFit_step hremaining hinv.counter).mpr ⟨hfits,hrest⟩⟩
      · rw [writeRound_overflows hinv.buffer hfits] at h
        cases h

theorem writeLoop_ends (htransfers : TransfersRequested device answers)
    (hsmall : allocationSize ≤ 0x200) (htotal : total < qwordModulus)
    (hinv : WriteInv device allocationSize total s)
    (hfits : CountersFit allocationSize s.i s.bytesRemaining) :
    ∃ fuel s', writeLoop answers allocationSize fuel s = some s' := by
  generalize hcount : s.bytesRemaining = count
  induction count using Nat.strongRecOn generalizing s with
  | ind count ih =>
    by_cases hremaining : s.bytesRemaining = 0
    · exact ⟨1,s,by rw [writeLoop,if_pos hremaining]⟩
    · obtain ⟨hhere,hrest⟩ := (countersFit_step hremaining hinv.counter).mp hfits
      obtain ⟨next,hround,hnext,hi,hleft⟩ :=
        writeRound_writes htransfers hsmall htotal hinv hhere
      have hpos : 0 < allocationSize := Nat.zero_lt_of_lt hhere
      have hless : next.bytesRemaining < count := by omega
      obtain ⟨fuel,s',hloop⟩ := ih next.bytesRemaining hless hnext (by rw [hi,hleft]; exact hrest)
        rfl
      refine ⟨fuel + 1,s',?_⟩
      rw [writeLoop,if_neg hremaining,hround]
      exact hloop

theorem countersFit_iff {size : Nat} (bExtend : Bool) :
    CountersFit (min size 0x200) 0 (size + if bExtend then 9 * 0x200 else 0) ↔
      if bExtend then 10 ≤ size else size = 0 ∨ 9 ≤ size := by
  have hzero : (sectorText 0).length = 8 := rfl
  have hhundred : (sectorText 100).length = 9 := rfl
  have hsector : 0x200 ≤ size → ∀ bytes, CountersFit (min size 0x200) 0 bytes := by
    intro hsize bytes j _
    have hlength := sectorText_length_le (Nat.mod_lt (0 + j) (by decide : 0 < 2 ^ 32))
    rw [CounterFits]
    omega
  cases bExtend with
  | false =>
    rw [if_neg Bool.false_ne_true,if_neg Bool.false_ne_true,Nat.add_zero]
    constructor
    · intro h
      by_cases hsize : size = 0
      · exact Or.inl hsize
      · have hfirst := h 0 (by omega)
        rw [CounterFits,Nat.zero_mod,hzero] at hfirst
        omega
    · rintro (rfl | hsize)
      · exact fun j hj => absurd hj (Nat.not_lt_zero _)
      · rcases Nat.lt_or_ge size 0x200 with hsmall | hlarge
        · intro j hj
          rw [Nat.min_eq_left (Nat.le_of_lt hsmall)] at hj ⊢
          have hj0 : j = 0 := by
            by_contra hne
            have hle := Nat.le_mul_of_pos_left size (Nat.pos_of_ne_zero hne)
            omega
          rw [hj0,CounterFits,Nat.zero_mod,hzero]
          omega
        · exact hsector hlarge _
  | true =>
    rw [if_pos rfl,if_pos rfl]
    constructor
    · intro h
      by_contra hsize
      have hsmall : min size 0x200 = size := by omega
      rw [hsmall] at h
      have hround := h 100 (by omega)
      have hfirst := h 0 (by omega)
      rw [CounterFits,Nat.zero_mod,hzero] at hfirst
      rw [CounterFits,show (0 + 100) % 2 ^ 32 = 100 from rfl,hhundred] at hround
      omega
    · intro hsize
      rcases Nat.lt_or_ge size 0x200 with hsmall | hlarge
      · intro j hj
        rw [Nat.min_eq_left (Nat.le_of_lt hsmall)] at hj ⊢
        have hrounds : j < 10 ^ 3 := by
          by_contra hmany
          have hle : 1000 * size ≤ j * size := Nat.mul_le_mul_right size (by omega)
          omega
        have hj32 : (0 + j) % 2 ^ 32 = j := by
          rw [Nat.zero_add]
          apply Nat.mod_eq_of_lt
          omega
        have hlength := sectorText_length_of_lt (by decide) (by omega) hrounds
        rw [CounterFits,hj32]
        omega
      · exact hsector hlarge _

/-- The extension flag of the command, with its parameters. -/
def extendsFile (parameters : List (List Char)) : Bool :=
  parameters[2]?.any (stricmpEqual · "ext".toList)

/-- The bytes up to the end of the file, and of its extension. -/
def bytesToCover (parameters : List (List Char)) (fileSize : BitVec 64) : Nat :=
  fileSize.toNat + if extendsFile parameters then 9 * 0x200 else 0

/-- The command ends, and has written every position once and in order. -/
def WritesFile (parameters : List (List Char)) (env : WriteEnvironment Device)
    (fileSize : BitVec 64) : Prop :=
  ∃ fuel written,
    cmdWriteFile fuel parameters.length (passedParameters parameters) env = some written ∧
    writtenPositions written = List.range (bytesToCover parameters fileSize)

theorem cmdWriteFile_loop {parameters : List (List Char)}
    (hparameters : 1 ≤ parameters.length ∧ parameters.length ≤ 4) {env : WriteEnvironment Device}
    {file : FileObject Device} {fileSize : BitVec 64} (hopened : env.opened = some file)
    (hsize : env.fileSize = some fileSize) (hheap : env.heapAvailable = true) :
    ∃ start : WriteState Device,
      WriteInv file.fileSystemDevice (min fileSize.toNat 0x200)
        (bytesToCover parameters fileSize % qwordModulus) start ∧ start.i = 0 ∧
      start.bytesRemaining = bytesToCover parameters fileSize % qwordModulus ∧
      ∀ fuel, cmdWriteFile fuel parameters.length (passedParameters parameters) env =
        (writeLoop env.answers (min fileSize.toNat 0x200) fuel start).map (·.written) := by
  have hstart (c : Char) (bAsync : Bool) (bytes : Nat) :
      WriteInv file.fileSystemDevice (min fileSize.toNat 0x200) bytes
        (⟨List.replicate (min fileSize.toNat 0x200) c,0,bytes,0,
          { file with asynchronous := bAsync },[]⟩ : WriteState Device) :=
    ⟨List.length_replicate,rfl,Nat.two_pow_pos 32,Nat.zero_add _,rfl⟩
  match parameters,hparameters with
  | [name],_ =>
    refine ⟨_,hstart 'x' false _,rfl,rfl,fun fuel => ?_⟩
    rw [cmdWriteFile,hopened,hsize,hheap]
    rfl
  | [name,text],_ =>
    refine ⟨_,hstart (text.headD (Char.ofNat 0)) false _,rfl,rfl,fun fuel => ?_⟩
    rw [cmdWriteFile,hopened,hsize,hheap]
    rfl
  | [name,text,extend],_ =>
    refine ⟨_,hstart (text.headD (Char.ofNat 0)) false _,rfl,rfl,fun fuel => ?_⟩
    rw [cmdWriteFile,hopened,hsize,hheap]
    rfl
  | [name,text,extend,async],_ =>
    refine ⟨_,hstart (text.headD (Char.ofNat 0)) (stricmpEqual async "async".toList) _,rfl,rfl,
      fun fuel => ?_⟩
    rw [cmdWriteFile,hopened,hsize,hheap]
    rfl

/-- The command covers the file if and only if the file has room for the counters and its length
with the extension is a word; a file that is empty is not written. -/
theorem writesFile_iff {parameters : List (List Char)}
    (hparameters : 1 ≤ parameters.length ∧ parameters.length ≤ 4) {env : WriteEnvironment Device}
    {file : FileObject Device} {fileSize : BitVec 64} (hopened : env.opened = some file)
    (hsize : env.fileSize = some fileSize) (hheap : env.heapAvailable = true)
    (htransfers : TransfersRequested file.fileSystemDevice env.answers) :
    WritesFile parameters env fileSize ↔
      if extendsFile parameters then
        10 ≤ fileSize.toNat ∧ fileSize.toNat + 9 * 0x200 < qwordModulus
      else fileSize.toNat = 0 ∨ 9 ≤ fileSize.toNat := by
  obtain ⟨start,hinv,hi,hremaining,hloop⟩ := cmdWriteFile_loop hparameters hopened hsize hheap
  have hsmall : min fileSize.toNat 0x200 ≤ 0x200 := Nat.min_le_right _ _
  have htotal : bytesToCover parameters fileSize % qwordModulus < qwordModulus :=
    Nat.mod_lt _ (by decide)
  have hends : (∃ fuel written, cmdWriteFile fuel parameters.length (passedParameters parameters)
        env = some written ∧
        writtenPositions written = List.range (bytesToCover parameters fileSize)) ↔
      bytesToCover parameters fileSize < qwordModulus ∧
        CountersFit (min fileSize.toNat 0x200) 0 (bytesToCover parameters fileSize) := by
    constructor
    · rintro ⟨fuel,written,hrun,hpositions⟩
      rw [hloop,Option.map_eq_some_iff] at hrun
      obtain ⟨s',hrun,rfl⟩ := hrun
      obtain ⟨hwritten,hfits⟩ := writeLoop_written htransfers hsmall htotal hinv hrun
      have hsame : bytesToCover parameters fileSize % qwordModulus =
          bytesToCover parameters fileSize := by
        have hlengths := congrArg List.length (hwritten.symm.trans hpositions)
        rwa [List.length_range,List.length_range] at hlengths
      rw [hi,hremaining,hsame] at hfits
      exact ⟨hsame ▸ htotal,hfits⟩
    · rintro ⟨hword,hfits⟩
      have hsame := Nat.mod_eq_of_lt hword
      rw [← hi,← hsame,← hremaining] at hfits
      obtain ⟨fuel,s',hrun⟩ := writeLoop_ends htransfers hsmall htotal hinv hfits
      obtain ⟨hwritten,-⟩ := writeLoop_written htransfers hsmall htotal hinv hrun
      refine ⟨fuel,s'.written,?_,hsame ▸ hwritten⟩
      rw [hloop,hrun]
      rfl
  rw [WritesFile,hends,bytesToCover,countersFit_iff]
  cases extendsFile parameters with
  | false =>
    have hword : fileSize.toNat < qwordModulus := fileSize.isLt
    rw [if_neg Bool.false_ne_true,if_neg Bool.false_ne_true,if_neg Bool.false_ne_true,
      Nat.add_zero,and_iff_right hword]
  | true => rw [if_pos rfl,if_pos rfl,if_pos rfl,and_comm]

theorem transfersRequested_of_accepts {device : DeviceObject Device}
    (haccepts : ∀ length offset, device.Accepts ⟨.write,length,offset⟩) :
    TransfersRequested device fun _ length _ => (true,.transferred length) := by
  intro file hdevice n length offset
  have hsucceeds : (⟨true,length,some offset,true,.transferred length⟩ : ReadWriteCall).Succeeds
      file := ⟨rfl,hdevice ▸ haccepts _ _,rfl,rfl⟩
  refine ⟨_,?_,ioReadWriteFile_succeeds (fun _ => rfl) hsucceeds⟩
  split
  · exact hdevice
  · exact hdevice

end Command

/-- A file of a size that is opened and written without a failure. -/
def plainEnvironment (fileSize : BitVec 64) : WriteEnvironment Unit :=
  ⟨some plainFile,some fileSize,true,fun _ length _ => (true,.transferred length)⟩

private theorem plainEnvironment_transfers (fileSize : BitVec 64) :
    TransfersRequested plainFile.fileSystemDevice (plainEnvironment fileSize).answers := by
  refine transfersRequested_of_accepts fun length offset => ⟨?_,?_,rfl⟩
  · exact beq_iff_eq.mpr (Nat.mod_one length)
  · exact beq_iff_eq.mpr (Nat.mod_one offset)

/-- Ten bytes are extended. -/
theorem writesFile_ten :
    WritesFile ["a.txt".toList,"z".toList,"ext".toList] (plainEnvironment 10) 10 :=
  (writesFile_iff (by decide) rfl rfl rfl (plainEnvironment_transfers 10)).mpr (by decide)

/-- The first counter does not fit in a buffer of five bytes. -/
theorem writesFile_fails : ¬ WritesFile ["a.txt".toList] (plainEnvironment 5) 5 := by
  rintro ⟨fuel,written,hrun,-⟩
  obtain ⟨start,hinv,hi,hremaining,hloop⟩ :=
    @cmdWriteFile_loop Unit ["a.txt".toList] (by decide) (plainEnvironment 5) _ _ rfl rfl rfl
  rw [hloop,Option.map_eq_some_iff] at hrun
  obtain ⟨s',hrun,-⟩ := hrun
  obtain ⟨-,hfits⟩ :=
    writeLoop_written (plainEnvironment_transfers 5) (by decide) (by decide) hinv hrun
  rw [hi,hremaining] at hfits
  have hsize := (countersFit_iff false).mp hfits
  revert hsize
  decide

end Hal9000
