import Mathlib.Data.Fintype.Basic
import Mathlib.Data.Set.Basic
import Hal9000.Framework.TransitionSystem

/-!
# Lock order

CPUs run programs that acquire and release locks and touch memory. A touch may fault, and the
handler then runs first. When the locks have ranks and every program, with the handlers of its
faults, acquires them in the order of the ranks, no CPUs wait for one another.
-/

namespace Hal9000

inductive LockInstr (Lock Memory : Type)
  | acquire (lock : Lock) (shared : Bool)
  | release (lock : Lock)
  | touch (memory : Memory)
  deriving DecidableEq

/-- The programs that are run, and the handlers of faults. -/
structure LockCode (Lock Memory Op Fault : Type) where
  /-- A lock that its owner may acquire again. -/
  reentrant : Lock → Bool
  program : Op → List (LockInstr Lock Memory)
  handler : Memory → Fault → List (LockInstr Lock Memory)

structure LockState (Cpu Lock Memory : Type) where
  /-- The locks a CPU holds, the last one first, and whether it shares them. -/
  held : Cpu → List (Lock × Bool)
  todo : Cpu → List (LockInstr Lock Memory)

inductive LockAction (Cpu Op Fault : Type)
  | start (cpu : Cpu) (op : Op)
  | run (cpu : Cpu)
  /-- The memory that the CPU touches next is not present. -/
  | fault (cpu : Cpu) (fault : Fault)

section Locks

variable {Cpu Lock Memory Op Fault : Type} [DecidableEq Cpu] [Fintype Cpu] [DecidableEq Lock]

namespace LockState

variable (s : LockState Cpu Lock Memory)

/-- The other CPU holds the lock, and one of the two does not share it. -/
def Blocks (other : Cpu) (lock : Lock) (shared : Bool) : Prop :=
  (lock,false) ∈ s.held other ∨ shared = false ∧ (lock,true) ∈ s.held other

instance (other : Cpu) (lock : Lock) (shared : Bool) : Decidable (s.Blocks other lock shared) :=
  inferInstanceAs (Decidable (_ ∨ _))

/-- The lock a CPU is about to acquire. -/
def wanted (cpu : Cpu) : Option (Lock × Bool) :=
  match s.todo cpu with
  | .acquire lock shared :: _ => some (lock,shared)
  | _ => none

def Waits (cpu other : Cpu) : Prop :=
  cpu ≠ other ∧ ∃ lock shared, s.wanted cpu = some (lock,shared) ∧ s.Blocks other lock shared

/-- A set of CPUs each of which holds a lock and waits for another of the set. -/
def CircularWait : Prop :=
  ∃ cpus : Set Cpu, cpus.Nonempty ∧ ∀ cpu ∈ cpus, s.held cpu ≠ [] ∧ ∃ other ∈ cpus, s.Waits cpu other

def setHeld (cpu : Cpu) (locks : List (Lock × Bool)) : LockState Cpu Lock Memory :=
  { s with held := Function.update s.held cpu locks }

def setTodo (cpu : Cpu) (todo : List (LockInstr Lock Memory)) : LockState Cpu Lock Memory :=
  { s with todo := Function.update s.todo cpu todo }

end LockState

variable (code : LockCode Lock Memory Op Fault)

def lockStep (s : LockState Cpu Lock Memory) :
    LockAction Cpu Op Fault → Option (LockState Cpu Lock Memory)
  | .start cpu op =>
    match s.held cpu,s.todo cpu with
    | [],[] => some (s.setTodo cpu (code.program op))
    | _,_ => none
  | .run cpu =>
    match s.todo cpu with
    | [] => none
    | .acquire lock shared :: rest =>
      if (∃ other, other ≠ cpu ∧ s.Blocks other lock shared) ∨
          (s.held cpu).any (·.1 == lock) = true ∧ code.reentrant lock = false then none
      else some ((s.setHeld cpu ((lock,shared) :: s.held cpu)).setTodo cpu rest)
    | .release lock :: rest =>
      some ((s.setHeld cpu ((s.held cpu).eraseP (·.1 == lock))).setTodo cpu rest)
    | .touch _ :: rest => some (s.setTodo cpu rest)
  | .fault cpu fault =>
    match s.todo cpu with
    | .touch memory :: rest => some (s.setTodo cpu (code.handler memory fault ++ rest))
    | _ => none

def lockSystem : TransitionSystem (LockState Cpu Lock Memory) (LockAction Cpu Op Fault) where
  init s := ∀ cpu, s.held cpu = [] ∧ s.todo cpu = []
  step := lockStep code

/-- No CPU faults on the memory that must be present. -/
def FaultsOnly (faults : Memory → Bool) (s : LockState Cpu Lock Memory) :
    LockAction Cpu Op Fault → Prop
  | .fault cpu _ => ∀ memory ∈ (s.todo cpu).head?.bind
      (fun | .touch memory => some memory | _ => none), faults memory = true
  | .start _ _ | .run _ => True

instance (faults : Memory → Bool) (s : LockState Cpu Lock Memory) :
    ∀ action : LockAction Cpu Op Fault, Decidable (FaultsOnly faults s action)
  | .fault _ _ => inferInstanceAs (Decidable (∀ memory ∈ (_ : Option Memory), _))
  | .start _ _ | .run _ => .isTrue trivial

/-- Ranks of the locks, and for memory that may fault the least rank of its handlers. -/
structure LockRanks (Lock Memory : Type) where
  rank : Lock → Nat
  bound : Nat
  rank_le : ∀ lock, rank lock ≤ bound
  faults : Memory → Bool
  floor : Memory → Nat

variable (ranks : LockRanks Lock Memory)

/-- From the locks held on, every lock has a greater rank than those held when it is acquired. -/
def OrderedFrom : List Lock → List (LockInstr Lock Memory) → Prop
  | _, [] => True
  | held, .acquire lock _ :: rest =>
    (∀ l ∈ held, ranks.rank l < ranks.rank lock) ∧ OrderedFrom (lock :: held) rest
  | held, .release lock :: rest => OrderedFrom (held.erase lock) rest
  | held, .touch memory :: rest =>
    (ranks.faults memory = true → ∀ l ∈ held, ranks.rank l < ranks.floor memory) ∧
      OrderedFrom held rest

/-- A piece of a program that can run under locks of lesser ranks, and releases what it acquires. -/
def OrderedBlock (least : Nat) (block : List (LockInstr Lock Memory)) : Prop :=
  ∀ held rest, (∀ l ∈ held, ranks.rank l < least) → OrderedFrom ranks held rest →
    OrderedFrom ranks held (block ++ rest)

/-- A body run under a lock. -/
def locked (lock : Lock) (shared : Bool) (body : List (LockInstr Lock Memory)) :
    List (LockInstr Lock Memory) :=
  .acquire lock shared :: body ++ [.release lock]

/-- The programs and the handlers follow the ranks. -/
structure LockCode.Ordered : Prop where
  program : ∀ op, OrderedBlock ranks 0 (code.program op)
  handler : ∀ memory fault, ranks.faults memory = true →
    OrderedBlock ranks (ranks.floor memory) (code.handler memory fault)

variable {code ranks} {least : Nat} {block : List (LockInstr Lock Memory)}

namespace OrderedBlock

theorem nil : OrderedBlock ranks least ([] : List (LockInstr Lock Memory)) := fun _ _ _ h => h

theorem append {block' : List (LockInstr Lock Memory)} (h : OrderedBlock ranks least block)
    (h' : OrderedBlock ranks least block') : OrderedBlock ranks least (block ++ block') := by
  intro held rest hheld hrest
  rw [List.append_assoc]
  exact h held _ hheld (h' held rest hheld hrest)

theorem mono {least' : Nat} (hle : least ≤ least') (h : OrderedBlock ranks least' block) :
    OrderedBlock ranks least block :=
  fun held rest hheld => h held rest fun l hl => (hheld l hl).trans_le hle

theorem flatten {blocks : List (List (LockInstr Lock Memory))}
    (h : ∀ block ∈ blocks, OrderedBlock ranks least block) :
    OrderedBlock ranks least blocks.flatten := by
  induction blocks with
  | nil => exact nil
  | cons block blocks ih =>
    rw [List.flatten_cons]
    exact (h block List.mem_cons_self).append
      (ih fun block' hmem => h block' (List.mem_cons_of_mem _ hmem))

theorem touches {memory : Memory} (n : Nat)
    (hfloor : ranks.faults memory = true → least ≤ ranks.floor memory) :
    OrderedBlock ranks least (List.replicate n (.touch memory)) := by
  induction n with
  | zero => exact nil
  | succ n ih =>
    intro held rest hheld hrest
    refine ⟨fun hfaults l hl => (hheld l hl).trans_le (hfloor hfaults),?_⟩
    exact ih held rest hheld hrest

theorem locked {lock : Lock} {shared : Bool} (hrank : least ≤ ranks.rank lock)
    (h : OrderedBlock ranks (ranks.rank lock + 1) block) :
    OrderedBlock ranks least (Hal9000.locked lock shared block) := by
  intro held rest hheld hrest
  have hlt : ∀ l ∈ held, ranks.rank l < ranks.rank lock := fun l hl => (hheld l hl).trans_le hrank
  change OrderedFrom ranks held (.acquire lock shared :: ((block ++ [.release lock]) ++ rest))
  rw [List.append_assoc]
  refine ⟨hlt,h (lock :: held) _ ?_ ?_⟩
  · intro l hl
    rcases List.mem_cons.mp hl with rfl | hl
    · exact Nat.lt_succ_self _
    · exact Nat.lt_succ_of_lt (hlt l hl)
  · change OrderedFrom ranks ((lock :: held).erase lock) rest
    rwa [List.erase_cons_head]

end OrderedBlock

/-- What a CPU has to do is in the order of the ranks, from the locks it holds on. -/
def LockOrdered (ranks : LockRanks Lock Memory) (s : LockState Cpu Lock Memory) : Prop :=
  ∀ cpu, OrderedFrom ranks ((s.held cpu).map Prod.fst) (s.todo cpu)

variable {s s' : LockState Cpu Lock Memory}

omit [Fintype Cpu] in
theorem LockOrdered.set (h : LockOrdered ranks s) {cpu : Cpu} {held : List (Lock × Bool)}
    {todo : List (LockInstr Lock Memory)} (hcpu : OrderedFrom ranks (held.map Prod.fst) todo) :
    LockOrdered ranks ((s.setHeld cpu held).setTodo cpu todo) := by
  intro other
  simp only [LockState.setTodo,LockState.setHeld]
  by_cases hother : other = cpu
  · subst other
    rwa [Function.update_self,Function.update_self]
  · rw [Function.update_of_ne hother,Function.update_of_ne hother]
    exact h other

omit [Fintype Cpu] in
theorem LockOrdered.setTodo (h : LockOrdered ranks s) {cpu : Cpu}
    {todo : List (LockInstr Lock Memory)}
    (hcpu : OrderedFrom ranks ((s.held cpu).map Prod.fst) todo) :
    LockOrdered ranks (s.setTodo cpu todo) := by
  have hset : LockOrdered ranks ((s.setHeld cpu (s.held cpu)).setTodo cpu todo) := h.set hcpu
  simpa only [LockState.setTodo,LockState.setHeld,Function.update_eq_self] using hset

theorem LockOrdered.step (hcode : code.Ordered ranks) (h : LockOrdered ranks s)
    {action : LockAction Cpu Op Fault} (hguard : FaultsOnly ranks.faults s action)
    (hstep : lockStep code s action = some s') : LockOrdered ranks s' := by
  cases action with
  | start cpu op =>
    simp only [lockStep] at hstep
    split at hstep
    · rename_i hheld _
      cases hstep
      refine h.setTodo ?_
      rw [hheld,← List.append_nil (code.program op)]
      exact hcode.program op [] [] (by simp) trivial
    · cases hstep
  | run cpu =>
    have hcpu := h cpu
    simp only [lockStep] at hstep
    cases htodo : s.todo cpu with
    | nil =>
      rw [htodo] at hstep
      cases hstep
    | cons instr rest =>
      rw [htodo] at hstep hcpu
      cases instr with
      | acquire lock shared =>
        simp only at hstep
        split_ifs at hstep
        cases hstep
        exact h.set hcpu.2
      | release lock =>
        cases hstep
        refine h.set ?_
        have herase : ((s.held cpu).eraseP (·.1 == lock)).map Prod.fst =
            ((s.held cpu).map Prod.fst).erase lock := by
          rw [List.erase_eq_eraseP',List.eraseP_map]
          rfl
        rw [herase]
        exact hcpu
      | touch memory =>
        cases hstep
        exact h.setTodo hcpu.2
  | fault cpu fault =>
    have hcpu := h cpu
    simp only [lockStep] at hstep
    split at hstep
    · rename_i memory rest htodo
      cases hstep
      rw [htodo] at hcpu
      have hfaults : ranks.faults memory = true := hguard memory (by rw [htodo]; rfl)
      exact h.setTodo (hcode.handler memory fault hfaults _ rest (hcpu.1 hfaults) hcpu.2)
    · cases hstep

omit [DecidableEq Cpu] [Fintype Cpu] in
theorem LockOrdered.no_circularWait (h : LockOrdered ranks s) : ¬s.CircularWait := by
  rintro ⟨cpus,⟨cpu,hcpu⟩,hwaits⟩
  have hgrows : ∀ c other, s.Waits c other → ∀ lock shared, s.wanted c = some (lock,shared) →
      ∀ lock' shared', s.wanted other = some (lock',shared') → ranks.rank lock < ranks.rank lock' := by
    rintro c other ⟨_,lock,shared,hwanted,hblocks⟩ lock₁ shared₁ hwanted₁ lock' shared' hwanted'
    rw [hwanted] at hwanted₁
    cases hwanted₁
    have hmem : lock ∈ (s.held other).map Prod.fst := by
      rcases hblocks with hheld | ⟨_,hheld⟩
      · exact List.mem_map_of_mem (f := Prod.fst) hheld
      · exact List.mem_map_of_mem (f := Prod.fst) hheld
    have hother := h other
    simp only [LockState.wanted] at hwanted'
    split at hwanted'
    · rename_i htodo
      cases hwanted'
      rw [htodo] at hother
      exact hother.1 lock hmem
    · cases hwanted'
  -- so the ranks that are wanted grow without bound
  have hrank : ∀ n, ∃ c ∈ cpus, ∃ lock shared, s.wanted c = some (lock,shared) ∧
      n ≤ ranks.rank lock := by
    intro n
    induction n with
    | zero =>
      obtain ⟨_,_,_,_,lock,shared,hwanted,_⟩ := hwaits cpu hcpu
      exact ⟨cpu,hcpu,lock,shared,hwanted,Nat.zero_le _⟩
    | succ n ih =>
      obtain ⟨c,hc,lock,shared,hwanted,hle⟩ := ih
      obtain ⟨_,other,hother,hwait⟩ := hwaits c hc
      obtain ⟨_,_,_,_,lock',shared',hwanted',_⟩ := hwaits other hother
      have hlt := hgrows c other hwait lock shared hwanted lock' shared' hwanted'
      exact ⟨other,hother,lock',shared',hwanted',Nat.succ_le_of_lt (Nat.lt_of_le_of_lt hle hlt)⟩
  obtain ⟨_,_,lock,_,_,hle⟩ := hrank (ranks.bound + 1)
  exact absurd (ranks.rank_le lock) (Nat.not_le.mpr hle)

theorem LockOrdered.of_reachable (hcode : code.Ordered ranks)
    (h : (lockSystem code).ReachableUnder (FaultsOnly ranks.faults) s) : LockOrdered ranks s := by
  induction h with
  | init hinit =>
    intro cpu
    rw [(hinit cpu).2]
    trivial
  | step _ hguard hstep ih => exact ih.step hcode hguard hstep

end Locks

end Hal9000
