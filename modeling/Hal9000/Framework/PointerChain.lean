import Mathlib.Logic.Function.Basic
import Mathlib.Data.List.Basic

/-!
# Chains of pointers

A partial successor function links nodes into chains. Linking the end of a chain to a node whose
chain avoids it lengthens every chain that came to that end, and leaves the others.
-/

namespace Hal9000

variable {Node : Type*} {next : Node → Option Node}

/-- The nodes from one node to the last, both included. -/
inductive ChainFrom (next : Node → Option Node) : Node → List Node → Prop
  | last {node : Node} (h : next node = none) : ChainFrom next node [node]
  | link {node target : Node} {chain : List Node} (h : next node = some target)
      (rest : ChainFrom next target chain) : ChainFrom next node (node :: chain)

/-- Every node has a chain: none of them is on a cycle, or leads to one. -/
def Chained (next : Node → Option Node) : Prop := ∀ node, ∃ chain, ChainFrom next node chain

namespace ChainFrom

theorem unique {node : Node} {chain chain' : List Node} (h : ChainFrom next node chain)
    (h' : ChainFrom next node chain') : chain = chain' := by
  induction h generalizing chain' with
  | last h =>
    cases h' with
    | last => rfl
    | link hlink => rw [h] at hlink; cases hlink
  | link h _ ih =>
    cases h' with
    | last hlast => rw [h] at hlast; cases hlast
    | link hlink hrest =>
      rw [h] at hlink
      cases hlink
      rw [ih hrest]

theorem mem {node : Node} {chain : List Node} (h : ChainFrom next node chain) : node ∈ chain := by
  cases h <;> simp

theorem length_pos {node : Node} {chain : List Node} (h : ChainFrom next node chain) :
    0 < chain.length := List.length_pos_of_mem h.mem

theorem eq_of_top {node top : Node} {chain : List Node} (h : ChainFrom next node chain)
    (htop : ∀ node', next node' ≠ some top) (hmem : top ∈ chain) : node = top := by
  induction h with
  | last => exact (List.mem_singleton.mp hmem).symm
  | link h _ ih =>
    rcases List.mem_cons.mp hmem with hmem | hmem
    · exact hmem.symm
    · exact absurd (h.trans (congrArg some (ih hmem))) (htop _)

section Linked

variable [DecidableEq Node] {source target : Node}

theorem update_of_notMem {node : Node} {chain : List Node} (h : ChainFrom next node chain)
    (hmem : source ∉ chain) (value : Option Node) :
    ChainFrom (Function.update next source value) node chain := by
  induction h with
  | last h =>
    refine .last ?_
    rwa [Function.update_of_ne (Ne.symm (List.ne_of_not_mem_cons hmem))]
  | link h _ ih =>
    refine .link ?_ (ih (List.not_mem_of_not_mem_cons hmem))
    rwa [Function.update_of_ne (Ne.symm (List.ne_of_not_mem_cons hmem))]

theorem update_of_mem {node : Node} {chain rest : List Node} (h : ChainFrom next node chain)
    (hend : next source = none) (htarget : ChainFrom next target rest) (hrest : source ∉ rest)
    (hmem : source ∈ chain) :
    ChainFrom (Function.update next source (some target)) node (chain ++ rest) := by
  have hlinked := htarget.update_of_notMem hrest (some target)
  induction h with
  | last h =>
    rw [List.mem_singleton] at hmem
    subst hmem
    exact .link (Function.update_self ..) hlinked
  | @link node target' chain h _ ih =>
    have hne : node ≠ source := by
      rintro rfl
      rw [hend] at h
      cases h
    refine .link ?_ (ih ((List.mem_cons.mp hmem).resolve_left hne.symm))
    rwa [Function.update_of_ne hne]

theorem update {node : Node} {chain rest : List Node} (h : ChainFrom next node chain)
    (hend : next source = none) (htarget : ChainFrom next target rest) (hrest : source ∉ rest) :
    ChainFrom (Function.update next source (some target)) node
      (if source ∈ chain then chain ++ rest else chain) := by
  by_cases hmem : source ∈ chain
  · rw [if_pos hmem]
    exact h.update_of_mem hend htarget hrest hmem
  · rw [if_neg hmem]
    exact h.update_of_notMem hmem _

end Linked

end ChainFrom

theorem Chained.update [DecidableEq Node] {source target : Node} (h : Chained next)
    (hend : next source = none) (hcycle : ∀ rest, ChainFrom next target rest → source ∉ rest) :
    Chained (Function.update next source (some target)) := by
  intro node
  obtain ⟨chain,hchain⟩ := h node
  obtain ⟨rest,hrest⟩ := h target
  exact ⟨_,hchain.update hend hrest (hcycle rest hrest)⟩

end Hal9000
