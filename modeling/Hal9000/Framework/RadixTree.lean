import Mathlib.Logic.Function.Basic
import Mathlib.Data.List.Induction

/-!
# Radix trees stored in tables

A table is a node with indexed slots; a slot is empty, refers to a further table or is a
leaf. A path of indices is resolved from a root through the tables, and its last index
always selects a leaf. The rules say how far a write to one slot is seen: if every table
is reached by one path only, only by the paths through that slot.
-/

namespace RadixTree

/-- What a slot is to a walk that is not at its last index. -/
inductive Slot (Node : Type*)
  | empty
  | table (node : Node)
  | leaf

variable {Node Index Entry : Type*} (kind : Entry → Slot Node)

/-- The table an entry refers to. -/
def target (e : Entry) : Option Node :=
  match kind e with
  | .table node => some node
  | _ => none

/-- The table at the end of a path. -/
def follow (mem : Node → Index → Entry) : Node → List Index → Option Node
  | n, [] => some n
  | n, i :: path => (target kind (mem n i)).bind fun m => follow mem m path

/-- The leaf a path is resolved to, with the number of indices it leaves unused. -/
def leafAt (mem : Node → Index → Entry) : Node → List Index → Option (Entry × Nat)
  | _, [] => none
  | n, i :: path =>
    match kind (mem n i), path with
    | .empty, _ => none
    | _, [] => some (mem n i,0)
    | .leaf, _ => some (mem n i,path.length)
    | .table m, _ => leafAt mem m path

/-- Every table within depth `d` is reached by one path. -/
def UniquePaths (mem : Node → Index → Entry) (root : Node) (d : Nat) : Prop :=
  ∀ p p' n, p.length ≤ d → p'.length ≤ d → follow kind mem root p = some n →
    follow kind mem root p' = some n → p = p'

/-- No path within depth `d` reaches the table. -/
def Unreached (mem : Node → Index → Entry) (root : Node) (d : Nat) (n : Node) : Prop :=
  ∀ p, p.length ≤ d → follow kind mem root p ≠ some n

variable {kind} {mem mem' : Node → Index → Entry} {root : Node} {d : Nat}

@[simp] theorem follow_nil (n : Node) : follow kind mem n [] = some n := rfl

theorem follow_cons (n : Node) (i : Index) (path : List Index) :
    follow kind mem n (i :: path) =
      (target kind (mem n i)).bind fun m => follow kind mem m path := rfl

theorem follow_append (n : Node) (p q : List Index) :
    follow kind mem n (p ++ q) = (follow kind mem n p).bind fun m => follow kind mem m q := by
  induction p generalizing n with
  | nil => rfl
  | cons i p ih =>
    simp only [List.cons_append,follow_cons,ih,Option.bind_assoc]

theorem follow_append_of_some {n m : Node} {p : List Index} (h : follow kind mem n p = some m)
    (q : List Index) : follow kind mem n (p ++ q) = follow kind mem m q := by
  rw [follow_append,h,Option.bind_some]

theorem follow_concat {n m : Node} {p : List Index} (h : follow kind mem n p = some m)
    (i : Index) : follow kind mem n (p ++ [i]) = target kind (mem m i) := by
  rw [follow_append_of_some h,follow_cons]
  cases target kind (mem m i) <;> rfl

theorem exists_of_follow_concat {n m : Node} {p : List Index} {i : Index}
    (h : follow kind mem n (p ++ [i]) = some m) :
    ∃ k, follow kind mem n p = some k ∧ target kind (mem k i) = some m := by
  rw [follow_append] at h
  obtain ⟨k,hk,h⟩ := Option.bind_eq_some_iff.mp h
  refine ⟨k,hk,?_⟩
  rw [follow_cons] at h
  obtain ⟨m',hm',h⟩ := Option.bind_eq_some_iff.mp h
  rw [hm',← Option.some.inj h]

theorem kind_of_target {e : Entry} {m : Node} (h : target kind e = some m) :
    kind e = .table m := by
  unfold target at h
  cases hkind : kind e with
  | table node => rw [hkind] at h; exact congrArg _ (Option.some.inj h)
  | empty => rw [hkind] at h; cases h
  | leaf => rw [hkind] at h; cases h

theorem leafAt_empty {n : Node} {i : Index} (h : kind (mem n i) = .empty) (path : List Index) :
    leafAt kind mem n (i :: path) = none := by
  cases path <;> simp only [leafAt,h]

theorem leafAt_last {n : Node} {i : Index} (h : kind (mem n i) ≠ .empty) :
    leafAt kind mem n [i] = some (mem n i,0) := by
  cases hkind : kind (mem n i) with
  | empty => exact absurd hkind h
  | table m => simp only [leafAt,hkind]
  | leaf => simp only [leafAt,hkind]

theorem leafAt_table {n m : Node} {i : Index} (h : target kind (mem n i) = some m)
    {path : List Index} (hpath : path ≠ []) :
    leafAt kind mem n (i :: path) = leafAt kind mem m path := by
  cases path with
  | nil => exact absurd rfl hpath
  | cons j rest => simp only [leafAt,kind_of_target h]

theorem leafAt_append {n m : Node} {p q : List Index} (h : follow kind mem n p = some m)
    (hq : q ≠ []) : leafAt kind mem n (p ++ q) = leafAt kind mem m q := by
  induction p generalizing n with
  | nil =>
    rw [Option.some.inj h]
    rfl
  | cons i p ih =>
    rw [follow_cons] at h
    obtain ⟨k,hk,h⟩ := Option.bind_eq_some_iff.mp h
    have hne : p ++ q ≠ [] := by simp [hq]
    rw [List.cons_append,leafAt_table hk hne]
    exact ih h

theorem follow_of_target (h : ∀ n i, target kind (mem' n i) = target kind (mem n i)) (n : Node)
    (path : List Index) : follow kind mem' n path = follow kind mem n path := by
  induction path generalizing n with
  | nil => rfl
  | cons i path ih =>
    rw [follow_cons,follow_cons,h]
    congr 1
    exact funext ih

/-- The entry at `(n,i)` is one a path of at most `d` indices may pass, and refers to `m`. -/
def Refers (kind : Entry → Slot Node) (mem : Node → Index → Entry) (root : Node) (d : Nat)
    (n : Node) (i : Index) (m : Node) : Prop :=
  (∃ p, p.length < d ∧ follow kind mem root p = some n) ∧ target kind (mem n i) = some m

/-- The root is referred to by no entry and every other table by exactly one if and only if
every table has exactly one path. -/
theorem uniquePaths_iff :
    UniquePaths kind mem root d ↔
      (∀ n i, ¬ Refers kind mem root d n i root) ∧
      ∀ n i n' i' m, Refers kind mem root d n i m → Refers kind mem root d n' i' m →
        n = n' ∧ i = i' := by
  constructor
  · intro h
    constructor
    · rintro n i ⟨⟨p,hp,hfollow⟩,htarget⟩
      have hroot : follow kind mem root (p ++ [i]) = some root := by
        rw [follow_concat hfollow,htarget]
      have heq := h (p ++ [i]) [] root (by simp; omega) (by simp) hroot rfl
      simp at heq
    · rintro n i n' i' m ⟨⟨p,hp,hfollow⟩,htarget⟩ ⟨⟨p',hp',hfollow'⟩,htarget'⟩
      have heq : p ++ [i] = p' ++ [i'] := by
        apply h _ _ m (by simp; omega) (by simp; omega)
        · rw [follow_concat hfollow,htarget]
        · rw [follow_concat hfollow',htarget']
      have hparts := List.append_inj' heq rfl
      rw [hparts.1,hfollow'] at hfollow
      exact ⟨(Option.some.inj hfollow).symm,List.singleton_inj.mp hparts.2⟩
  · rintro ⟨hroot,hunique⟩ p p' n hp hp' h h'
    -- both paths are taken apart from their last index, which the one reference fixes
    induction p using List.reverseRecOn generalizing p' n with
    | nil =>
      cases p' using List.reverseRecOn with
      | nil => rfl
      | append_singleton p' i' =>
        obtain ⟨k,hk,htarget⟩ := exists_of_follow_concat h'
        rw [← Option.some.inj h] at htarget
        exact absurd ⟨⟨p',by simp at hp'; omega,hk⟩,htarget⟩ (hroot k i')
    | append_singleton p i ih =>
      obtain ⟨k,hk,htarget⟩ := exists_of_follow_concat h
      have href : Refers kind mem root d k i n := ⟨⟨p,by simp at hp; omega,hk⟩,htarget⟩
      cases p' using List.reverseRecOn with
      | nil =>
        rw [← Option.some.inj h'] at href
        exact absurd href (hroot k i)
      | append_singleton p' i' =>
        obtain ⟨k',hk',htarget'⟩ := exists_of_follow_concat h'
        obtain ⟨rfl,rfl⟩ := hunique k i k' i' n href ⟨⟨p',by simp at hp'; omega,hk'⟩,htarget'⟩
        rw [ih p' k (by simp at hp; omega) (by simp at hp'; omega) hk hk']

theorem exists_refers_iff {m : Node} :
    (∃ n i, Refers kind mem root d n i m) ↔
      ∃ p, p ≠ [] ∧ p.length ≤ d ∧ follow kind mem root p = some m := by
  constructor
  · rintro ⟨n,i,⟨p,hp,hn⟩,hm⟩
    refine ⟨p ++ [i],by simp,by simp; omega,?_⟩
    rw [follow_concat hn,hm]
  · rintro ⟨p,hne,hp,hm⟩
    cases p using List.reverseRecOn with
    | nil => exact absurd rfl hne
    | append_singleton p i =>
      obtain ⟨n,hn,htarget⟩ := exists_of_follow_concat hm
      exact ⟨n,i,⟨p,by simp at hp; omega,hn⟩,htarget⟩

theorem unreached_iff {m : Node} :
    Unreached kind mem root d m ↔ m ≠ root ∧ ∀ n i, ¬ Refers kind mem root d n i m := by
  constructor
  · intro h
    refine ⟨fun hroot => h [] (by simp) (by rw [hroot]; rfl),fun n i href => ?_⟩
    obtain ⟨p,_,hp,hm⟩ := exists_refers_iff.mp ⟨n,i,href⟩
    exact h p hp hm
  · rintro ⟨hroot,hrefs⟩ p hp hm
    by_cases hne : p = []
    · subst p
      exact hroot (Option.some.inj hm).symm
    · obtain ⟨n,i,href⟩ := exists_refers_iff.mpr ⟨p,hne,hp,hm⟩
      exact hrefs n i href

/-- The memories hold the same entry in every slot the path passes. -/
def AgreesAlong (kind : Entry → Slot Node) (mem mem' : Node → Index → Entry) (root : Node)
    (p : List Index) : Prop :=
  ∀ q i n, q ++ [i] <+: p → follow kind mem root q = some n → mem' n i = mem n i

private theorem AgreesAlong.tail {i : Index} {p : List Index} {m : Node}
    (h : AgreesAlong kind mem mem' root (i :: p)) (hm : target kind (mem root i) = some m) :
    AgreesAlong kind mem mem' m p := by
  intro q j n hthrough hfollow
  apply h (i :: q) j n
  · exact List.cons_prefix_cons.mpr ⟨rfl,hthrough⟩
  · rw [follow_cons,hm]
    exact hfollow

private theorem AgreesAlong.head {i : Index} {p : List Index}
    (h : AgreesAlong kind mem mem' root (i :: p)) : mem' root i = mem root i :=
  h [] i root (by simp) rfl

theorem follow_congr {p : List Index} (h : AgreesAlong kind mem mem' root p) :
    follow kind mem' root p = follow kind mem root p := by
  induction p generalizing root with
  | nil => rfl
  | cons i p ih =>
    rw [follow_cons,follow_cons,h.head]
    cases hm : target kind (mem root i) with
    | none => rfl
    | some m => exact ih (h.tail hm)

theorem leafAt_congr {p : List Index} (h : AgreesAlong kind mem mem' root p) :
    leafAt kind mem' root p = leafAt kind mem root p := by
  induction p generalizing root with
  | nil => rfl
  | cons i p ih =>
    cases hm : target kind (mem root i) with
    | none =>
      cases hkind : kind (mem root i) <;> cases p <;>
        simp_all [leafAt,h.head,target]
    | some m =>
      by_cases hp : p = []
      · subst p
        simp only [leafAt,h.head]
      · have hm' : target kind (mem' root i) = some m := by rw [h.head,hm]
        rw [leafAt_table hm hp,leafAt_table hm' hp]
        exact ih (h.tail hm)

section Writes

variable [DecidableEq Node] [DecidableEq Index]

def write (mem : Node → Index → Entry) (n : Node) (i : Index) (e : Entry) :
    Node → Index → Entry :=
  Function.update mem n (Function.update (mem n) i e)

@[simp] theorem write_same (n : Node) (i : Index) (e : Entry) : write mem n i e n i = e := by
  simp [write]

theorem write_of_ne {n n' : Node} {i i' : Index} (e : Entry) (h : n' ≠ n ∨ i' ≠ i) :
    write mem n i e n' i' = mem n' i' := by
  unfold write
  by_cases hn : n' = n
  · subst n'
    rw [Function.update_self,Function.update_of_ne (h.resolve_left (by simp))]
  · rw [Function.update_of_ne hn]

variable {q p : List Index} {n m : Node} {i : Index} {e : Entry} {row : Index → Entry}

theorem write_agreesAlong (hunique : UniquePaths kind mem root d) (hq : q.length ≤ d)
    (hn : follow kind mem root q = some n) (hp : p.length ≤ d + 1) (hnot : ¬ q ++ [i] <+: p) :
    AgreesAlong kind mem (write mem n i e) root p := by
  intro q' j k hthrough hk
  apply write_of_ne
  by_cases hkn : k = n
  · subst k
    have hlen : q'.length ≤ d := by
      have := hthrough.length_le
      simp at this
      omega
    have heq := hunique q' q n hlen hq hk hn
    subst q'
    right
    rintro rfl
    exact hnot hthrough
  · exact Or.inl hkn

omit [DecidableEq Index] in
theorem update_agreesAlong (hm : Unreached kind mem root d m) (hp : p.length ≤ d + 1) :
    AgreesAlong kind mem (Function.update mem m row) root p := by
  intro q' j k hthrough hk
  have hlen : q'.length ≤ d := by
    have := hthrough.length_le
    simp at this
    omega
  rw [Function.update_of_ne]
  rintro rfl
  exact hm q' hlen hk

omit [DecidableEq Node] [DecidableEq Index] in
theorem UniquePaths.congr (h : UniquePaths kind mem root d)
    (hfollow : ∀ p, p.length ≤ d → follow kind mem' root p = follow kind mem root p) :
    UniquePaths kind mem' root d := by
  intro p p' k hp hp' hk hk'
  rw [hfollow p hp] at hk
  rw [hfollow p' hp'] at hk'
  exact h p p' k hp hp' hk hk'

section Last

variable (hunique : UniquePaths kind mem root d) (hq : q.length = d)
  (hn : follow kind mem root q = some n)

include hunique hq hn

theorem writeLast_follow (hp : p.length ≤ d) :
    follow kind (write mem n i e) root p = follow kind mem root p := by
  apply follow_congr
  apply write_agreesAlong hunique (by omega) hn (by omega)
  intro hthrough
  have := hthrough.length_le
  simp at this
  omega

theorem writeLast_leafAt_of_ne (hp : p.length ≤ d + 1) (hne : p ≠ q ++ [i]) :
    leafAt kind (write mem n i e) root p = leafAt kind mem root p := by
  apply leafAt_congr
  apply write_agreesAlong hunique (by omega) hn hp
  intro hthrough
  have := hthrough.length_le
  exact hne (hthrough.eq_of_length (by simp at this ⊢; omega)).symm

end Last

/-- Fills the table `m` and refers to it from the slot `(n,i)`. -/
def link (mem : Node → Index → Entry) (n : Node) (i : Index) (e : Entry) (m : Node)
    (row : Index → Entry) : Node → Index → Entry :=
  write (Function.update mem m row) n i e

section Link

variable (hunique : UniquePaths kind mem root d) (hq : q.length < d)
  (hn : follow kind mem root q = some n) (hm : Unreached kind mem root d m)

omit [DecidableEq Node] [DecidableEq Index] in
include hq hn hm in
private theorem node_ne_fresh : n ≠ m := by
  rintro rfl
  exact hm q (by omega) hn

omit [DecidableEq Index] in
include hm in
private theorem update_follow (hp : p.length ≤ d + 1) :
    follow kind (Function.update mem m row) root p = follow kind mem root p :=
  follow_congr (update_agreesAlong hm hp)

omit [DecidableEq Index] in
include hunique hm in
private theorem update_uniquePaths : UniquePaths kind (Function.update mem m row) root d :=
  hunique.congr fun _ hp => update_follow hm (by omega)

include hunique hq hn hm

theorem link_follow_outside (hp : p.length ≤ d) (hnot : ¬ q ++ [i] <+: p) :
    follow kind (link mem n i e m row) root p = follow kind mem root p := by
  have hn' : follow kind (Function.update mem m row) root q = some n := by
    rw [update_follow hm (by omega),hn]
  unfold link
  rw [follow_congr (write_agreesAlong (update_uniquePaths hunique hm) (by omega) hn' (by omega)
    hnot)]
  exact update_follow hm (by omega)

theorem link_follow_self (he : target kind e = some m) :
    follow kind (link mem n i e m row) root (q ++ [i]) = some m := by
  have hq' : follow kind (link mem n i e m row) root q = some n := by
    rw [link_follow_outside hunique hq hn hm (by omega),hn]
    intro hthrough
    have := hthrough.length_le
    rw [List.length_append,List.length_singleton] at this
    omega
  rw [follow_concat hq']
  simp only [link,write_same,he]

omit hunique in
private theorem link_row (j : Index) : link mem n i e m row m j = row j := by
  unfold link
  rw [write_of_ne e (Or.inl (node_ne_fresh hq hn hm).symm),Function.update_self]

theorem link_follow_beyond (he : target kind e = some m) (hrow : ∀ j, kind (row j) = .empty)
    (j : Index) (rest : List Index) :
    follow kind (link mem n i e m row) root (q ++ i :: j :: rest) = none := by
  have happend : q ++ i :: j :: rest = (q ++ [i]) ++ (j :: rest) := by simp
  rw [happend,follow_append_of_some (link_follow_self hunique hq hn hm he),follow_cons,
    link_row hq hn hm]
  simp only [target,hrow,Option.bind_none]

theorem link_follow_cases (he : target kind e = some m) (hrow : ∀ j, kind (row j) = .empty)
    (hp : p.length ≤ d) {k : Node} (hk : follow kind (link mem n i e m row) root p = some k) :
    p = q ++ [i] ∧ k = m ∨ follow kind mem root p = some k := by
  by_cases hthrough : q ++ [i] <+: p
  · obtain ⟨rest,rfl⟩ := hthrough
    cases rest with
    | nil =>
      rw [List.append_nil,link_follow_self hunique hq hn hm he] at hk
      exact Or.inl ⟨List.append_nil _,(Option.some.inj hk).symm⟩
    | cons j rest =>
      rw [List.append_assoc,List.singleton_append,
        link_follow_beyond hunique hq hn hm he hrow] at hk
      cases hk
  · rw [link_follow_outside hunique hq hn hm hp hthrough] at hk
    exact Or.inr hk

theorem link_uniquePaths (he : target kind e = some m) (hrow : ∀ j, kind (row j) = .empty) :
    UniquePaths kind (link mem n i e m row) root d := by
  intro p p' k hp hp' hk hk'
  rcases link_follow_cases hunique hq hn hm he hrow hp hk with ⟨rfl,rfl⟩ | hold
  · rcases link_follow_cases hunique hq hn hm he hrow hp' hk' with ⟨rfl,_⟩ | hold'
    · rfl
    · exact absurd hold' (hm p' hp')
  · rcases link_follow_cases hunique hq hn hm he hrow hp' hk' with ⟨rfl,rfl⟩ | hold'
    · exact absurd hold (hm p hp)
    · exact hunique p p' k hp hp' hold hold'

theorem link_follow_mono (hempty : kind (mem n i) = .empty) (hp : p.length ≤ d) {k : Node}
    (hk : follow kind mem root p = some k) :
    follow kind (link mem n i e m row) root p = some k := by
  rw [link_follow_outside hunique hq hn hm hp,hk]
  rintro ⟨rest,rfl⟩
  rw [List.append_assoc,follow_append_of_some hn,List.singleton_append,follow_cons] at hk
  simp [target,hempty] at hk

theorem link_leafAt (hempty : kind (mem n i) = .empty) (he : target kind e = some m)
    (hrow : ∀ j, kind (row j) = .empty) (hp : p.length ≤ d + 1) (hne : p ≠ q ++ [i]) :
    leafAt kind (link mem n i e m row) root p = leafAt kind mem root p := by
  by_cases hthrough : q ++ [i] <+: p
  · obtain ⟨rest,rfl⟩ := hthrough
    cases rest with
    | nil => simp at hne
    | cons j rest =>
      rw [leafAt_append (link_follow_self hunique hq hn hm he) (by simp),
        leafAt_empty (by rw [link_row hq hn hm]; exact hrow j),List.append_assoc,
        leafAt_append hn (by simp),List.singleton_append,leafAt_empty hempty]
  · have hn' : follow kind (Function.update mem m row) root q = some n := by
      rw [update_follow hm (by omega),hn]
    unfold link
    rw [leafAt_congr (write_agreesAlong (update_uniquePaths hunique hm) (by omega) hn' hp
      hthrough)]
    exact leafAt_congr (update_agreesAlong hm hp)

end Link

section Roots

variable {Root : Type*} {roots : Root → Node}

/-- Every table within depth `d` of some root is reached by one path, from whichever root. -/
def OnePath (kind : Entry → Slot Node) (mem : Node → Index → Entry) (roots : Root → Node)
    (d : Nat) : Prop :=
  ∀ r r' p p' n, p.length ≤ d → p'.length ≤ d → follow kind mem (roots r) p = some n →
    follow kind mem (roots r') p' = some n → p = p'

omit [DecidableEq Node] [DecidableEq Index] in
theorem OnePath.uniquePaths (h : OnePath kind mem roots d) (r : Root) :
    UniquePaths kind mem (roots r) d :=
  fun p p' n => h r r p p' n

omit [DecidableEq Node] [DecidableEq Index] in
theorem OnePath.reached_or (h : OnePath kind mem roots d) {r : Root} (hq : q.length ≤ d)
    (hn : follow kind mem (roots r) q = some n) (r' : Root) :
    follow kind mem (roots r') q = some n ∨ Unreached kind mem (roots r') d n := by
  by_cases hreached : follow kind mem (roots r') q = some n
  · exact Or.inl hreached
  · right
    intro p hp hfollow
    apply hreached
    rw [← h r' r p q n hp hq hfollow hn]
    exact hfollow

omit [DecidableEq Node] [DecidableEq Index] in
theorem OnePath.congr (h : OnePath kind mem roots d)
    (hfollow : ∀ r p, p.length ≤ d → follow kind mem' (roots r) p = follow kind mem (roots r) p) :
    OnePath kind mem' roots d := by
  intro r r' p p' k hp hp' hk hk'
  rw [hfollow r p hp] at hk
  rw [hfollow r' p' hp'] at hk'
  exact h r r' p p' k hp hp' hk hk'

private theorem link_agreesAlong_of_unreached
    (hn : Unreached kind mem root d n) (hm : Unreached kind mem root d m)
    (hp : p.length ≤ d + 1) : AgreesAlong kind mem (link mem n i e m row) root p := by
  intro q' j k hthrough hk
  have hlen : q'.length ≤ d := by
    have := hthrough.length_le
    simp at this
    omega
  have hkn : k ≠ n := by
    rintro rfl
    exact hn q' hlen hk
  have hkm : k ≠ m := by
    rintro rfl
    exact hm q' hlen hk
  unfold link
  rw [write_of_ne e (Or.inl hkn),Function.update_of_ne hkm]

section Last

variable {r : Root} (hpath : OnePath kind mem roots d) (hq : q.length = d)
  (hn : follow kind mem (roots r) q = some n)

include hpath hq hn

theorem writeLast_follow_root (r' : Root) (hp : p.length ≤ d) :
    follow kind (write mem n i e) (roots r') p = follow kind mem (roots r') p := by
  rcases hpath.reached_or (by omega) hn r' with hreached | hunreached
  · exact writeLast_follow (hpath.uniquePaths r') hq hreached hp
  · exact follow_congr (update_agreesAlong hunreached (by omega))

theorem writeLast_leafAt_root (r' : Root) (hp : p.length ≤ d + 1) (hne : p ≠ q ++ [i]) :
    leafAt kind (write mem n i e) (roots r') p = leafAt kind mem (roots r') p := by
  rcases hpath.reached_or (by omega) hn r' with hreached | hunreached
  · exact writeLast_leafAt_of_ne (hpath.uniquePaths r') hq hreached hp hne
  · exact leafAt_congr (update_agreesAlong hunreached hp)

theorem writeLast_leafAt_or (r' : Root) (hp : p.length ≤ d + 1) :
    follow kind mem (roots r') q = some n ∨
      leafAt kind (write mem n i e) (roots r') p = leafAt kind mem (roots r') p := by
  rcases hpath.reached_or (by omega) hn r' with hreached | hunreached
  · exact Or.inl hreached
  · exact Or.inr (leafAt_congr (update_agreesAlong hunreached hp))

end Last

section Link

variable {r : Root} (hpath : OnePath kind mem roots d) (hq : q.length < d)
  (hn : follow kind mem (roots r) q = some n) (hm : ∀ r, Unreached kind mem (roots r) d m)

include hpath hq hn hm

theorem link_follow_cases_root (r' : Root) (he : target kind e = some m)
    (hrow : ∀ j, kind (row j) = .empty) (hp : p.length ≤ d) {k : Node}
    (hk : follow kind (link mem n i e m row) (roots r') p = some k) :
    p = q ++ [i] ∧ k = m ∨ follow kind mem (roots r') p = some k := by
  rcases hpath.reached_or (by omega) hn r' with hreached | hunreached
  · exact link_follow_cases (hpath.uniquePaths r') hq hreached (hm r') he hrow hp hk
  · right
    rwa [follow_congr (link_agreesAlong_of_unreached hunreached (hm r') (by omega))] at hk

theorem link_follow_mono_root (r' : Root) (hempty : kind (mem n i) = .empty) (hp : p.length ≤ d)
    {k : Node} (hk : follow kind mem (roots r') p = some k) :
    follow kind (link mem n i e m row) (roots r') p = some k := by
  rcases hpath.reached_or (by omega) hn r' with hreached | hunreached
  · exact link_follow_mono (hpath.uniquePaths r') hq hreached (hm r') hempty hp hk
  · rwa [follow_congr (link_agreesAlong_of_unreached hunreached (hm r') (by omega))]

theorem link_leafAt_root (r' : Root) (hempty : kind (mem n i) = .empty)
    (he : target kind e = some m) (hrow : ∀ j, kind (row j) = .empty) (hp : p.length ≤ d + 1)
    (hne : p ≠ q ++ [i]) :
    leafAt kind (link mem n i e m row) (roots r') p = leafAt kind mem (roots r') p := by
  rcases hpath.reached_or (by omega) hn r' with hreached | hunreached
  · exact link_leafAt (hpath.uniquePaths r') hq hreached (hm r') hempty he hrow hp hne
  · exact leafAt_congr (link_agreesAlong_of_unreached hunreached (hm r') hp)

theorem link_onePath (he : target kind e = some m) (hrow : ∀ j, kind (row j) = .empty) :
    OnePath kind (link mem n i e m row) roots d := by
  intro r₁ r₂ p p' k hp hp' hk hk'
  rcases link_follow_cases_root hpath hq hn hm r₁ he hrow hp hk with ⟨rfl,rfl⟩ | hold
  · rcases link_follow_cases_root hpath hq hn hm r₂ he hrow hp' hk' with ⟨rfl,_⟩ | hold'
    · rfl
    · exact absurd hold' (hm r₂ p' hp')
  · rcases link_follow_cases_root hpath hq hn hm r₂ he hrow hp' hk' with ⟨rfl,rfl⟩ | hold'
    · exact absurd hold (hm r₁ p hp)
    · exact hpath r₁ r₂ p p' k hp hp' hold hold'

end Link

end Roots

end Writes

end RadixTree
