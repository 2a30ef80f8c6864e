import Mathlib.Data.Finset.Card
import Mathlib.Data.List.Chain
import Mathlib.Data.List.Infix
import Mathlib.Data.List.Nodup
import Mathlib.Logic.Relation
import Mathlib.Order.WellFounded

namespace Aseos.DepthFirst

universe u
variable {α : Type u}

structure Search (α : Type u) where
  visited : List α
  active : List α
  cycles : List (List α)

namespace Search

def initial : Search α := ⟨[], [], []⟩

def enter (s : Search α) (node : α) : Search α :=
  { s with visited := s.visited ++ [node], active := s.active ++ [node] }

def leave (s : Search α) : Search α := { s with active := s.active.dropLast }

def close [DecidableEq α] (s : Search α) (node : α) : Search α :=
  { s with cycles := s.cycles ++ [s.active.drop (s.active.idxOf node) ++ [node]] }

end Search

structure After (s t : Search α) : Prop where
  active : t.active = s.active
  visited : s.visited ⊆ t.visited
  cycles : s.cycles ⊆ t.cycles

theorem After.refl (s : Search α) : After s s := ⟨rfl, List.Subset.refl _, List.Subset.refl _⟩

theorem After.trans {s t u : Search α} (h : After s t) (h' : After t u) : After s u :=
  ⟨h'.active.trans h.active, List.Subset.trans h.visited h'.visited,
    List.Subset.trans h.cycles h'.cycles⟩

variable {next : α → List α} {node : α} {s t : Search α}

theorem after_leave {left : Search α} (h : After (s.enter node) left) : After s left.leave where
  active := by
    rw [Search.leave, h.active, Search.enter, List.dropLast_concat]
  visited := List.Subset.trans (List.subset_append_left _ _) h.visited
  cycles := h.cycles

def IsCycle (edge : α → α → Prop) (path : List α) : Prop :=
  ∃ node mid, path = node :: mid ++ [node] ∧ (node :: mid).Nodup ∧ path.IsChain edge

theorem IsCycle.transGen {edge : α → α → Prop} {path : List α} (h : IsCycle edge path) :
    ∃ node, Relation.TransGen edge node node := by
  obtain ⟨node, mid, rfl, -, hchain⟩ := h
  refine ⟨node, ?_⟩
  obtain ⟨b, rest, hrest⟩ : ∃ b rest, mid ++ [node] = b :: rest :=
    List.exists_cons_of_ne_nil (List.append_ne_nil_of_right_ne_nil _ (List.cons_ne_nil _ _))
  rw [List.cons_append, hrest] at hchain
  have hlast : (b :: rest).getLast (List.cons_ne_nil _ _) = node := by
    simp only [← hrest, List.getLast_concat]
  obtain ⟨hfirst, hchain⟩ := List.isChain_cons_cons.mp hchain
  exact .head' hfirst (hlast ▸ List.relationReflTransGen_of_exists_isChain_cons rest hchain rfl)

theorem acyclic_of_wellFounded {edge : α → α → Prop} (h : WellFounded fun b a => edge a b) (a : α) :
    ¬Relation.TransGen edge a a := by
  intro ha
  have hswap : Relation.TransGen (fun b a => edge a b) a a := Relation.transGen_swap.mpr ha
  exact (WellFounded.transGen h).irrefl.irrefl a hswap

variable (next) in
structure Sound (s : Search α) : Prop where
  chain : s.active.IsChain fun a b => b ∈ next a
  nodup : s.active.Nodup
  cycles : ∀ path ∈ s.cycles, IsCycle (fun a b => b ∈ next a) path

variable (next) in
def Follows (s : Search α) (node : α) : Prop := (s.active ++ [node]).IsChain fun a b => b ∈ next a

theorem sound_enter (hs : Sound next s) (hfollows : Follows next s node) (h : node ∉ s.active) :
    Sound next (s.enter node) where
  chain := hfollows
  nodup := by
    refine hs.nodup.append (List.nodup_singleton _) ?_
    intro a ha hnode
    exact h (List.mem_singleton.mp hnode ▸ ha)
  cycles := hs.cycles

theorem sound_leave (hs : Sound next s) : Sound next s.leave :=
  ⟨hs.chain.dropLast, hs.nodup.sublist (List.dropLast_sublist _), hs.cycles⟩

variable (next) in
def Kept (s : Search α) (b a : α) : Prop := b ∈ next a ∧ ∀ path ∈ s.cycles, ¬[a, b] <:+ path

variable (next) in
def Settled (s : Search α) : Prop := ∀ x ∈ s.visited, x ∉ s.active → Acc (Kept next s) x

variable (next) in
def Explored (s : Search α) (last node : α) : Prop :=
  Acc (Kept next s) node ∨ ∃ path ∈ s.cycles, [last, node] <:+ path

theorem acc_after (h : After s t) {x : α} (hx : Acc (Kept next s) x) : Acc (Kept next t) x :=
  Subrelation.accessible (fun hab => ⟨hab.1, fun path hpath => hab.2 path (h.cycles hpath)⟩) hx

theorem Explored.after {last : α} (h : After s t) (hs : Explored next s last node) :
    Explored next t last node := by
  obtain hacc | ⟨path, hpath, hsuffix⟩ := hs
  · exact .inl (acc_after h hacc)
  · exact .inr ⟨path, h.cycles hpath, hsuffix⟩

theorem settled_enter (hs : Settled next s) : Settled next (s.enter node) := by
  intro x hx hout
  have hout' : x ∉ s.active ∧ x ≠ node := by simpa [Search.enter] using hout
  obtain hx | hx := List.mem_append.mp hx
  · exact hs x hx hout'.1
  · exact absurd (List.mem_singleton.mp hx) hout'.2

theorem settled_leave {left : Search α} (hafter : After (s.enter node) left)
    (hleft : Settled next left) (htargets : ∀ x ∈ next node, Explored next left node x) :
    Settled next left.leave ∧ Acc (Kept next left.leave) node := by
  have hnode : Acc (Kept next left) node := by
    refine .intro _ fun x hx => ?_
    obtain hacc | ⟨path, hpath, hsuffix⟩ := htargets x hx.1
    · exact hacc
    · exact absurd hsuffix (hx.2 path hpath)
  refine ⟨fun x hx hout => ?_, hnode⟩
  obtain hx' | hx' := Classical.em (x = node)
  · rw [hx']
    exact hnode
  · refine hleft x hx ?_
    have hout' : x ∉ s.active := by
      rwa [(after_leave hafter).active] at hout
    rw [hafter.active, Search.enter]
    simp [hout', hx']

inductive Stutters : List α → List α → Prop
  | nil : Stutters [] []
  | block {l l'} (a : α) (m n : ℕ) : Stutters l l' →
      Stutters (List.replicate (m + 1) a ++ l) (List.replicate (n + 1) a ++ l')

theorem Stutters.refl (l : List α) : Stutters l l := by
  induction l with
  | nil => exact .nil
  | cons a l ih => exact .block a 0 0 ih

structure Alike (s t : Search α) : Prop where
  visited : s.visited = t.visited
  active : s.active = t.active
  cycles : ∀ path, path ∈ s.cycles ↔ path ∈ t.cycles

theorem Alike.refl (s : Search α) : Alike s s := ⟨rfl, rfl, fun _ => Iff.rfl⟩

theorem Alike.symm (h : Alike s t) : Alike t s :=
  ⟨h.visited.symm, h.active.symm, fun path => (h.cycles path).symm⟩

theorem Alike.trans {u : Search α} (h : Alike s t) (h' : Alike t u) : Alike s u :=
  ⟨h.visited.trans h'.visited, h.active.trans h'.active,
    fun path => (h.cycles path).trans (h'.cycles path)⟩

theorem Alike.enter (h : Alike s t) : Alike (s.enter node) (t.enter node) where
  visited := by
    rw [Search.enter, Search.enter, h.visited]
  active := by
    rw [Search.enter, Search.enter, h.active]
  cycles := h.cycles

theorem Alike.leave (h : Alike s t) : Alike s.leave t.leave where
  visited := h.visited
  active := by
    rw [Search.leave, Search.leave, h.active]
  cycles := h.cycles

theorem exists_block [LinearOrder α] {l : List α} (h : (node :: l).Pairwise (· ≤ ·)) :
    ∃ n rest, l = List.replicate n node ++ rest ∧ node ∉ rest := by
  induction l with
  | nil => exact ⟨0, [], rfl, List.not_mem_nil⟩
  | cons a l ih =>
    obtain ⟨hall, hrest⟩ := List.pairwise_cons.mp h
    obtain rfl | hne := Classical.em (node = a)
    · obtain ⟨n, rest, rfl, hnode⟩ := ih hrest
      exact ⟨n + 1, rest, rfl, hnode⟩
    · refine ⟨0, a :: l, rfl, fun hmem => hne (le_antisymm (hall a List.mem_cons_self) ?_)⟩
      obtain rfl | hmem := List.mem_cons.mp hmem
      · exact le_refl _
      · exact (List.pairwise_cons.mp hrest).1 node hmem

theorem stutters_of_sorted [LinearOrder α] {l l' : List α} (hl : l.Pairwise (· ≤ ·))
    (hl' : l'.Pairwise (· ≤ ·)) (hmem : ∀ a, a ∈ l ↔ a ∈ l') : Stutters l l' := by
  induction hlength : l.length using Nat.strong_induction_on generalizing l l' with
  | _ length ih =>
  cases l with
  | nil =>
    obtain rfl : l' = [] := List.eq_nil_iff_forall_not_mem.mpr fun a ha =>
      List.not_mem_nil ((hmem a).mpr ha)
    exact .nil
  | cons a l =>
    cases l' with
    | nil => exact absurd ((hmem a).mp List.mem_cons_self) List.not_mem_nil
    | cons b l' =>
      have hfirst {x y : α} {l : List α} (h : (x :: l).Pairwise (· ≤ ·)) (hy : y ∈ x :: l) :
          x ≤ y := by
        obtain rfl | hy := List.mem_cons.mp hy
        · exact le_refl _
        · exact (List.pairwise_cons.mp h).1 y hy
      obtain rfl : a = b := le_antisymm (hfirst hl ((hmem b).mpr List.mem_cons_self))
        (hfirst hl' ((hmem a).mp List.mem_cons_self))
      obtain ⟨m, rest, rfl, hrest⟩ := exists_block hl
      obtain ⟨n, rest', rfl, hrest'⟩ := exists_block hl'
      refine .block a m n (ih rest.length ?_ ?_ ?_ (fun x => ?_) rfl)
      · rw [← hlength, List.length_cons, List.length_append]
        omega
      · exact (List.pairwise_append.mp (List.pairwise_cons.mp hl).2).2.1
      · exact (List.pairwise_append.mp (List.pairwise_cons.mp hl').2).2.1
      · have hx := hmem x
        simp only [List.mem_cons, List.mem_append, List.mem_replicate] at hx
        constructor
        · intro hxrest
          have hne : x ≠ a := fun h => hrest (h ▸ hxrest)
          simpa [hne, hxrest] using hx
        · intro hxrest
          have hne : x ≠ a := fun h => hrest' (h ▸ hxrest)
          simpa [hne, hxrest] using hx

variable [DecidableEq α]

def visit (next : α → List α) : ℕ → α → Search α → Option (Search α)
  | 0, _, _ => none
  | fuel + 1, node, s =>
      if node ∈ s.active then some (s.close node)
      else if node ∈ s.visited then some s
      else do
        let left ← (next node).foldlM (fun s target => visit next fuel target s) (s.enter node)
        return left.leave

def visitAll (next : α → List α) (fuel : ℕ) (nodes : List α) (s : Search α) : Option (Search α) :=
  nodes.foldlM (fun s node => visit next fuel node s) s

variable {fuel : ℕ} {nodes : List α}

theorem visitAll_cons :
    visitAll next fuel (node :: nodes) s = some t ↔
      ∃ u, visit next fuel node s = some u ∧ visitAll next fuel nodes u = some t := by
  rw [visitAll, List.foldlM_cons]
  exact Option.bind_eq_some_iff

theorem visitAll_append {nodes' : List α} :
    visitAll next fuel (nodes ++ nodes') s = some t ↔
      ∃ u, visitAll next fuel nodes s = some u ∧ visitAll next fuel nodes' u = some t := by
  rw [visitAll, List.foldlM_append]
  exact Option.bind_eq_some_iff

theorem visit_eq_some :
    visit next (fuel + 1) node s = some t ↔
      (node ∈ s.active ∧ t = s.close node) ∨
      (node ∉ s.active ∧ node ∈ s.visited ∧ t = s) ∨
      (node ∉ s.active ∧ node ∉ s.visited ∧ ∃ left,
        visitAll next fuel (next node) (s.enter node) = some left ∧ t = left.leave) := by
  rw [visit]
  by_cases hactive : node ∈ s.active
  · rw [if_pos hactive]
    simp [hactive, eq_comm]
  rw [if_neg hactive]
  by_cases hvisited : node ∈ s.visited
  · rw [if_pos hvisited]
    simp [hactive, hvisited, eq_comm]
  · rw [if_neg hvisited]
    simp only [hactive, hvisited, false_and, not_false_iff, true_and, false_or]
    constructor
    · intro h
      obtain ⟨left, hleft, h⟩ := Option.bind_eq_some_iff.mp h
      exact ⟨left, hleft, (Option.some.inj h).symm⟩
    · rintro ⟨left, hleft, rfl⟩
      exact Option.bind_eq_some_iff.mpr ⟨left, hleft, rfl⟩

theorem visitAll_after (ih : ∀ node s t, visit next fuel node s = some t → After s t)
    (h : visitAll next fuel nodes s = some t) : After s t := by
  induction nodes generalizing s with
  | nil =>
    obtain rfl := Option.some.inj h
    exact .refl _
  | cons node nodes ihnodes =>
    obtain ⟨u, hu, h⟩ := visitAll_cons.mp h
    exact (ih node s u hu).trans (ihnodes h)

theorem visit_after (h : visit next fuel node s = some t) : After s t := by
  induction fuel generalizing node s t with
  | zero => cases h
  | succ fuel ih =>
    obtain ⟨-, rfl⟩ | ⟨-, -, rfl⟩ | ⟨-, -, left, hleft, rfl⟩ := visit_eq_some.mp h
    · exact ⟨rfl, List.Subset.refl _, List.subset_append_left _ _⟩
    · exact .refl _
    · exact after_leave (visitAll_after (fun _ _ _ => ih) hleft)

section Soundness

theorem drop_idxOf {l : List α} (h : node ∈ l) : ∃ rest, l.drop (l.idxOf node) = node :: rest := by
  have hlt := List.idxOf_lt_length_of_mem h
  exact ⟨_, (List.drop_eq_getElem_cons hlt).trans (by rw [List.getElem_idxOf hlt])⟩

theorem sound_close (hs : Sound next s) (hfollows : Follows next s node) (h : node ∈ s.active) :
    Sound next (s.close node) where
  chain := hs.chain
  nodup := hs.nodup
  cycles := by
    intro path hpath
    obtain hpath | hpath := List.mem_append.mp hpath
    · exact hs.cycles path hpath
    obtain rfl := List.mem_singleton.mp hpath
    have hsuffix : s.active.drop (s.active.idxOf node) <:+ s.active := List.drop_suffix _ _
    obtain ⟨mid, hmid⟩ := drop_idxOf h
    rw [hmid] at hsuffix ⊢
    refine ⟨node, mid, rfl, hs.nodup.sublist hsuffix.sublist, hfollows.suffix ?_⟩
    obtain ⟨before, hbefore⟩ := hsuffix
    exact ⟨before, by rw [← List.append_assoc, hbefore]⟩

theorem visitAll_sound
    (ih : ∀ node s t, visit next fuel node s = some t → Sound next s → Follows next s node →
      Sound next t)
    (h : visitAll next fuel nodes s = some t) (hs : Sound next s)
    (hfollows : ∀ node ∈ nodes, Follows next s node) : Sound next t := by
  induction nodes generalizing s with
  | nil =>
    obtain rfl := Option.some.inj h
    exact hs
  | cons node nodes ihnodes =>
    obtain ⟨u, hu, h⟩ := visitAll_cons.mp h
    obtain ⟨hnode, hnodes⟩ := List.forall_mem_cons.mp hfollows
    refine ihnodes h (ih node s u hu hs hnode) fun x hx => ?_
    rw [Follows, (visit_after hu).active]
    exact hnodes x hx

theorem visit_sound (h : visit next fuel node s = some t) (hs : Sound next s)
    (hfollows : Follows next s node) : Sound next t := by
  induction fuel generalizing node s t with
  | zero => cases h
  | succ fuel ih =>
    obtain ⟨hactive, rfl⟩ | ⟨-, -, rfl⟩ | ⟨hactive, -, left, hleft, rfl⟩ := visit_eq_some.mp h
    · exact sound_close hs hfollows hactive
    · exact hs
    · refine sound_leave (visitAll_sound (fun _ _ _ => ih) hleft
        (sound_enter hs hfollows hactive) fun target htarget => ?_)
      change ((s.active ++ [node]) ++ [target]).IsChain _
      refine hfollows.append (List.isChain_singleton _) ?_
      intro a ha b hb
      obtain rfl : node = a := by simpa using ha
      obtain rfl : target = b := by simpa using hb
      exact htarget

end Soundness

section Completeness

theorem explored_close {before : List α} {last : α} (hactive : s.active = before ++ [last])
    (h : node ∈ s.active) : Explored next (s.close node) last node := by
  refine .inr ⟨_, List.mem_append_right _ (List.mem_singleton_self _), ?_⟩
  obtain ⟨mid, hmid⟩ := drop_idxOf h
  have hsuffix : s.active.drop (s.active.idxOf node) <:+ before ++ [last] :=
    hactive ▸ List.drop_suffix _ _
  have hlast : [last] <:+ s.active.drop (s.active.idxOf node) := by
    refine List.suffix_of_suffix_length_le (List.suffix_append _ _) hsuffix ?_
    rw [hmid]
    simp
  obtain ⟨front, hfront⟩ := hlast
  exact ⟨front, by rw [← hfront, List.append_assoc, List.singleton_append]⟩

theorem visitAll_settled {last : α}
    (ih : ∀ node ∈ nodes, ∀ s t, visit next fuel node s = some t → Settled next s →
      s.active.getLast? = some last → Settled next t ∧ Explored next t last node)
    (h : visitAll next fuel nodes s = some t) (hs : Settled next s)
    (hlast : s.active.getLast? = some last) :
    Settled next t ∧ ∀ node ∈ nodes, Explored next t last node := by
  induction nodes generalizing s with
  | nil =>
    obtain rfl := Option.some.inj h
    exact ⟨hs, List.forall_mem_nil _⟩
  | cons node nodes ihnodes =>
    obtain ⟨u, hu, h⟩ := visitAll_cons.mp h
    obtain ⟨hsettled, hnode⟩ := ih node List.mem_cons_self s u hu hs hlast
    have hnodes := ihnodes (fun x hx => ih x (List.mem_cons_of_mem _ hx)) h hsettled
      (by rw [(visit_after hu).active, hlast])
    exact ⟨hnodes.1, List.forall_mem_cons.mpr
      ⟨hnode.after (visitAll_after (fun _ _ _ => visit_after) h), hnodes.2⟩⟩

theorem visit_settled {last : α} (h : visit next fuel node s = some t) (hs : Settled next s)
    (hlast : s.active.getLast? = some last) : Settled next t ∧ Explored next t last node := by
  induction fuel generalizing node s t last with
  | zero => cases h
  | succ fuel ih =>
    obtain ⟨hactive, rfl⟩ | ⟨hactive, hvisited, rfl⟩ | ⟨-, -, left, hleft, rfl⟩ :=
      visit_eq_some.mp h
    · obtain ⟨before, hbefore⟩ := List.getLast?_eq_some_iff.mp hlast
      have hafter : After s (s.close node) :=
        ⟨rfl, List.Subset.refl _, List.subset_append_left _ _⟩
      exact ⟨fun x hx hout => acc_after hafter (hs x hx hout), explored_close hbefore hactive⟩
    · exact ⟨hs, .inl (hs node hvisited hactive)⟩
    · have hafter : After (s.enter node) left := visitAll_after (fun _ _ _ => visit_after) hleft
      obtain ⟨hsettled, htargets⟩ := visitAll_settled (fun x _ s t hvisit hsettled hlast =>
        ih hvisit hsettled hlast) hleft (settled_enter hs)
        (List.getLast?_concat ..)
      exact (settled_leave hafter hsettled htargets).imp_right .inl

theorem visit_root (h : visit next fuel node s = some t) (hs : Settled next s)
    (hactive : s.active = []) : Settled next t ∧ Acc (Kept next t) node := by
  cases fuel with
  | zero => cases h
  | succ fuel =>
    have hnone : node ∉ s.active := by
      rw [hactive]
      exact List.not_mem_nil
    obtain ⟨hmem, -⟩ | ⟨-, hvisited, rfl⟩ | ⟨-, -, left, hleft, rfl⟩ := visit_eq_some.mp h
    · exact absurd hmem hnone
    · exact ⟨hs, hs node hvisited hnone⟩
    · have hafter : After (s.enter node) left := visitAll_after (fun _ _ _ => visit_after) hleft
      obtain ⟨hsettled, htargets⟩ := visitAll_settled (fun _ _ _ _ => visit_settled) hleft
        (settled_enter hs) (List.getLast?_concat ..)
      exact settled_leave hafter hsettled htargets

theorem visitAll_roots {roots : List α} (h : visitAll next fuel roots s = some t)
    (hsound : Sound next s) (hsettled : Settled next s) (hactive : s.active = []) :
    Sound next t ∧ ∀ root ∈ roots, Acc (Kept next t) root := by
  induction roots generalizing s with
  | nil =>
    obtain rfl := Option.some.inj h
    exact ⟨hsound, List.forall_mem_nil _⟩
  | cons root roots ih =>
    obtain ⟨u, hu, h⟩ := visitAll_cons.mp h
    have hfollows : Follows next s root := by
      rw [Follows, hactive]
      exact List.isChain_singleton _
    obtain ⟨hsettled', hroot⟩ := visit_root hu hsettled hactive
    have hrest := ih h (visit_sound hu hsound hfollows) hsettled'
      ((visit_after hu).active.trans hactive)
    exact ⟨hrest.1, List.forall_mem_cons.mpr
      ⟨acc_after (visitAll_after (fun _ _ _ => visit_after) h) hroot, hrest.2⟩⟩

theorem search_exact {roots : List α} (h : visitAll next fuel roots .initial = some t)
    (hroots : ∀ a b, b ∈ next a → a ∈ roots) :
    (∀ path ∈ t.cycles, IsCycle (fun a b => b ∈ next a) path) ∧ WellFounded (Kept next t) := by
  obtain ⟨hsound, hacc⟩ := visitAll_roots h
    ⟨List.isChain_nil, List.nodup_nil, List.forall_mem_nil _⟩
    (fun x hx => absurd hx List.not_mem_nil) rfl
  refine ⟨hsound.cycles, ⟨fun x => ?_⟩⟩
  obtain hx | hx := Classical.em (x ∈ roots)
  · exact hacc x hx
  · exact .intro _ fun y hy => absurd (hroots x y hy.1) hx

end Completeness

section Termination

variable {all : Finset α}

def remaining (all : Finset α) (s : Search α) : ℕ := (all \ s.visited.toFinset).card

theorem remaining_after (h : After s t) : remaining all t ≤ remaining all s := by
  refine Finset.card_le_card (Finset.sdiff_subset_sdiff (Finset.Subset.refl _) fun x hx => ?_)
  exact List.mem_toFinset.mpr (h.visited (List.mem_toFinset.mp hx))

theorem remaining_enter (hnode : node ∈ all) (hvisited : node ∉ s.visited) :
    remaining all (s.enter node) < remaining all s := by
  have hmem : node ∈ all \ s.visited.toFinset :=
    Finset.mem_sdiff.mpr ⟨hnode, fun h => hvisited (List.mem_toFinset.mp h)⟩
  have herase : all \ (s.enter node).visited.toFinset = (all \ s.visited.toFinset).erase node := by
    ext x
    simp only [Search.enter, Finset.mem_sdiff, List.mem_toFinset, List.mem_append,
      List.mem_singleton, Finset.mem_erase]
    tauto
  rw [remaining, herase]
  exact Finset.card_erase_lt_of_mem hmem

theorem visitAll_isSome
    (ih : ∀ node ∈ nodes, ∀ s, remaining all s < fuel → ∃ t, visit next fuel node s = some t)
    (hs : remaining all s < fuel) : ∃ t, visitAll next fuel nodes s = some t := by
  induction nodes generalizing s with
  | nil => exact ⟨s, rfl⟩
  | cons node nodes ihnodes =>
    obtain ⟨u, hu⟩ := ih node List.mem_cons_self s hs
    obtain ⟨t, ht⟩ := ihnodes (fun x hx => ih x (List.mem_cons_of_mem _ hx))
      (Nat.lt_of_le_of_lt (remaining_after (visit_after hu)) hs)
    exact ⟨t, visitAll_cons.mpr ⟨u, hu, ht⟩⟩

theorem visit_isSome (hclosed : ∀ a ∈ all, ∀ b ∈ next a, b ∈ all) (hnode : node ∈ all)
    (hfuel : remaining all s < fuel) : ∃ t, visit next fuel node s = some t := by
  induction fuel generalizing node s with
  | zero => exact absurd hfuel (Nat.not_lt_zero _)
  | succ fuel ih =>
    by_cases hactive : node ∈ s.active
    · exact ⟨_, visit_eq_some.mpr (.inl ⟨hactive, rfl⟩)⟩
    by_cases hvisited : node ∈ s.visited
    · exact ⟨_, visit_eq_some.mpr (.inr (.inl ⟨hactive, hvisited, rfl⟩))⟩
    obtain ⟨left, hleft⟩ := visitAll_isSome
      (fun x hx s hs => ih (hclosed node hnode x hx) hs)
      (Nat.lt_of_lt_of_le (remaining_enter hnode hvisited) (Nat.le_of_lt_succ hfuel))
    exact ⟨_, visit_eq_some.mpr (.inr (.inr ⟨hactive, hvisited, left, hleft, rfl⟩))⟩

theorem search_isSome {roots : List α} (hclosed : ∀ a ∈ roots, ∀ b ∈ next a, b ∈ roots)
    (hfuel : roots.length < fuel) : ∃ t, visitAll next fuel roots .initial = some t := by
  have hall : ∀ a ∈ roots.toFinset, ∀ b ∈ next a, b ∈ roots.toFinset := fun a ha b hb =>
    List.mem_toFinset.mpr (hclosed a (List.mem_toFinset.mp ha) b hb)
  refine visitAll_isSome (fun x hx s hs => visit_isSome hall (List.mem_toFinset.mpr hx) hs)
    (Nat.lt_of_le_of_lt ?_ hfuel)
  exact (Finset.card_le_card Finset.sdiff_subset).trans (List.toFinset_card_le _)

end Termination

section Repetition

theorem visit_again (h : visit next fuel node s = some t) :
    ∃ u, visit next fuel node t = some u ∧ Alike t u := by
  cases fuel with
  | zero => cases h
  | succ fuel =>
    have hafter := visit_after h
    by_cases hactive : node ∈ s.active
    · have hcycle : s.active.drop (s.active.idxOf node) ++ [node] ∈ t.cycles := by
        obtain ⟨-, rfl⟩ | ⟨hnot, -⟩ | ⟨hnot, -⟩ := visit_eq_some.mp h
        · exact List.mem_append_right _ (List.mem_singleton_self _)
        · exact absurd hactive hnot
        · exact absurd hactive hnot
      rw [← hafter.active] at hactive hcycle
      refine ⟨_, visit_eq_some.mpr (.inl ⟨hactive, rfl⟩), rfl, rfl, fun path => ?_⟩
      rw [Search.close, List.mem_append, List.mem_singleton]
      constructor
      · exact .inl
      · rintro (hpath | rfl)
        · exact hpath
        · exact hcycle
    · have hvisited : node ∈ t.visited := by
        obtain ⟨hmem, -⟩ | ⟨-, hvisited, rfl⟩ | ⟨-, -, left, hleft, rfl⟩ := visit_eq_some.mp h
        · exact absurd hmem hactive
        · exact hvisited
        · have hafter : After (s.enter node) left :=
            visitAll_after (fun _ _ _ => visit_after) hleft
          exact hafter.visited (List.mem_append_right _ (List.mem_singleton_self _))
      rw [← hafter.active] at hactive
      exact ⟨t, visit_eq_some.mpr (.inr (.inl ⟨hactive, hvisited, rfl⟩)), .refl t⟩

theorem visitAll_replicate (n : ℕ) (h : visit next fuel node s = some t) :
    ∃ u, visitAll next fuel (List.replicate (n + 1) node) s = some u ∧ Alike t u := by
  induction n generalizing s t with
  | zero => exact ⟨t, visitAll_cons.mpr ⟨t, h, rfl⟩, .refl t⟩
  | succ n ih =>
    obtain ⟨u, hu, halike⟩ := visit_again h
    obtain ⟨v, hv, halike'⟩ := ih hu
    exact ⟨v, visitAll_cons.mpr ⟨t, h, hv⟩, halike.trans halike'⟩

variable {next' : α → List α}

theorem visitAll_alike {nodes' : List α} {s' : Search α}
    (ih : ∀ node s s' t, Alike s s' → visit next fuel node s = some t →
      ∃ t', visit next' fuel node s' = some t' ∧ Alike t t')
    (hnodes : Stutters nodes nodes') (hs : Alike s s') (h : visitAll next fuel nodes s = some t) :
    ∃ t', visitAll next' fuel nodes' s' = some t' ∧ Alike t t' := by
  induction hnodes generalizing s s' with
  | nil =>
    obtain rfl := Option.some.inj h
    exact ⟨s', rfl, hs⟩
  | block a m n hrest ihrest =>
    obtain ⟨u, hu, h⟩ := visitAll_append.mp h
    obtain ⟨v, hv, -⟩ := visitAll_cons.mp hu
    obtain ⟨u₂, hu₂, halike⟩ := visitAll_replicate m hv
    obtain rfl := Option.some.inj (hu.symm.trans hu₂)
    obtain ⟨v', hv', hvalike⟩ := ih a s s' v hs hv
    obtain ⟨u', hu', halike'⟩ := visitAll_replicate n hv'
    obtain ⟨t', ht', htalike⟩ := ihrest (halike.symm.trans (hvalike.trans halike')) h
    exact ⟨t', visitAll_append.mpr ⟨u', hu', ht'⟩, htalike⟩

theorem visit_alike {s' : Search α} (hnext : ∀ a, Stutters (next a) (next' a)) (hs : Alike s s')
    (h : visit next fuel node s = some t) :
    ∃ t', visit next' fuel node s' = some t' ∧ Alike t t' := by
  induction fuel generalizing node s s' t with
  | zero => cases h
  | succ fuel ih =>
    obtain ⟨hactive, rfl⟩ | ⟨hactive, hvisited, rfl⟩ | ⟨hactive, hvisited, left, hleft, rfl⟩ :=
      visit_eq_some.mp h
    · refine ⟨_, visit_eq_some.mpr (.inl ⟨hs.active ▸ hactive, rfl⟩), hs.visited, hs.active,
        fun path => ?_⟩
      simp only [Search.close, List.mem_append, hs.cycles, hs.active]
    · rw [hs.active] at hactive
      rw [hs.visited] at hvisited
      exact ⟨s', visit_eq_some.mpr (.inr (.inl ⟨hactive, hvisited, rfl⟩)), hs⟩
    · rw [hs.active] at hactive
      rw [hs.visited] at hvisited
      obtain ⟨left', hleft', halike⟩ := visitAll_alike (fun _ _ _ _ hs h => ih hs h)
        (hnext node) hs.enter hleft
      exact ⟨_, visit_eq_some.mpr (.inr (.inr ⟨hactive, hvisited, left', hleft', rfl⟩)),
        halike.leave⟩

theorem search_alike {roots : List α} (hnext : ∀ a, Stutters (next a) (next' a))
    (h : visitAll next fuel roots s = some t) :
    ∃ t', visitAll next' fuel roots s = some t' ∧ Alike t t' :=
  visitAll_alike (fun _ _ _ _ => visit_alike hnext) (.refl roots) (.refl s) h

end Repetition

end Aseos.DepthFirst
