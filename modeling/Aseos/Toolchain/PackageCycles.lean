import Mathlib.Logic.Function.Basic
import Aseos.Library.DepthFirst
import Aseos.Toolchain.ChangedPaths

namespace Aseos

namespace Architecture

open DepthFirst

structure PackageEdge where
  «from» : JsString
  «to» : JsString
  deriving DecidableEq

def sortedUnique (values : List JsString) : List JsString := JsString.sort values.eraseDups

abbrev Adjacency := JsString → List JsString

def Adjacency.push (adjacency : Adjacency) (edge : PackageEdge) : Adjacency :=
  Function.update adjacency edge.from (adjacency edge.from ++ [edge.to])

def adjacencyOf (edges : List PackageEdge) : Adjacency := edges.foldl Adjacency.push fun _ => []

def sortedTargets (edges : List PackageEdge) (node : JsString) : List JsString :=
  JsString.sort (adjacencyOf edges node)

def nodesOf (edges : List PackageEdge) : List JsString :=
  sortedUnique (edges.flatMap fun edge => [edge.from, edge.to])

def pathText (path : List JsString) : JsString := List.intercalate (js " -> ") path

-- No path is longer than there are nodes.
def cyclePaths (edges : List PackageEdge) : Option (List JsString) := do
  let nodes := nodesOf edges
  let search ← visitAll (sortedTargets edges) (nodes.length + 1) nodes .initial
  return sortedUnique (search.cycles.map pathText)

def DependsOn (edges : List PackageEdge) (a b : JsString) : Prop := ⟨a, b⟩ ∈ edges

section Lists

theorem mem_sort {l : List JsString} {a : JsString} : a ∈ JsString.sort l ↔ a ∈ l :=
  (JsString.sort_perm l).mem_iff

theorem mem_sortedUnique {l : List JsString} {a : JsString} : a ∈ sortedUnique l ↔ a ∈ l := by
  rw [sortedUnique, mem_sort, List.mem_eraseDups]

theorem sortedUnique_nodup (l : List JsString) : (sortedUnique l).Nodup :=
  (JsString.sort_perm _).nodup_iff.mpr (ScopePolicy.nodup_eraseDups l)

theorem sortedUnique_congr {l l' : List JsString} (h : ∀ a, a ∈ l ↔ a ∈ l') :
    sortedUnique l = sortedUnique l' := by
  have hperm : (sortedUnique l).Perm (sortedUnique l') := by
    refine (List.perm_ext_iff_of_nodup (sortedUnique_nodup l) (sortedUnique_nodup l')).mpr ?_
    intro a
    rw [mem_sortedUnique, mem_sortedUnique, h a]
  exact hperm.eq_of_pairwise (fun _ _ _ _ => le_antisymm) (JsString.sort_pairwise _)
    (JsString.sort_pairwise _)

end Lists

section Adjacency

theorem mem_push {adjacency : Adjacency} {edge : PackageEdge} {a b : JsString} :
    b ∈ adjacency.push edge a ↔ b ∈ adjacency a ∨ edge = ⟨a, b⟩ := by
  obtain ⟨origin, target⟩ := edge
  rw [Adjacency.push]
  by_cases h : a = origin
  · subst h
    simp [eq_comm]
  · simp [Function.update_of_ne h, Ne.symm h]

theorem mem_foldl_push {edges : List PackageEdge} {adjacency : Adjacency} {a b : JsString} :
    b ∈ edges.foldl Adjacency.push adjacency a ↔ b ∈ adjacency a ∨ ⟨a, b⟩ ∈ edges := by
  induction edges generalizing adjacency with
  | nil => simp
  | cons edge edges ih =>
    rw [List.foldl_cons, ih, mem_push, List.mem_cons, or_assoc, eq_comm]

theorem mem_sortedTargets {edges : List PackageEdge} {a b : JsString} :
    b ∈ sortedTargets edges a ↔ DependsOn edges a b := by
  rw [sortedTargets, mem_sort, adjacencyOf, mem_foldl_push]
  simp [DependsOn]

theorem sortedTargets_edge (edges : List PackageEdge) :
    (fun a b => b ∈ sortedTargets edges a) = DependsOn edges :=
  funext fun _ => funext fun _ => propext mem_sortedTargets

theorem mem_nodesOf {edges : List PackageEdge} {node : JsString} :
    node ∈ nodesOf edges ↔ ∃ other, DependsOn edges node other ∨ DependsOn edges other node := by
  rw [nodesOf, mem_sortedUnique, List.mem_flatMap]
  constructor
  · rintro ⟨⟨a, b⟩, hedge, hnode⟩
    obtain rfl | hnode := List.mem_cons.mp hnode
    · exact ⟨b, .inl hedge⟩
    · obtain rfl := List.mem_singleton.mp hnode
      exact ⟨a, .inr hedge⟩
  · rintro ⟨other, hedge | hedge⟩
    · exact ⟨_, hedge, List.mem_cons_self⟩
    · exact ⟨_, hedge, List.mem_cons_of_mem _ List.mem_cons_self⟩

end Adjacency

theorem search_of_edges (edges : List PackageEdge) :
    ∃ search, visitAll (sortedTargets edges) ((nodesOf edges).length + 1) (nodesOf edges) .initial =
      some search := by
  refine search_isSome (fun a _ b hb => ?_) (Nat.lt_succ_self _)
  exact mem_nodesOf.mpr ⟨a, .inr (mem_sortedTargets.mp hb)⟩

theorem cyclePaths_eq {edges : List PackageEdge} {search : Search JsString}
    (h : visitAll (sortedTargets edges) ((nodesOf edges).length + 1) (nodesOf edges) .initial =
      some search) :
    cyclePaths edges = some (sortedUnique (search.cycles.map pathText)) := by
  rw [cyclePaths, h]
  rfl

theorem cyclePaths_congr {edges edges' : List PackageEdge} (h : ∀ e, e ∈ edges ↔ e ∈ edges') :
    cyclePaths edges = cyclePaths edges' := by
  have hnodes : nodesOf edges = nodesOf edges' := by
    refine sortedUnique_congr fun a => ?_
    simp only [List.mem_flatMap, h]
  obtain ⟨search, hsearch⟩ := search_of_edges edges
  have hsame : ∀ a, Stutters (sortedTargets edges a) (sortedTargets edges' a) := by
    intro a
    refine stutters_of_sorted (JsString.sort_pairwise _) (JsString.sort_pairwise _) fun b => ?_
    rw [mem_sortedTargets, mem_sortedTargets]
    exact h ⟨a, b⟩
  obtain ⟨search', hsearch', halike⟩ := search_alike hsame hsearch
  rw [cyclePaths_eq hsearch, cyclePaths_eq (hnodes ▸ hsearch')]
  congr 1
  refine sortedUnique_congr fun text => ?_
  simp only [List.mem_map, halike.cycles]

theorem package_cycles_exact (edges : List PackageEdge) :
    ∃ (report : List JsString) (paths : List (List JsString)), cyclePaths edges = some report ∧
      (∀ text, text ∈ report ↔ ∃ path ∈ paths, text = pathText path) ∧
      report.Pairwise (· < ·) ∧
      (∀ path ∈ paths, IsCycle (DependsOn edges) path) ∧
      (WellFounded fun b a => DependsOn edges a b ∧ ∀ path ∈ paths, ¬[a, b] <:+ path) ∧
      (report = [] ↔ ∀ a, ¬Relation.TransGen (DependsOn edges) a a) ∧
      ∀ edges' : List PackageEdge, (∀ e, e ∈ edges ↔ e ∈ edges') →
        cyclePaths edges' = some report := by
  obtain ⟨search, hsearch⟩ := search_of_edges edges
  obtain ⟨hcycles, hkept⟩ := search_exact hsearch fun a b hb =>
    mem_nodesOf.mpr ⟨b, .inl (mem_sortedTargets.mp hb)⟩
  rw [sortedTargets_edge] at hcycles
  have hkept' : WellFounded fun b a =>
      DependsOn edges a b ∧ ∀ path ∈ search.cycles, ¬[a, b] <:+ path :=
    Subrelation.wf (fun hedge => ⟨mem_sortedTargets.mpr hedge.1, hedge.2⟩) hkept
  have hreport := cyclePaths_eq hsearch
  refine ⟨_, search.cycles, hreport, fun text => ?_, ?_, hcycles, hkept', ?_, fun edges' h => ?_⟩
  · rw [mem_sortedUnique, List.mem_map]
    simp only [eq_comm]
  · exact (JsString.sort_pairwise _).imp₂ (fun _ _ hle hne => lt_of_le_of_ne hle hne)
      (sortedUnique_nodup _)
  · constructor
    · intro hempty a ha
      have hnone : search.cycles = [] := by
        refine List.eq_nil_iff_forall_not_mem.mpr fun path hpath => ?_
        have hmem : pathText path ∈ sortedUnique (search.cycles.map pathText) :=
          mem_sortedUnique.mpr (List.mem_map_of_mem hpath)
        rw [hempty] at hmem
        exact List.not_mem_nil hmem
      simp only [hnone, List.not_mem_nil, false_imp_iff, implies_true, and_true] at hkept'
      exact acyclic_of_wellFounded hkept' a ha
    · intro hacyclic
      refine List.eq_nil_iff_forall_not_mem.mpr fun text htext => ?_
      obtain ⟨path, hpath, -⟩ := List.mem_map.mp (mem_sortedUnique.mp htext)
      obtain ⟨node, hnode⟩ := (hcycles path hpath).transGen
      exact hacyclic node hnode
  · rw [← cyclePaths_congr h, hreport]

example : cyclePaths [⟨js "b", js "a"⟩, ⟨js "a", js "b"⟩, ⟨js "b", js "a"⟩] =
    some [js "a -> b -> a"] := by
  decide +kernel

end Architecture

end Aseos
