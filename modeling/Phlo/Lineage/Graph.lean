import Mathlib.Data.Set.Card
import Phlo.Library.BreadthFirst
import Phlo.Library.OrderedDict

/-!
# The lineage graph

Assets and the edges along which data flows, kept source by source.  Both traversals are breadth-first: downstream
along the lists of targets, upstream by going through all lists.

* `mem_getDownstream_iff` — what a downstream traversal returns;
* `getDownstream_iff_getUpstream` — both traversals are mirror images;
* `respects_depth_iff` — when a depth bounds what is returned.
-/

namespace Phlo.Lineage

open Phlo.Library

/-! ### Graphs -/

structure Asset where
  name : String
  assetType : String := "unknown"
  status : String := "unknown"
  description : Option String := none

structure LineageGraph where
  assets : OrderedDict String Asset := .empty
  edges : OrderedDict String (List String) := .empty

def LineageGraph.addAsset (g : LineageGraph) (name : String) (assetType status : String) : LineageGraph :=
  if (g.assets.get name).isSome then g else { g with assets := g.assets.set name { name, assetType, status } }

/-- `edges.get(source, [])` -/
def LineageGraph.targetsOf (g : LineageGraph) (source : String) : List String := (g.edges.get source).getD []

def LineageGraph.sourcesOf (g : LineageGraph) (target : String) : List String :=
  (g.edges.items.filter fun item => target ∈ item.2).map Prod.fst

def LineageGraph.addEdge (g : LineageGraph) (source target : String) : LineageGraph :=
  let g := (g.addAsset source "unknown" "unknown").addAsset target "unknown" "unknown"
  if target ∈ g.targetsOf source then g
  else { g with edges := g.edges.set source (g.targetsOf source ++ [target]) }

/-- What is added to a graph. -/
inductive GraphOp where
  | asset (name assetType status : String)
  | edge (source target : String)

def LineageGraph.apply (g : LineageGraph) : GraphOp → LineageGraph
  | .asset name assetType status => g.addAsset name assetType status
  | .edge source target => g.addEdge source target

def build (ops : List GraphOp) : LineageGraph := ops.foldl LineageGraph.apply {}

/-! ### Traversals -/

theorem LineageGraph.mem_keys_of_targetsOf (g : LineageGraph) (a : String) (h : g.targetsOf a ≠ []) :
    a ∈ (g.edges.items.map Prod.fst).toFinset := by
  rw [List.mem_toFinset]
  by_contra hnone
  refine h ?_
  rw [targetsOf, OrderedDict.get_eq_none_iff.2 hnone]
  rfl

theorem LineageGraph.mem_targets_of_sourcesOf (g : LineageGraph) (b : String) (h : g.sourcesOf b ≠ []) :
    b ∈ (g.edges.values.flatten).toFinset := by
  have ⟨a, ha⟩ := List.exists_mem_of_ne_nil _ h
  have ⟨item, hitem, _⟩ := List.mem_map.1 ha
  have ⟨hmem, hin⟩ := List.mem_filter.1 hitem
  exact List.mem_toFinset.2 (List.mem_flatten.2 ⟨item.2, List.mem_map_of_mem hmem, of_decide_eq_true hin⟩)

/-- `get_downstream` -/
def LineageGraph.getDownstream (g : LineageGraph) (assetName : String) (depth : Option ℕ) : Finset String :=
  collect g.targetsOf _ g.mem_keys_of_targetsOf depth [(assetName, 0)] ∅ ∅

/-- `get_upstream` -/
def LineageGraph.getUpstream (g : LineageGraph) (assetName : String) (depth : Option ℕ) : Finset String :=
  collect g.sourcesOf _ g.mem_targets_of_sourcesOf depth [(assetName, 0)] ∅ ∅

structure Impact where
  directCount : ℕ
  indirectCount : ℤ
  publishingAffected : Bool
  affectedAssets : Finset String

/-- `get_impact` -/
def LineageGraph.getImpact (g : LineageGraph) (assetName : String) : Impact :=
  let downstream := g.getDownstream assetName none
  { directCount := 0
    indirectCount := downstream.card - (g.getDownstream assetName (some 1)).card
    publishingAffected := decide (∃ asset ∈ downstream,
      ((g.assets.get asset).getD { name := "" }).assetType = "publish")
    affectedAssets := downstream }

variable {g : LineageGraph} {a b : String} {depth : Option ℕ}

theorem LineageGraph.mem_targetsOf_iff : b ∈ g.targetsOf a ↔ a ∈ g.sourcesOf b := by
  rw [sourcesOf, List.mem_map]
  constructor
  · intro h
    cases hget : g.edges.get a with
    | none =>
      rw [targetsOf, hget] at h
      cases h
    | some targets =>
      rw [targetsOf, hget] at h
      exact ⟨(a, targets), List.mem_filter.2 ⟨OrderedDict.get_eq_some_iff.1 hget, decide_eq_true h⟩, rfl⟩
  · rintro ⟨item, hitem, heq⟩
    have ⟨hmem, hin⟩ := List.mem_filter.1 hitem
    have hget : g.edges.get a = some item.2 := by
      rw [← heq]
      exact OrderedDict.get_eq_some_iff.2 hmem
    rw [targetsOf, hget]
    exact of_decide_eq_true hin

theorem mem_getDownstream_iff : b ∈ g.getDownstream a depth ↔
    ∃ n, Within depth n ∧ StepsIn g.targetsOf (n + 1) a b := mem_collect_iff _ _

theorem getDownstream_iff_getUpstream : b ∈ g.getDownstream a depth ↔ a ∈ g.getUpstream b depth := by
  rw [mem_getDownstream_iff, LineageGraph.getUpstream, mem_collect_iff]
  exact exists_congr fun n => and_congr_right fun _ => stepsIn_swap (fun _ _ => LineageGraph.mem_targetsOf_iff) _ _ _

/-! ### Built graphs -/

def declared (ops : List GraphOp) (source : String) : List String :=
  ops.filterMap fun
    | .edge s t => if s = source then some t else none
    | .asset .. => none

theorem mem_declared_edge {source target : String} {ops : List GraphOp} :
    b ∈ declared (.edge source target :: ops) a ↔ source = a ∧ target = b ∨ b ∈ declared ops a := by
  by_cases hsource : source = a
  · simp [declared, hsource, eq_comm]
  · simp [declared, hsource]

theorem LineageGraph.targetsOf_addAsset (g : LineageGraph) (name assetType status source : String) :
    (g.addAsset name assetType status).targetsOf source = g.targetsOf source := by
  unfold addAsset
  split <;> rfl

theorem LineageGraph.mem_targetsOf_addEdge {source target : String} :
    b ∈ (g.addEdge source target).targetsOf a ↔ b ∈ g.targetsOf a ∨ source = a ∧ target = b := by
  have hsame : ∀ s, ((g.addAsset source "unknown" "unknown").addAsset target "unknown" "unknown").targetsOf s =
      g.targetsOf s := fun s => by rw [targetsOf_addAsset, targetsOf_addAsset]
  unfold addEdge
  dsimp only
  rw [hsame]
  split
  next hold =>
    rw [hsame]
    refine ⟨.inl, fun h => ?_⟩
    rcases h with h | ⟨hsource, htarget⟩
    · exact h
    · rw [← hsource, ← htarget]
      exact hold
  · rw [targetsOf, OrderedDict.get_set]
    split
    next heq =>
      rw [Option.getD_some, List.mem_append, List.mem_singleton, heq]
      simp only [true_and, eq_comm]
    next hne =>
      have hrest := hsame a
      rw [targetsOf] at hrest
      rw [hrest]
      refine ⟨.inl, fun h => h.resolve_right fun hsource => hne hsource.1.symm⟩

theorem mem_targetsOf_build (ops : List GraphOp) : b ∈ (build ops).targetsOf a ↔ b ∈ declared ops a := by
  have hfrom : ∀ g : LineageGraph, b ∈ (ops.foldl LineageGraph.apply g).targetsOf a ↔
      b ∈ g.targetsOf a ∨ b ∈ declared ops a := by
    induction ops with
    | nil => exact fun g => ⟨.inl, fun h => h.resolve_right List.not_mem_nil⟩
    | cons op ops ih =>
      intro g
      rw [List.foldl_cons, ih]
      cases op with
      | asset name assetType status =>
        show b ∈ (g.addAsset name assetType status).targetsOf a ∨ _ ↔ _
        rw [LineageGraph.targetsOf_addAsset]
        rfl
      | edge source target =>
        show b ∈ (g.addEdge source target).targetsOf a ∨ _ ↔ _
        rw [LineageGraph.mem_targetsOf_addEdge, or_assoc]
        refine or_congr_right ?_
        rw [mem_declared_edge]
  exact (hfrom {}).trans ⟨fun h => h.resolve_left List.not_mem_nil, .inr⟩

/-! ### Traversals of built graphs -/

variable {ops : List GraphOp}

/-- A number of steps along added edges. -/
abbrev Leads (ops : List GraphOp) : ℕ → String → String → Prop := StepsIn (declared ops)

theorem stepsIn_build {n : ℕ} : StepsIn (build ops).targetsOf n a b ↔ Leads ops n a b := by
  induction n generalizing b with
  | zero => exact Iff.rfl
  | succ n ih => exact exists_congr fun c => and_congr ih (mem_targetsOf_build ops)

/-- What a downstream traversal of a built graph returns: a depth lets through one step more. -/
theorem mem_getDownstream_build :
    b ∈ (build ops).getDownstream a depth ↔ ∃ n, Within depth n ∧ Leads ops (n + 1) a b := by
  rw [mem_getDownstream_iff]
  exact exists_congr fun n => and_congr_right fun _ => stepsIn_build

/-- No asset is one step more than `d` away, and not nearer. -/
def NoneBeyond (ops : List GraphOp) (a : String) (d : ℕ) : Prop :=
  ∀ b, Leads ops (d + 1) a b → ∃ n, 1 ≤ n ∧ n ≤ d ∧ Leads ops n a b

/-- The traversals from an asset return what their depth says, and the impact counts the assets without a direct
edge. -/
structure RespectsDepth (ops : List GraphOp) (a : String) (depth : Option ℕ) : Prop where
  downstream : ∀ b, b ∈ (build ops).getDownstream a depth ↔ ∃ n, 1 ≤ n ∧ Within depth n ∧ Leads ops n a b
  mirror : ∀ b, b ∈ (build ops).getDownstream a depth ↔ a ∈ (build ops).getUpstream b depth
  indirect : ((build ops).getImpact a).indirectCount =
    {b | (∃ n, 1 ≤ n ∧ Leads ops n a b) ∧ b ∉ declared ops a}.ncard

/-- A traversal returns what its depth says exactly if no asset is one step beyond. -/
theorem downstream_exact_iff : (∀ b, b ∈ (build ops).getDownstream a depth ↔
    ∃ n, 1 ≤ n ∧ Within depth n ∧ Leads ops n a b) ↔ ∀ d ∈ depth, NoneBeyond ops a d := by
  constructor
  · intro h d hd b hb
    have hin : b ∈ (build ops).getDownstream a depth :=
      mem_getDownstream_build.2 ⟨d, fun d' hd' => by rw [Option.mem_unique hd hd'], hb⟩
    have ⟨n, hpos, hwithin, hleads⟩ := (h b).1 hin
    exact ⟨n, hpos, hwithin d hd, hleads⟩
  · intro h b
    rw [mem_getDownstream_build]
    constructor
    · rintro ⟨n, hwithin, hleads⟩
      by_cases hbeyond : Within depth (n + 1)
      · exact ⟨n + 1, Nat.succ_pos n, hbeyond, hleads⟩
      · have ⟨d, hd, hlt⟩ : ∃ d ∈ depth, d < n + 1 := by
          by_contra hnone
          exact hbeyond fun d hd => Nat.not_lt.1 fun hlt => hnone ⟨d, hd, hlt⟩
        have heq : n = d := Nat.le_antisymm (hwithin d hd) (Nat.lt_succ_iff.1 hlt)
        rw [heq] at hleads
        have ⟨m, hpos, hle, hm⟩ := h d hd b hleads
        exact ⟨m, hpos, fun d' hd' => by rw [← Option.mem_unique hd hd']; exact hle, hm⟩
    · rintro ⟨n, hpos, hwithin, hleads⟩
      refine ⟨n - 1, hwithin.of_le (Nat.sub_le n 1), ?_⟩
      rw [Nat.sub_add_cancel hpos]
      exact hleads

theorem indirect_exact_iff : ((build ops).getImpact a).indirectCount =
    {b | (∃ n, 1 ≤ n ∧ Leads ops n a b) ∧ b ∉ declared ops a}.ncard ↔ NoneBeyond ops a 1 := by
  have hall : ∀ b, b ∈ (build ops).getDownstream a none ↔ ∃ n, 1 ≤ n ∧ Leads ops n a b := by
    intro b
    have hexact : ∀ b, b ∈ (build ops).getDownstream a none ↔
        ∃ n, 1 ≤ n ∧ Within none n ∧ Leads ops n a b := downstream_exact_iff.2 nofun
    rw [hexact]
    exact exists_congr fun n => and_congr_right fun _ => ⟨And.right, fun h => ⟨nofun, h⟩⟩
  have hnear : ∀ b, b ∈ (build ops).getDownstream a (some 1) ↔ ∃ n, n ≤ 1 ∧ Leads ops (n + 1) a b := by
    intro b
    rw [mem_getDownstream_build]
    exact exists_congr fun n => and_congr_left fun _ => ⟨fun h => h 1 rfl, fun h d hd => by cases hd; exact h⟩
  have hdirect : (declared ops a).toFinset ⊆ (build ops).getDownstream a (some 1) := fun b hb =>
    (hnear b).2 ⟨0, Nat.zero_le 1, stepsIn_one.2 (List.mem_toFinset.1 hb)⟩
  have hinner : (build ops).getDownstream a (some 1) ⊆ (build ops).getDownstream a none := by
    intro b hb
    have ⟨n, _, hleads⟩ := (hnear b).1 hb
    exact (hall b).2 ⟨n + 1, Nat.succ_pos n, hleads⟩
  have hset : {b | (∃ n, 1 ≤ n ∧ Leads ops n a b) ∧ b ∉ declared ops a} =
      ((build ops).getDownstream a none \ (declared ops a).toFinset : Finset String) := by
    ext b
    rw [Set.mem_ofPred_eq, Finset.mem_coe, Finset.mem_sdiff, hall, List.mem_toFinset]
  have hcount : ((build ops).getImpact a).indirectCount = ((build ops).getDownstream a none).card -
      ((build ops).getDownstream a (some 1)).card := rfl
  have hless := Finset.card_le_card hinner
  have hless' := Finset.card_le_card hdirect
  rw [hcount, hset, Set.ncard_coe_finset, Finset.card_sdiff_of_subset (hdirect.trans hinner)]
  have hcards : (((build ops).getDownstream a none).card : ℤ) - ((build ops).getDownstream a (some 1)).card =
      (((build ops).getDownstream a none).card - (declared ops a).toFinset.card : ℕ) ↔
      ((build ops).getDownstream a (some 1)).card ≤ (declared ops a).toFinset.card := by omega
  rw [hcards]
  constructor
  · intro hle b hb
    have hin : b ∈ (build ops).getDownstream a (some 1) := (hnear b).2 ⟨1, le_refl 1, hb⟩
    rw [← Finset.eq_of_subset_of_card_le hdirect hle] at hin
    exact ⟨1, le_refl 1, le_refl 1, stepsIn_one.2 (List.mem_toFinset.1 hin)⟩
  · intro hnone
    refine Finset.card_le_card fun b hb => ?_
    have ⟨n, hle, hleads⟩ := (hnear b).1 hb
    have hone : Leads ops 1 a b := by
      rcases Nat.le_one_iff_eq_zero_or_eq_one.1 hle with heq | heq
      · rw [heq] at hleads
        exact hleads
      · rw [heq] at hleads
        have ⟨m, hpos, hm, hleads⟩ := hnone b hleads
        rw [Nat.le_antisymm hm hpos] at hleads
        exact hleads
    exact List.mem_toFinset.2 (stepsIn_one.1 hone)

/-- The traversals from an asset respect a depth if and only if no asset is one step beyond it, and the impact is
counted right if and only if none is two steps away. -/
theorem respects_depth_iff (ops : List GraphOp) (a : String) (depth : Option ℕ) :
    RespectsDepth ops a depth ↔ (∀ d ∈ depth, NoneBeyond ops a d) ∧ NoneBeyond ops a 1 := by
  constructor
  · exact fun h => ⟨downstream_exact_iff.1 h.downstream, indirect_exact_iff.1 h.indirect⟩
  · exact fun h => ⟨downstream_exact_iff.2 h.1, fun _ => getDownstream_iff_getUpstream, indirect_exact_iff.2 h.2⟩

/-- Orders that are cleaned and then published. -/
def orderEdges : List GraphOp :=
  [.edge "bronze.orders" "silver.stg_orders", .edge "silver.stg_orders" "gold.fct_orders"]

/-- Two steps from the raw orders, the published ones are downstream of them at depth one, and are not counted as
affected indirectly. -/
theorem published_at_depth_one : "gold.fct_orders" ∈ (build orderEdges).getDownstream "bronze.orders" (some 1) ∧
      ¬ RespectsDepth orderEdges "bronze.orders" (some 1) := by
  have hleads : Leads orderEdges 2 "bronze.orders" "gold.fct_orders" :=
    ⟨"silver.stg_orders", stepsIn_one.2 (by decide), by decide⟩
  refine ⟨mem_getDownstream_build.2 ⟨1, fun d hd => by cases hd; exact le_refl 1, hleads⟩, fun h => ?_⟩
  have ⟨n, hpos, hle, hone⟩ := downstream_exact_iff.1 h.downstream 1 rfl _ hleads
  rw [Nat.le_antisymm hle hpos] at hone
  exact absurd (stepsIn_one.1 hone) (by decide)

end Phlo.Lineage
