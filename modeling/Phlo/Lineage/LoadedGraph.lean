import Phlo.Lineage.Graph

/-!
# The graph of a lineage store

The global graph is built from the rows of two tables, the nodes before the edges.  An asset keeps the type it is first
mentioned with, and an edge mentions its ends without a type.
-/

namespace Phlo.Lineage

open Phlo.Library

/-- A row of `asset_lineage_nodes`. -/
structure AssetNode where
  assetKey : String
  assetType : Option String
  status : Option String

/-- `value or "unknown"` -/
def orUnknown (value : Option String) : String := (value.filter (· ≠ "")).getD "unknown"

def loadOps (nodes : List AssetNode) (edges : List (String × String)) : List GraphOp :=
  nodes.map (fun node => .asset node.assetKey (orUnknown node.assetType) (orUnknown node.status)) ++
    edges.map fun edge => .edge edge.1 edge.2

/-- `_build_lineage_from_store`, of what the store answers; none where it raises. -/
def buildLineageFromStore (nodes : Option (List AssetNode)) (edges : Option (List (String × String))) : LineageGraph :=
  match nodes with
  | none => {}
  | some nodes => build (loadOps nodes (edges.getD []))

variable {g : LineageGraph} {a b : String}

def LineageGraph.typeOf (g : LineageGraph) (name : String) : Option String := (g.assets.get name).map Asset.assetType

/-- The type an operation mentions an asset with. -/
def GraphOp.typeFor (name : String) : GraphOp → Option String
  | .asset n assetType _ => if name = n then some assetType else none
  | .edge source target => if name = source ∨ name = target then some "unknown" else none

theorem typeOf_addAsset (name assetType status : String) : (g.addAsset name assetType status).typeOf b =
    (g.typeOf b).or (if b = name then some assetType else none) := by
  unfold LineageGraph.addAsset LineageGraph.typeOf
  by_cases hold : (g.assets.get name).isSome
  · rw [if_pos hold]
    split
    next heq => rw [heq, Option.or_of_isSome (by rw [Option.isSome_map]; exact hold)]
    · rw [Option.or_none]
  · rw [if_neg hold, OrderedDict.get_set]
    split
    next heq => rw [heq, Option.not_isSome_iff_eq_none.1 hold, Option.map_none, Option.none_or, Option.map_some]
    · rw [Option.or_none]

/-- An asset has the type of its first mention. -/
theorem typeOf_build (ops : List GraphOp) : (build ops).typeOf b = ops.findSome? (GraphOp.typeFor b) := by
  have hfrom : ∀ g : LineageGraph, (ops.foldl LineageGraph.apply g).typeOf b =
      (g.typeOf b).or (ops.findSome? (GraphOp.typeFor b)) := by
    induction ops with
    | nil => exact fun g => (Option.or_none).symm
    | cons op ops ih =>
      intro g
      have happly : (g.apply op).typeOf b = (g.typeOf b).or (op.typeFor b) := by
        cases op with
        | asset name assetType status => exact typeOf_addAsset name assetType status
        | edge source target =>
          have hassets : (g.addEdge source target).typeOf b =
              ((g.addAsset source "unknown" "unknown").addAsset target "unknown" "unknown").typeOf b := by
            unfold LineageGraph.addEdge
            dsimp only
            split <;> rfl
          show (g.addEdge source target).typeOf b = _
          rw [hassets, typeOf_addAsset, typeOf_addAsset, Option.or_assoc, GraphOp.typeFor]
          by_cases hsource : b = source
          · simp [hsource]
          · simp [hsource]
      rw [List.foldl_cons, ih, happly, Option.or_assoc, List.findSome?_cons]
      cases op.typeFor b <;> rfl
  exact (hfrom {}).trans (Option.none_or ..)

theorem orUnknown_eq_publish {value : Option String} : orUnknown value = "publish" ↔ value = some "publish" := by
  cases value with
  | none => decide
  | some value =>
    by_cases hempty : value = ""
    · subst hempty
      decide
    · simp [orUnknown, Option.filter, hempty]

theorem typeOf_loaded (nodes : List AssetNode) (edges : List (String × String)) :
    ((build (loadOps nodes edges)).typeOf b).getD "unknown" =
      orUnknown ((nodes.find? (·.assetKey = b)).bind AssetNode.assetType) := by
  rw [typeOf_build, loadOps]
  induction nodes with
  | nil =>
    induction edges with
    | nil => rfl
    | cons edge edges ih =>
      by_cases hedge : b = edge.1 ∨ b = edge.2
      · simp [GraphOp.typeFor, hedge, orUnknown]
      · simpa [GraphOp.typeFor, hedge] using ih
  | cons node nodes ih =>
    by_cases hnode : node.assetKey = b
    · simp [GraphOp.typeFor, hnode]
    · simpa [GraphOp.typeFor, hnode, Ne.symm hnode] using ih

theorem exists_stepsIn_iff {next : String → List String} :
    (∃ n, StepsIn next (n + 1) a b) ↔ Relation.TransGen (fun s t => t ∈ next s) a b := by
  constructor
  · rintro ⟨n, h⟩
    induction n generalizing b with
    | zero => exact .single (stepsIn_one.1 h)
    | succ n ih =>
      have ⟨c, hc, hb⟩ := h
      exact (ih hc).tail hb
  · intro h
    induction h with
    | single h => exact ⟨0, stepsIn_one.2 h⟩
    | tail _ h ih =>
      have ⟨n, hn⟩ := ih
      exact ⟨n + 1, _, hn, h⟩

/-- In a loaded graph an asset affects those that edges lead to from it; publishing is affected if the first node of one
of them says `publish`, wherever its row stands among those of others. -/
theorem loaded_impact (nodes : List AssetNode) (edges : List (String × String)) (a : String) :
    let impact := (buildLineageFromStore (some nodes) (some edges)).getImpact a
    let Leads := Relation.TransGen fun s t => (s, t) ∈ edges
    (∀ b, b ∈ impact.affectedAssets ↔ Leads a b) ∧ (impact.publishingAffected = true ↔
      ∃ b, Leads a b ∧ ∃ node, nodes.find? (·.assetKey = b) = some node ∧ node.assetType = some "publish") := by
  intro impact Leads
  have haffected : ∀ b, b ∈ impact.affectedAssets ↔ Leads a b := by
    intro b
    have hedge : ∀ s t, t ∈ declared (loadOps nodes edges) s ↔ (s, t) ∈ edges := by
      intro s t
      simp [declared, loadOps, List.filterMap_map]
    refine mem_getDownstream_build.trans ?_
    simp only [Within, Option.mem_def, reduceCtorEq, false_implies, implies_true, true_and, exists_stepsIn_iff,
      Option.getD_some, hedge, Leads]
  have htype : ∀ b, (((build (loadOps nodes edges)).assets.get b).getD { name := "" }).assetType = "publish" ↔
      ∃ node, nodes.find? (·.assetKey = b) = some node ∧ node.assetType = some "publish" := by
    intro b
    have hfirst : (((build (loadOps nodes edges)).assets.get b).getD { name := "" }).assetType =
        ((build (loadOps nodes edges)).typeOf b).getD "unknown" := by
      unfold LineageGraph.typeOf
      cases (build (loadOps nodes edges)).assets.get b <;> rfl
    rw [hfirst, typeOf_loaded, orUnknown_eq_publish, Option.bind_eq_some_iff]
  refine ⟨haffected, decide_eq_true_iff.trans (exists_congr fun b => and_congr (haffected b) (htype b))⟩

end Phlo.Lineage
