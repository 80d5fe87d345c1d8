import Mathlib.Algebra.Ring.Int.Defs
import Mathlib.Algebra.Ring.Nat
import Mathlib.Data.Rat.Init
import Mathlib.Order.Fin.Basic
import PrimeRl.Orchestrator.Trajectories

/-!
# The layout of a forked trace

Every trainable token of a node is owned by the sample of the first branch
through the node. The layout lists the owned tokens once, node by node, and each
of its spans names the same tokens in node and in sample coordinates.
-/

namespace PrimeRl.Orchestrator.TrainingLayout

open PrimeRl.Orchestrator.MessageGraph PrimeRl.Orchestrator.Episodes
open PrimeRl.Orchestrator.Trajectories PrimeRl.Transport

universe u

/-! ## Runs -/

/-- Positions of the true entries, counted from an index. -/
def truePositions : Nat → List Bool → List Nat
  | _, [] => []
  | index, trainable :: rest =>
      if trainable then index :: truePositions (index + 1) rest else truePositions (index + 1) rest

/-- The positions of a run. -/
def runPositions (run : Nat × Nat) : List Nat := List.range' run.1 (run.2 - run.1)

/-- Runs cover exactly the true positions, in order. A run in progress has
covered the positions since its start. -/
theorem runs_from_positions (mask : List Bool) (index : Nat) :
    (runsFrom none index mask).flatMap runPositions = truePositions index mask ∧
      ∀ start, start ≤ index →
        (runsFrom (some start) index mask).flatMap runPositions =
          List.range' start (index - start) ++ truePositions index mask := by
  induction mask generalizing index with
  | nil =>
    refine ⟨rfl, ?_⟩
    intro start _
    simp [runsFrom, runPositions, truePositions]
  | cons trainable rest inductionHypothesis =>
    obtain ⟨closed, opened⟩ := inductionHypothesis (index + 1)
    cases trainable with
    | false =>
      refine ⟨by simpa [runsFrom, truePositions] using closed, ?_⟩
      intro start _
      simp [runsFrom, runPositions, truePositions, closed]
    | true =>
      refine ⟨?_, ?_⟩
      · have fresh := opened index (Nat.le_succ index)
        simpa [runsFrom, truePositions, Nat.add_sub_cancel_left] using fresh
      · intro start started
        have continued := opened start (by omega)
        have grown : index + 1 - start = (index - start) + 1 := by omega
        have reached : start + (index - start) = index := by omega
        rw [grown, List.range'_concat, Nat.one_mul, reached] at continued
        simpa [runsFrom, truePositions] using continued

theorem true_runs_positions (mask : List Bool) :
    (trueRuns mask).flatMap runPositions = truePositions 0 mask :=
  (runs_from_positions mask 0).1

theorem mem_true_positions_iff (mask : List Bool) (index position : Nat) :
    position ∈ truePositions index mask ↔ index ≤ position ∧ mask[position - index]? = some true := by
  induction mask generalizing index with
  | nil => simp [truePositions]
  | cons trainable rest inductionHypothesis =>
    have later := inductionHypothesis (index + 1)
    by_cases here : position = index
    · subst here
      cases trainable with
      | false =>
        simp only [truePositions, Bool.false_eq_true, if_false, later, Nat.sub_self,
          List.getElem?_cons_zero]
        constructor
        · rintro ⟨impossible, -⟩
          omega
        · rintro ⟨-, impossible⟩
          exact absurd (Option.some.inj impossible) Bool.false_ne_true
      | true => simp [truePositions]
    · have step : index ≤ position ↔ index + 1 ≤ position := by omega
      have shift : index + 1 ≤ position → position - index = (position - (index + 1)) + 1 := by omega
      have tail : position ∈ truePositions index (trainable :: rest) ↔
          position ∈ truePositions (index + 1) rest := by
        cases trainable with
        | false => simp [truePositions]
        | true => simp [truePositions, here]
      rw [tail, later, step]
      refine and_congr_right ?_
      intro inside
      rw [shift inside, List.getElem?_cons_succ]

theorem true_positions_increasing (mask : List Bool) (index : Nat) :
    (truePositions index mask).Pairwise (· < ·) := by
  induction mask generalizing index with
  | nil => exact List.Pairwise.nil
  | cons trainable rest inductionHypothesis =>
    cases trainable with
    | false => simpa [truePositions] using inductionHypothesis (index + 1)
    | true =>
      simp only [truePositions, if_true]
      refine List.Pairwise.cons ?_ (inductionHypothesis (index + 1))
      intro position member
      have after := ((mem_true_positions_iff rest (index + 1) position).mp member).1
      omega

theorem true_positions_append (first second : List Bool) (index : Nat) :
    truePositions index (first ++ second) =
      truePositions index first ++ truePositions (index + first.length) second := by
  induction first generalizing index with
  | nil => rfl
  | cons trainable rest inductionHypothesis =>
    have later := inductionHypothesis (index + 1)
    have shift : index + 1 + rest.length = index + (trainable :: rest).length := by
      simp only [List.length_cons]
      omega
    rw [shift] at later
    cases trainable with
    | false => simpa [truePositions] using later
    | true => simpa [truePositions] using later

theorem true_positions_shift (mask : List Bool) (index offset : Nat) :
    (truePositions index mask).map (fun position => offset + position) =
      truePositions (offset + index) mask := by
  induction mask generalizing index with
  | nil => rfl
  | cons trainable rest inductionHypothesis =>
    have later := inductionHypothesis (index + 1)
    rw [← Nat.add_assoc] at later
    cases trainable with
    | false => simpa [truePositions] using later
    | true => simpa [truePositions] using later

theorem true_positions_context (mask : List Bool) (index : Nat)
    (context : ∀ trainable ∈ mask, trainable = false) : truePositions index mask = [] := by
  rw [List.eq_nil_iff_forall_not_mem]
  intro position member
  have trained := ((mem_true_positions_iff mask index position).mp member).2
  exact absurd (context true (List.mem_of_getElem? trained)) Bool.noConfusion

section
variable {Scalar : Type u} (trace : Trace Scalar)

/-! ## Ownership -/

/-- The mask entries of a node in a branch, given the nodes trained before. -/
def ownedMask (trained : List (Fin trace.nodes.length)) (node : Fin trace.nodes.length) : List Bool :=
  if hasTrainable trace node && trained.contains node then
    List.replicate (trace.node node).mask.length false
  else (trace.node node).mask

/-- Along a duplicate-free path, ownership is decided by the nodes trained
before the branch, and the branch then trains all of its nodes. -/
theorem walk_branch_eq (trained : List (Fin trace.nodes.length)) (mask : List Bool)
    (nodes : List (Fin trace.nodes.length)) (distinct : nodes.Nodup) :
    (walkBranch trace trained mask nodes).1 = mask ++ nodes.flatMap (ownedMask trace trained) ∧
      ∀ node, node ∈ (walkBranch trace trained mask nodes).2 ↔
        node ∈ trained ∨ (node ∈ nodes ∧ hasTrainable trace node = true) := by
  induction nodes generalizing trained mask with
  | nil => simp [walkBranch]
  | cons node rest inductionHypothesis =>
    obtain ⟨fresh, restDistinct⟩ := List.nodup_cons.mp distinct
    by_cases shared : (hasTrainable trace node && trained.contains node) = true
    · obtain ⟨walked, collected⟩ := inductionHypothesis trained
        (mask ++ List.replicate (trace.node node).mask.length false) restDistinct
      have known : node ∈ trained := by
        rw [Bool.and_eq_true] at shared
        simpa using shared.2
      refine ⟨?_, ?_⟩
      · simp only [walkBranch, shared, if_true, walked, List.flatMap_cons, ownedMask,
          List.append_assoc]
      · intro other
        simp only [walkBranch, shared, if_true, collected, List.mem_cons]
        constructor
        · rintro (before | ⟨later, trainable⟩)
          · exact Or.inl before
          · exact Or.inr ⟨Or.inr later, trainable⟩
        · rintro (before | ⟨rfl | later, trainable⟩)
          · exact Or.inl before
          · exact Or.inl known
          · exact Or.inr ⟨later, trainable⟩
    · obtain ⟨walked, collected⟩ := inductionHypothesis
        (if hasTrainable trace node then node :: trained else trained)
        (mask ++ (trace.node node).mask) restDistinct
      have sameMask : rest.flatMap (ownedMask trace
          (if hasTrainable trace node then node :: trained else trained)) =
          rest.flatMap (ownedMask trace trained) := by
        rw [List.flatMap_def, List.flatMap_def]
        congr 1
        apply List.map_congr_left
        intro other member
        have differs : other ≠ node := fun same => fresh (same ▸ member)
        by_cases trainable : hasTrainable trace node = true
        · simp [ownedMask, trainable, differs]
        · simp [ownedMask, trainable]
      refine ⟨?_, ?_⟩
      · simp only [walkBranch, shared, Bool.false_eq_true, if_false, walked, sameMask,
          List.flatMap_cons, ownedMask, List.append_assoc]
      · intro other
        simp only [walkBranch, shared, Bool.false_eq_true, if_false, collected, List.mem_cons]
        by_cases trainable : hasTrainable trace node = true
        · simp only [trainable, if_true, List.mem_cons]
          constructor
          · rintro ((rfl | before) | ⟨later, own⟩)
            · exact Or.inr ⟨Or.inl rfl, trainable⟩
            · exact Or.inl before
            · exact Or.inr ⟨Or.inr later, own⟩
          · rintro (before | ⟨rfl | later, own⟩)
            · exact Or.inl (Or.inr before)
            · exact Or.inl (Or.inl rfl)
            · exact Or.inr ⟨later, own⟩
        · simp only [trainable, Bool.false_eq_true, if_false]
          constructor
          · rintro (before | ⟨later, own⟩)
            · exact Or.inl before
            · exact Or.inr ⟨Or.inr later, own⟩
          · rintro (before | ⟨rfl | later, own⟩)
            · exact Or.inl before
            · exact absurd own trainable
            · exact Or.inr ⟨later, own⟩

/-- A branch together with the nodes trained before it. -/
abbrev Claim := List (Fin trace.nodes.length) × Branch Scalar trace.nodes.length

/-- The mask of a branch from ownership of its nodes. -/
def claimMask (claim : Claim trace) : List Bool :=
  claim.2.nodes.flatMap (ownedMask trace claim.1)

/-- Branches in order, each with the nodes trained before it. -/
def claims (trained : List (Fin trace.nodes.length)) :
    List (Branch Scalar trace.nodes.length) → List (Claim trace)
  | [] => []
  | branch :: rest =>
      (trained, branch) :: claims (walkBranch trace trained [] branch.nodes).2 rest

/-- Claims whose branch keeps trainable tokens. -/
def owners (branches : List (Branch Scalar trace.nodes.length)) : List (Claim trace) :=
  (claims trace [] branches).filter (fun claim => (claimMask trace claim).any id)

theorem forked_branches_eq (trained : List (Fin trace.nodes.length))
    (branches : List (Branch Scalar trace.nodes.length))
    (distinct : ∀ branch ∈ branches, branch.nodes.Nodup) :
    forkedBranches trace trained branches =
      ((claims trace trained branches).filter (fun claim => (claimMask trace claim).any id)).map
        (fun claim => ⟨claim.2, claim.2.nodes, claimMask trace claim⟩) := by
  induction branches generalizing trained with
  | nil => rfl
  | cons branch rest inductionHypothesis =>
    have walked := (walk_branch_eq trace trained [] branch.nodes
      (distinct branch List.mem_cons_self)).1
    rw [List.nil_append] at walked
    have later := inductionHypothesis (walkBranch trace trained [] branch.nodes).2
      (fun other member => distinct other (List.mem_cons_of_mem _ member))
    by_cases kept : (claimMask trace (trained, branch)).any id = true
    · have keptMask : (branch.nodes.flatMap (ownedMask trace trained)).any id = true := kept
      simp only [forkedBranches, walked, keptMask, if_true, later, claims, List.filter_cons, kept,
        List.map_cons]
      rfl
    · have droppedMask : ¬ (branch.nodes.flatMap (ownedMask trace trained)).any id = true := kept
      simp only [forkedBranches, walked, droppedMask, if_false, later, claims, List.filter_cons,
        kept, Bool.false_eq_true]

/-- Nodes trained at the start stay trained for every claim. -/
theorem claims_keep (trained : List (Fin trace.nodes.length))
    (branches : List (Branch Scalar trace.nodes.length))
    (distinct : ∀ branch ∈ branches, branch.nodes.Nodup) :
    ∀ claim ∈ claims trace trained branches, ∀ node ∈ trained, node ∈ claim.1 := by
  induction branches generalizing trained with
  | nil => exact fun claim impossible => absurd impossible List.not_mem_nil
  | cons branch rest inductionHypothesis =>
    intro claim member node known
    rcases List.mem_cons.mp member with rfl | later
    · exact known
    · have collected := (walk_branch_eq trace trained [] branch.nodes
        (distinct branch List.mem_cons_self)).2 node
      exact inductionHypothesis _ (fun other listed => distinct other (List.mem_cons_of_mem _ listed))
        claim later node (collected.mpr (Or.inl known))

/-- A branch trains its nodes for all later branches. -/
theorem claims_ordered (trained : List (Fin trace.nodes.length))
    (branches : List (Branch Scalar trace.nodes.length))
    (distinct : ∀ branch ∈ branches, branch.nodes.Nodup) :
    (claims trace trained branches).Pairwise (fun first second =>
      ∀ node ∈ first.2.nodes, hasTrainable trace node = true → node ∈ second.1) := by
  induction branches generalizing trained with
  | nil => exact List.Pairwise.nil
  | cons branch rest inductionHypothesis =>
    have restDistinct : ∀ other ∈ rest, other.nodes.Nodup :=
      fun other member => distinct other (List.mem_cons_of_mem _ member)
    refine List.Pairwise.cons ?_ (inductionHypothesis _ restDistinct)
    intro claim member node onBranch trainable
    have collected := (walk_branch_eq trace trained [] branch.nodes
      (distinct branch List.mem_cons_self)).2 node
    exact claims_keep trace _ rest restDistinct claim member node
      (collected.mpr (Or.inr ⟨onBranch, trainable⟩))

/-- The first branch through a node not yet trained claims it. -/
theorem claims_first (trained : List (Fin trace.nodes.length))
    (branches : List (Branch Scalar trace.nodes.length))
    (distinct : ∀ branch ∈ branches, branch.nodes.Nodup) (node : Fin trace.nodes.length)
    (untrained : node ∉ trained) (onBranch : ∃ branch ∈ branches, node ∈ branch.nodes) :
    ∃ claim ∈ claims trace trained branches, node ∈ claim.2.nodes ∧ node ∉ claim.1 := by
  induction branches generalizing trained with
  | nil =>
    obtain ⟨branch, impossible, -⟩ := onBranch
    exact absurd impossible List.not_mem_nil
  | cons branch rest inductionHypothesis =>
    by_cases here : node ∈ branch.nodes
    · exact ⟨(trained, branch), List.mem_cons_self, here, untrained⟩
    · have collected := (walk_branch_eq trace trained [] branch.nodes
        (distinct branch List.mem_cons_self)).2 node
      obtain ⟨later, member, onLater⟩ := onBranch
      have inRest : later ∈ rest := by
        rcases List.mem_cons.mp member with rfl | inRest
        · exact absurd onLater here
        · exact inRest
      obtain ⟨claim, listed, onClaim, first⟩ := inductionHypothesis _
        (fun other listed => distinct other (List.mem_cons_of_mem _ listed))
        (fun known => (collected.mp known).elim untrained (fun own => here own.1))
        ⟨later, inRest, onLater⟩
      exact ⟨claim, List.mem_cons_of_mem _ listed, onClaim, first⟩

/-! ## Spans of one sample -/

/-- Tokens of a span in node coordinates. -/
def nodeTokens (span : TrainableSpan) : List (Nat × Nat) :=
  (List.range' span.nodeStart span.length).map (fun offset => (span.nodeIndex, offset))

/-- Tokens of a span in sample coordinates. -/
def sampleTokens (span : TrainableSpan) : List (Nat × Nat) :=
  (List.range' span.sampleStart span.length).map (fun position => (span.sampleIndex, position))

/-- The span of a run of a node that starts at an offset of a sample. -/
def spanOf (sampleIndex offset : Nat) (node : Fin trace.nodes.length) (run : Nat × Nat) :
    TrainableSpan :=
  { nodeIndex := node
    sampleIndex := sampleIndex
    nodeStart := run.1
    sampleStart := offset + run.1
    length := run.2 - run.1 }

/-- The spans of a sample from the masks of its nodes. -/
def placedSpans (sampleIndex : Nat) (maskOf : Fin trace.nodes.length → List Bool) :
    Nat → List (Fin trace.nodes.length) → List TrainableSpan
  | _, [] => []
  | offset, node :: rest =>
      (trueRuns (maskOf node)).map (spanOf trace sampleIndex offset node) ++
        placedSpans sampleIndex maskOf (offset + (maskOf node).length) rest

variable {trace}

/-- Slicing a concatenated mask recovers the masks of the nodes. -/
theorem sample_spans_eq (sampleIndex : Nat) (maskOf : Fin trace.nodes.length → List Bool)
    (aligned : ∀ node, (maskOf node).length = (trace.node node).tokenIds.length)
    (before : List Bool) (nodes : List (Fin trace.nodes.length)) :
    sampleSpans trace sampleIndex (before ++ nodes.flatMap maskOf) before.length nodes =
      placedSpans trace sampleIndex maskOf before.length nodes := by
  induction nodes generalizing before with
  | nil => rfl
  | cons node rest inductionHypothesis =>
    have later := inductionHypothesis (before ++ maskOf node)
    rw [List.length_append, List.append_assoc] at later
    have slice : ((before ++ (maskOf node ++ rest.flatMap maskOf)).drop before.length).take
        (maskOf node).length = maskOf node := by
      rw [List.drop_left, List.take_left]
    simp only [sampleSpans, List.flatMap_cons, ← aligned node, slice, later, placedSpans]
    rfl

theorem run_spans_node (sampleIndex offset : Nat) (node : Fin trace.nodes.length) (mask : List Bool) :
    ((trueRuns mask).map (spanOf trace sampleIndex offset node)).flatMap nodeTokens =
      (truePositions 0 mask).map (fun position => (node.val, position)) := by
  rw [← true_runs_positions, List.map_flatMap, List.flatMap_map]
  rfl

theorem run_spans_sample (sampleIndex offset : Nat) (node : Fin trace.nodes.length)
    (mask : List Bool) :
    ((trueRuns mask).map (spanOf trace sampleIndex offset node)).flatMap sampleTokens =
      (truePositions offset mask).map (fun position => (sampleIndex, position)) := by
  have shifted := true_positions_shift mask 0 offset
  rw [Nat.add_zero] at shifted
  rw [← shifted, ← true_runs_positions, List.map_flatMap, List.map_flatMap, List.flatMap_map]
  rw [List.flatMap_def, List.flatMap_def]
  congr 1
  apply List.map_congr_left
  intro run _
  simp only [sampleTokens, spanOf, runPositions, List.map_map, ← List.map_add_range']

/-- The spans of a sample cover the true positions of its mask, in order. -/
theorem placed_spans_sample (sampleIndex : Nat) (maskOf : Fin trace.nodes.length → List Bool)
    (offset : Nat) (nodes : List (Fin trace.nodes.length)) :
    (placedSpans trace sampleIndex maskOf offset nodes).flatMap sampleTokens =
      (truePositions offset (nodes.flatMap maskOf)).map (fun position => (sampleIndex, position)) := by
  induction nodes generalizing offset with
  | nil => rfl
  | cons node rest inductionHypothesis =>
    rw [placedSpans, List.flatMap_append, run_spans_sample, inductionHypothesis, List.flatMap_cons,
      true_positions_append, List.map_append]

/-- The spans of a sample that belong to a node cover the node's true positions. -/
theorem placed_spans_node (sampleIndex : Nat) (maskOf : Fin trace.nodes.length → List Bool)
    (offset : Nat) (nodes : List (Fin trace.nodes.length)) (distinct : nodes.Nodup)
    (node : Fin trace.nodes.length) :
    ((placedSpans trace sampleIndex maskOf offset nodes).filter
        (fun span => span.nodeIndex = node.val)).flatMap nodeTokens =
      if node ∈ nodes then (truePositions 0 (maskOf node)).map (fun position => (node.val, position))
      else [] := by
  induction nodes generalizing offset with
  | nil => rfl
  | cons first rest inductionHypothesis =>
    obtain ⟨fresh, restDistinct⟩ := List.nodup_cons.mp distinct
    have later := inductionHypothesis (offset + (maskOf first).length) restDistinct
    rw [placedSpans, List.filter_append, List.flatMap_append, later]
    by_cases here : node = first
    · subst here
      have all : ((trueRuns (maskOf node)).map (spanOf trace sampleIndex offset node)).filter
          (fun span => span.nodeIndex = node.val) =
          (trueRuns (maskOf node)).map (spanOf trace sampleIndex offset node) := by
        rw [List.filter_eq_self]
        intro span member
        obtain ⟨run, -, rfl⟩ := List.mem_map.mp member
        exact decide_eq_true rfl
      rw [all, run_spans_node, if_neg fresh, List.append_nil, if_pos List.mem_cons_self]
    · have none : ((trueRuns (maskOf first)).map (spanOf trace sampleIndex offset first)).filter
          (fun span => span.nodeIndex = node.val) = [] := by
        rw [List.filter_eq_nil_iff]
        intro span member
        obtain ⟨run, -, rfl⟩ := List.mem_map.mp member
        rw [decide_eq_true_eq]
        exact fun same => here (Fin.ext same.symm)
      rw [none, List.flatMap_nil, List.nil_append]
      simp only [List.mem_cons, here, false_or]

/-- A span names the same run in its node and, behind the nodes before, in the
sample. -/
theorem placed_span_cases (sampleIndex : Nat) (maskOf : Fin trace.nodes.length → List Bool)
    (offset : Nat) (nodes : List (Fin trace.nodes.length)) (span : TrainableSpan)
    (listed : span ∈ placedSpans trace sampleIndex maskOf offset nodes) :
    ∃ before node after run, nodes = before ++ node :: after ∧ run ∈ trueRuns (maskOf node) ∧
      span = spanOf trace sampleIndex (offset + (before.flatMap maskOf).length) node run := by
  induction nodes generalizing offset with
  | nil => exact absurd listed List.not_mem_nil
  | cons first rest inductionHypothesis =>
    rw [placedSpans] at listed
    rcases List.mem_append.mp listed with here | later
    · obtain ⟨run, member, rfl⟩ := List.mem_map.mp here
      exact ⟨[], first, rest, run, rfl, member, rfl⟩
    · obtain ⟨before, node, after, run, rfl, member, rfl⟩ := inductionHypothesis _ later
      refine ⟨first :: before, node, after, run, rfl, member, ?_⟩
      rw [List.flatMap_cons, List.length_append, Nat.add_assoc]

/-- A run lies inside its mask and holds true entries only. -/
theorem true_run_slice (mask : List Bool) (run : Nat × Nat) (listed : run ∈ trueRuns mask) :
    (mask.drop run.1).take (run.2 - run.1) = List.replicate (run.2 - run.1) true := by
  have inside : ∀ position ∈ runPositions run, mask[position]? = some true := by
    intro position member
    have covered := List.mem_flatMap.mpr ⟨run, listed, member⟩
    rw [true_runs_positions, mem_true_positions_iff] at covered
    exact covered.2
  apply List.ext_getElem?
  intro index
  rw [List.getElem?_take, List.getElem?_drop, List.getElem?_replicate]
  by_cases within : index < run.2 - run.1
  · rw [if_pos within, if_pos within]
    refine inside (run.1 + index) ?_
    rw [runPositions, List.mem_range'_1]
    omega
  · rw [if_neg within, if_neg within]

end

section
variable {Scalar : Type u} {trace : Trace Scalar}

/-! ## The whole trace -/

/-- A trace with several branches that are duplicate-free node paths, whose
unsampled nodes train nothing. -/
structure Forked (trace : Trace Scalar) : Prop where
  flat : trace.Flat
  several : 2 ≤ trace.branches.length
  paths : ∀ branch ∈ trace.branches, branch.nodes.Nodup
  context : ∀ node, (trace.node node).sampled = false →
    ∀ trainable ∈ (trace.node node).mask, trainable = false

theorem claims_branch (trained : List (Fin trace.nodes.length))
    (branches : List (Branch Scalar trace.nodes.length)) :
    ∀ claim ∈ claims trace trained branches, claim.2 ∈ branches := by
  induction branches generalizing trained with
  | nil => exact fun claim impossible => absurd impossible List.not_mem_nil
  | cons branch rest inductionHypothesis =>
    intro claim member
    rcases List.mem_cons.mp member with rfl | later
    · exact List.mem_cons_self
    · exact List.mem_cons_of_mem _ (inductionHypothesis _ claim later)

theorem owners_branch {claim : Claim trace} (listed : claim ∈ owners trace trace.branches) :
    claim.2 ∈ trace.branches :=
  claims_branch [] trace.branches claim (List.mem_filter.mp listed).1

theorem owned_mask_length (flat : trace.Flat) (trained : List (Fin trace.nodes.length))
    (node : Fin trace.nodes.length) :
    (ownedMask trace trained node).length = (trace.node node).tokenIds.length := by
  rw [← flat.aligned, ownedMask]
  by_cases shared : (hasTrainable trace node && trained.contains node) = true
  · rw [if_pos shared, List.length_replicate]
  · rw [if_neg shared]

/-- A node already trained is context; otherwise it keeps its own mask. -/
theorem owned_mask_cases (trained : List (Fin trace.nodes.length)) (node : Fin trace.nodes.length)
    (trainable : hasTrainable trace node = true) :
    (node ∈ trained → ownedMask trace trained node =
      List.replicate (trace.node node).mask.length false) ∧
      (node ∉ trained → ownedMask trace trained node = (trace.node node).mask) := by
  constructor
  · intro known
    simp [ownedMask, trainable, known]
  · intro fresh
    simp [ownedMask, trainable, fresh]

/-- A trainable node on some branch is owned by exactly one sample. -/
theorem unique_owner (forked : Forked trace) (node : Fin trace.nodes.length)
    (trainable : hasTrainable trace node = true)
    (onBranch : ∃ branch ∈ trace.branches, node ∈ branch.nodes) :
    ∃ before claim after, owners trace trace.branches = before ++ claim :: after ∧
      node ∈ claim.2.nodes ∧ node ∉ claim.1 ∧
      ∀ other ∈ before ++ after, node ∈ other.2.nodes → node ∈ other.1 := by
  obtain ⟨claim, listed, onClaim, fresh⟩ := claims_first trace [] trace.branches forked.paths node
    List.not_mem_nil onBranch
  have kept : claim ∈ owners trace trace.branches := by
    refine List.mem_filter.mpr ⟨listed, ?_⟩
    have ownMask := (owned_mask_cases claim.1 node trainable).2 fresh
    rw [hasTrainable, Bool.and_eq_true, List.any_eq_true] at trainable
    obtain ⟨entry, member, trained⟩ := trainable.2
    refine List.any_eq_true.mpr ⟨entry, ?_, trained⟩
    exact List.mem_flatMap.mpr ⟨node, onClaim, ownMask ▸ member⟩
  have ordered := (claims_ordered trace [] trace.branches forked.paths).filter
    (fun claim => (claimMask trace claim).any id)
  obtain ⟨before, after, split⟩ := List.append_of_mem kept
  change List.Pairwise _ (owners trace trace.branches) at ordered
  rw [split, List.pairwise_append] at ordered
  obtain ⟨-, rest, across⟩ := ordered
  refine ⟨before, claim, after, split, onClaim, fresh, ?_⟩
  intro other member onOther
  rcases List.mem_append.mp member with earlier | later
  · exact absurd (across other earlier claim List.mem_cons_self node onOther trainable) fresh
  · exact (List.pairwise_cons.mp rest).1 other later node onClaim trainable

/-- The samples of a forked trace are its owners. -/
theorem iter_trainable_branches_eq (forked : Forked trace) :
    iterTrainableBranches trace trace.branches =
      (owners trace trace.branches).map
        (fun claim => ⟨claim.2, claim.2.nodes, claimMask trace claim⟩) := by
  have forkedCase (branches : List (Branch Scalar trace.nodes.length)) (several : 2 ≤ branches.length) :
      iterTrainableBranches trace branches = forkedBranches trace [] branches := by
    match branches, several with
    | first :: second :: rest, _ => rfl
  rw [forkedCase trace.branches forked.several,
    forked_branches_eq trace [] trace.branches forked.paths]
  rfl

/-- The spans of all samples, in sample and path order. -/
def allSpans (trace : Trace Scalar) : List TrainableSpan :=
  (owners trace trace.branches).zipIdx.flatMap (fun owner =>
    placedSpans trace owner.2 (ownedMask trace owner.1.1) 0 owner.1.2.nodes)

theorem all_spans_cases (span : TrainableSpan) (listed : span ∈ allSpans trace) :
    ∃ claim before node after run, (owners trace trace.branches)[span.sampleIndex]? = some claim ∧
      claim.2.nodes = before ++ node :: after ∧ run ∈ trueRuns (ownedMask trace claim.1 node) ∧
      span = spanOf trace span.sampleIndex (before.flatMap (ownedMask trace claim.1)).length node run := by
  obtain ⟨⟨claim, index⟩, member, placed⟩ := List.mem_flatMap.mp listed
  obtain ⟨before, node, after, run, split, isRun, same⟩ := placed_span_cases _ _ _ _ _ placed
  rw [Nat.zero_add] at same
  have position := List.mem_zipIdx_iff_getElem?.mp member
  subst same
  exact ⟨claim, before, node, after, run, position, split, isRun, rfl⟩

/-- The layout groups the spans of the samples by node. -/
theorem layout_spans (forked : Forked trace) :
    (trainingLayout trace (iterTrainableBranches trace trace.branches)).trainableSpans =
        (List.range trace.nodes.length).flatMap
          (fun node => (allSpans trace).filter (fun span => span.nodeIndex = node)) ∧
      (trainingLayout trace (iterTrainableBranches trace trace.branches)).trainableSpans.Perm
        (allSpans trace) := by
  have collected : (iterTrainableBranches trace trace.branches).zipIdx.flatMap (fun item =>
      sampleSpans trace item.2 item.1.mask 0 item.1.nodeIndices) = allSpans trace := by
    rw [iter_trainable_branches_eq forked, List.zipIdx_map, List.flatMap_map, allSpans,
      List.flatMap_def, List.flatMap_def]
    congr 1
    apply List.map_congr_left
    intro owner _
    have slices := sample_spans_eq owner.2 (ownedMask trace owner.1.1)
      (owned_mask_length forked.flat owner.1.1) [] owner.1.2.nodes
    rw [List.nil_append, List.length_nil] at slices
    exact slices
  have inside : ∀ span ∈ allSpans trace, span.nodeIndex < trace.nodes.length := by
    intro span listed
    obtain ⟨claim, before, node, after, run, -, -, -, same⟩ := all_spans_cases span listed
    rw [same]
    exact node.isLt
  simp only [trainingLayout, collected, spansByNode]
  refine ⟨?_, ?_⟩
  · rw [Buckets.collect_flatten]
    simp only [List.map_id]
  · have rearranged := Buckets.collect_perm trace.nodes.length TrainableSpan.nodeIndex id
      (allSpans trace) inside
    rwa [List.map_id] at rearranged

/-- The tokens of a node that lies on some branch. -/
noncomputable def trainedTokens (trace : Trace Scalar) (node : Fin trace.nodes.length) :
    List (Nat × Nat) :=
  open Classical in
  if ∃ branch ∈ trace.branches, node ∈ branch.nodes then
    (truePositions 0 (trace.node node).mask).map (fun offset => (node.val, offset))
  else []

/-- The spans of a node cover its trainable tokens once, in order. -/
theorem node_spans (forked : Forked trace) (node : Fin trace.nodes.length) :
    ((allSpans trace).filter (fun span => span.nodeIndex = node.val)).flatMap nodeTokens =
      trainedTokens trace node := by
  have perClaim : ((allSpans trace).filter (fun span => span.nodeIndex = node.val)).flatMap
      nodeTokens = (owners trace trace.branches).flatMap (fun claim =>
        if node ∈ claim.2.nodes then
          (truePositions 0 (ownedMask trace claim.1 node)).map (fun offset => (node.val, offset))
        else []) := by
    rw [allSpans, List.filter_flatMap, List.flatMap_assoc]
    conv_rhs => rw [← List.zipIdx_map_fst 0 (owners trace trace.branches), List.flatMap_map]
    rw [List.flatMap_def, List.flatMap_def]
    congr 1
    apply List.map_congr_left
    intro owner member
    have listed : owner.1 ∈ owners trace trace.branches :=
      List.mem_of_getElem? (List.mem_zipIdx_iff_getElem?.mp member)
    exact placed_spans_node owner.2 _ 0 owner.1.2.nodes (forked.paths _ (owners_branch listed)) node
  rw [perClaim, trainedTokens]
  by_cases trainable : hasTrainable trace node = true
  · by_cases onBranch : ∃ branch ∈ trace.branches, node ∈ branch.nodes
    · obtain ⟨before, claim, after, split, onClaim, fresh, others⟩ :=
        unique_owner forked node trainable onBranch
      have silent : ∀ other ∈ before ++ after, (if node ∈ other.2.nodes then
          (truePositions 0 (ownedMask trace other.1 node)).map (fun offset => (node.val, offset))
          else []) = [] := by
        intro other member
        by_cases onOther : node ∈ other.2.nodes
        · rw [if_pos onOther, (owned_mask_cases other.1 node trainable).1
            (others other member onOther), true_positions_context _ 0
            (fun entry listed => List.eq_of_mem_replicate listed), List.map_nil]
        · rw [if_neg onOther]
      have silentBefore := List.flatMap_eq_nil_iff.mpr
        (fun other member => silent other (List.mem_append_left _ member))
      have silentAfter := List.flatMap_eq_nil_iff.mpr
        (fun other member => silent other (List.mem_append_right _ member))
      rw [split, List.flatMap_append, List.flatMap_cons, silentBefore, silentAfter, if_pos onClaim,
        (owned_mask_cases claim.1 node trainable).2 fresh, List.append_nil, List.nil_append,
        if_pos onBranch]
    · rw [if_neg onBranch, List.flatMap_eq_nil_iff]
      intro claim member
      rw [if_neg (fun onClaim => onBranch ⟨claim.2, owners_branch member, onClaim⟩)]
  · have context : ∀ entry ∈ (trace.node node).mask, entry = false := by
      by_cases sampled : (trace.node node).sampled = true
      · rw [hasTrainable, sampled, Bool.true_and, Bool.not_eq_true, List.any_eq_false] at trainable
        intro entry member
        simpa using trainable entry member
      · exact forked.context node (by simpa using sampled)
    have own (trained : List (Fin trace.nodes.length)) :
        ownedMask trace trained node = (trace.node node).mask := by
      simp [ownedMask, trainable]
    simp only [own, true_positions_context _ 0 context, List.map_nil, ite_self]
    rw [List.flatMap_eq_nil_iff]
    exact fun _ _ => rfl

/-! ## Masks and spans agree -/

/-- The mask entries of a sample, each with its node and offset. -/
def entries (trace : Trace Scalar) (sampleNodes : List Nat) (mask : List Bool) :
    List ((Nat × Nat) × Bool) :=
  (sampleNodes.flatMap (fun node =>
    (List.range ((trace.nodes[node]?).elim 0 (fun message => message.tokenIds.length))).map
      (fun offset => (node, offset)))).zip mask

/-- Entries of a sample are those of its nodes. -/
theorem mem_entries_iff (nodes : List (Fin trace.nodes.length))
    (maskOf : Fin trace.nodes.length → List Bool)
    (aligned : ∀ node, (maskOf node).length = (trace.node node).tokenIds.length)
    (node : Fin trace.nodes.length) (offset : Nat) (trainable : Bool) :
    ((node.val, offset), trainable) ∈ entries trace (nodes.map Fin.val) (nodes.flatMap maskOf) ↔
      node ∈ nodes ∧ (maskOf node)[offset]? = some trainable := by
  induction nodes with
  | nil => simp [entries]
  | cons first rest inductionHypothesis =>
    have width : ((trace.nodes[first.val]?).elim 0 (fun message => message.tokenIds.length)) =
        (maskOf first).length := by
      rw [aligned, List.getElem?_eq_getElem first.isLt]
      rfl
    have split : entries trace ((first :: rest).map Fin.val) ((first :: rest).flatMap maskOf) =
        ((List.range (maskOf first).length).map (fun offset => (first.val, offset))).zip
          (maskOf first) ++ entries trace (rest.map Fin.val) (rest.flatMap maskOf) := by
      rw [entries, List.map_cons, List.flatMap_cons, List.flatMap_cons, width,
        List.zip_append (by simp)]
      rfl
    have own : ((node.val, offset), trainable) ∈
        ((List.range (maskOf first).length).map (fun offset => (first.val, offset))).zip
          (maskOf first) ↔ node = first ∧ (maskOf first)[offset]? = some trainable := by
      rw [List.mem_iff_getElem?]
      simp only [List.getElem?_zip_eq_some, List.getElem?_map]
      constructor
      · rintro ⟨position, named, entry⟩
        have inside : position < (maskOf first).length := by
          rw [List.getElem?_eq_some_iff] at entry
          exact entry.1
        simp only [List.getElem?_range inside, Option.map_some, Option.some.injEq,
          Prod.mk.injEq] at named
        exact ⟨Fin.ext named.1.symm, named.2 ▸ entry⟩
      · rintro ⟨rfl, entry⟩
        have inside : offset < (maskOf node).length := by
          rw [List.getElem?_eq_some_iff] at entry
          exact entry.1
        exact ⟨offset, by simp [List.getElem?_range inside], entry⟩
    rw [split, List.mem_append, own, inductionHypothesis, List.mem_cons]
    constructor
    · rintro (⟨rfl, entry⟩ | ⟨later, entry⟩)
      · exact ⟨Or.inl rfl, entry⟩
      · exact ⟨Or.inr later, entry⟩
    · rintro ⟨rfl | later, entry⟩
      · exact Or.inl ⟨rfl, entry⟩
      · exact Or.inr ⟨later, entry⟩

/-- In sample coordinates the spans cover the true positions of every mask once. -/
theorem sample_spans_positions (forked : Forked trace) :
    ((trainingLayout trace (iterTrainableBranches trace trace.branches)).trainableSpans.flatMap
        sampleTokens).Nodup ∧
      ∀ sampleIndex position, (sampleIndex, position) ∈
        (trainingLayout trace (iterTrainableBranches trace trace.branches)).trainableSpans.flatMap
          sampleTokens ↔
        ∃ claim, (owners trace trace.branches)[sampleIndex]? = some claim ∧
          (claimMask trace claim)[position]? = some true := by
  have rearranged := (layout_spans forked).2.flatMap_right sampleTokens
  have closed : (allSpans trace).flatMap sampleTokens =
      (owners trace trace.branches).zipIdx.flatMap (fun owner =>
        (truePositions 0 (claimMask trace owner.1)).map (fun position => (owner.2, position))) := by
    rw [allSpans, List.flatMap_assoc, List.flatMap_def, List.flatMap_def]
    congr 1
    apply List.map_congr_left
    intro owner _
    exact placed_spans_sample owner.2 _ 0 owner.1.2.nodes
  refine ⟨?_, ?_⟩
  · rw [rearranged.nodup_iff, closed, List.nodup_flatMap]
    refine ⟨?_, ?_⟩
    · intro owner _
      refine List.Nodup.map (fun first second same => (Prod.mk.inj same).2) ?_
      exact (true_positions_increasing _ 0).imp (fun below => Nat.ne_of_lt below)
    · have indices : ((owners trace trace.branches).zipIdx.map Prod.snd).Nodup := by
        rw [List.zipIdx_map_snd]
        exact List.nodup_range'
      refine (List.pairwise_map.mp indices).imp ?_
      intro first second differs
      simp only [Function.onFun]
      rw [List.disjoint_left]
      intro token inFirst inSecond
      obtain ⟨position, -, rfl⟩ := List.mem_map.mp inFirst
      obtain ⟨other, -, same⟩ := List.mem_map.mp inSecond
      exact differs (Prod.mk.inj same).1.symm
  · intro sampleIndex position
    rw [rearranged.mem_iff, closed, List.mem_flatMap]
    constructor
    · rintro ⟨⟨claim, index⟩, listed, covered⟩
      obtain ⟨covering, trained, same⟩ := List.mem_map.mp covered
      obtain ⟨rfl, rfl⟩ := Prod.mk.inj same
      exact ⟨claim, List.mem_zipIdx_iff_getElem?.mp listed,
        ((mem_true_positions_iff _ 0 _).mp trained).2⟩
    · rintro ⟨claim, listed, trained⟩
      refine ⟨(claim, sampleIndex), List.mem_zipIdx_iff_getElem?.mpr listed, ?_⟩
      refine List.mem_map.mpr ⟨position, ?_, rfl⟩
      exact (mem_true_positions_iff _ 0 _).mpr ⟨Nat.zero_le _, trained⟩

/-! ## The partition -/

/-- A sample holds a token of a node with the given mask entry. -/
def Carries (trace : Trace Scalar) (result : TrainingMaterialization Scalar)
    (layout : TrainingLayout) (sampleIndex : Nat) (token : Nat × Nat) (trainable : Bool) : Prop :=
  ∃ nodes sample, layout.sampleNodeIndices[sampleIndex]? = some nodes ∧
    result.samples[sampleIndex]? = some sample ∧ (token, trainable) ∈ entries trace nodes sample.mask

/-- A token the trace trains: a true mask entry of a sampled node on a branch. -/
def Trained (trace : Trace Scalar) (node : Fin trace.nodes.length) (offset : Nat) : Prop :=
  (trace.node node).sampled = true ∧ (trace.node node).mask[offset]? = some true ∧
    ∃ branch ∈ trace.branches, node ∈ branch.nodes

theorem trained_trainable {node : Fin trace.nodes.length} {offset : Nat}
    (trained : Trained trace node offset) : hasTrainable trace node = true := by
  rw [hasTrainable, trained.1, Bool.true_and]
  exact List.any_eq_true.mpr ⟨true, List.mem_of_getElem? trained.2.1, rfl⟩

/-- Samples and layout of a forked trace, one entry for each owner. -/
theorem materialized_eq (forked : Forked trace) (envName : String)
    (captureSampledMasks capturePolicyVersions : Bool) (result : TrainingMaterialization Scalar)
    (materialized : materializeTrainingData trace envName captureSampledMasks
      capturePolicyVersions = .ok result) :
    result.layout = some (trainingLayout trace (iterTrainableBranches trace trace.branches)) ∧
      result.samples = (owners trace trace.branches).map (fun claim =>
        branchSample trace envName capturePolicyVersions
          ⟨claim.2, claim.2.nodes, claimMask trace claim⟩) := by
  have several : 1 < trace.branches.length := forked.several
  rw [materializeTrainingData] at materialized
  cases validated : validateTrainingTrace trace with
  | error message =>
    rw [validated] at materialized
    exact absurd materialized nofun
  | ok admitted =>
    rw [validated] at materialized
    simp only [several, if_true] at materialized
    by_cases media : (iterTrainableBranches trace trace.branches).any (fun item =>
        !trace.mmTokenTypeIdMap.isEmpty ||
          (item.branch.mmTokenTypeIds.getD []).any (fun kind => decide (kind ≠ 0))) = true
    · rw [if_pos media] at materialized
      exact absurd materialized nofun
    · rw [if_neg media] at materialized
      cases materialized
      refine ⟨rfl, ?_⟩
      simp only [iter_trainable_branches_eq forked, List.map_map]
      rfl

/-- The layout lists the node path of every owner. -/
theorem layout_nodes (forked : Forked trace) :
    (trainingLayout trace (iterTrainableBranches trace trace.branches)).sampleNodeIndices =
      (owners trace trace.branches).map (fun claim => claim.2.nodes.map Fin.val) := by
  have listed : (trainingLayout trace
      (iterTrainableBranches trace trace.branches)).sampleNodeIndices =
      (iterTrainableBranches trace trace.branches).map
        (fun item => item.nodeIndices.map Fin.val) := rfl
  rw [listed, iter_trainable_branches_eq forked, List.map_map]
  rfl

/-- What a sample carries for a node is the owned mask of its claim. -/
theorem carries_iff (forked : Forked trace) (result : TrainingMaterialization Scalar)
    (envName : String) (capturePolicyVersions : Bool)
    (samples : result.samples = (owners trace trace.branches).map (fun claim =>
      branchSample trace envName capturePolicyVersions
        ⟨claim.2, claim.2.nodes, claimMask trace claim⟩))
    (sampleIndex : Nat) (node : Fin trace.nodes.length) (offset : Nat) (trainable : Bool) :
    Carries trace result (trainingLayout trace (iterTrainableBranches trace trace.branches))
        sampleIndex (node.val, offset) trainable ↔
      ∃ claim, (owners trace trace.branches)[sampleIndex]? = some claim ∧ node ∈ claim.2.nodes ∧
        (ownedMask trace claim.1 node)[offset]? = some trainable := by
  rw [Carries, layout_nodes forked, samples]
  simp only [List.getElem?_map, Option.map_eq_some_iff]
  constructor
  · rintro ⟨nodes, sample, ⟨claim, listed, rfl⟩, ⟨other, alsoListed, rfl⟩, entry⟩
    obtain rfl := Option.some.inj (listed.symm.trans alsoListed)
    refine ⟨claim, listed, ?_⟩
    exact (mem_entries_iff claim.2.nodes _ (owned_mask_length forked.flat claim.1) node offset
      trainable).mp entry
  · rintro ⟨claim, listed, entry⟩
    refine ⟨_, _, ⟨claim, listed, rfl⟩, ⟨claim, listed, rfl⟩, ?_⟩
    exact (mem_entries_iff claim.2.nodes _ (owned_mask_length forked.flat claim.1) node offset
      trainable).mpr entry

/-- Every trained token is true in exactly one sample and context in every other
sample through its node. -/
theorem owned_once (forked : Forked trace) (result : TrainingMaterialization Scalar)
    (envName : String) (capturePolicyVersions : Bool)
    (samples : result.samples = (owners trace trace.branches).map (fun claim =>
      branchSample trace envName capturePolicyVersions
        ⟨claim.2, claim.2.nodes, claimMask trace claim⟩))
    (node : Fin trace.nodes.length) (offset : Nat) (trained : Trained trace node offset) :
    ∃ owner, Carries trace result
        (trainingLayout trace (iterTrainableBranches trace trace.branches)) owner
        (node.val, offset) true ∧
      ∀ other, other ≠ owner →
        ¬ Carries trace result (trainingLayout trace (iterTrainableBranches trace trace.branches))
          other (node.val, offset) true ∧
        ∀ nodes, (trainingLayout trace
            (iterTrainableBranches trace trace.branches)).sampleNodeIndices[other]? = some nodes →
          node.val ∈ nodes →
          Carries trace result (trainingLayout trace (iterTrainableBranches trace trace.branches))
            other (node.val, offset) false := by
  have trainable := trained_trainable trained
  obtain ⟨before, claim, after, split, onClaim, fresh, others⟩ :=
    unique_owner forked node trainable trained.2.2
  have ownMask := (owned_mask_cases claim.1 node trainable).2 fresh
  have context : ∀ other sharing, other ≠ before.length →
      (owners trace trace.branches)[other]? = some sharing → node ∈ sharing.2.nodes →
      (ownedMask trace sharing.1 node)[offset]? = some false := by
    intro other sharing differs listed onSharing
    have elsewhere : sharing ∈ before ++ after := by
      rw [split] at listed
      rcases Nat.lt_trichotomy other before.length with earlier | same | later
      · rw [List.getElem?_append_left earlier] at listed
        exact List.mem_append_left _ (List.mem_of_getElem? listed)
      · exact absurd same differs
      · rw [List.getElem?_append_right (Nat.le_of_lt later)] at listed
        obtain ⟨distance, reached⟩ := Nat.exists_eq_add_of_lt later
        have past : other - before.length = distance + 1 := by omega
        rw [past, List.getElem?_cons_succ] at listed
        exact List.mem_append_right _ (List.mem_of_getElem? listed)
    rw [(owned_mask_cases sharing.1 node trainable).1 (others sharing elsewhere onSharing)]
    have inside := (List.getElem?_eq_some_iff.mp trained.2.1).1
    rw [List.getElem?_replicate, if_pos inside]
  have position : (owners trace trace.branches)[before.length]? = some claim := by
    rw [split, List.getElem?_append_right (Nat.le_refl _), Nat.sub_self, List.getElem?_cons_zero]
  refine ⟨before.length, ?_, ?_⟩
  · refine (carries_iff forked result envName capturePolicyVersions samples _ node offset true).mpr ?_
    exact ⟨claim, position, onClaim, ownMask ▸ trained.2.1⟩
  · intro other differs
    refine ⟨?_, ?_⟩
    · intro carried
      obtain ⟨sharing, listed, onSharing, entry⟩ :=
        (carries_iff forked result envName capturePolicyVersions samples _ node offset true).mp carried
      have asContext := context other sharing differs listed onSharing
      exact absurd (Option.some.inj (entry.symm.trans asContext)) Bool.noConfusion
    · intro nodes named onNodes
      rw [layout_nodes forked, List.getElem?_map, Option.map_eq_some_iff] at named
      obtain ⟨sharing, listed, rfl⟩ := named
      obtain ⟨shared, onSharing, same⟩ := List.mem_map.mp onNodes
      obtain rfl := Fin.ext same
      refine (carries_iff forked result envName capturePolicyVersions samples _ shared offset
        false).mpr ?_
      exact ⟨sharing, listed, onSharing, context other sharing differs listed onSharing⟩

/-- Lexicographic order of node creation index and offset. -/
def Earlier (first second : Nat × Nat) : Prop :=
  first.1 < second.1 ∨ (first.1 = second.1 ∧ first.2 < second.2)

/-- In node coordinates the spans list the trained tokens in creation order. -/
theorem node_spans_trained (forked : Forked trace) :
    ((trainingLayout trace (iterTrainableBranches trace trace.branches)).trainableSpans.flatMap
        nodeTokens).Pairwise Earlier ∧
      ∀ node offset, (node, offset) ∈
        (trainingLayout trace (iterTrainableBranches trace trace.branches)).trainableSpans.flatMap
          nodeTokens ↔
        ∃ inside : node < trace.nodes.length, Trained trace ⟨node, inside⟩ offset := by
  have closed : (trainingLayout trace
      (iterTrainableBranches trace trace.branches)).trainableSpans.flatMap nodeTokens =
      (List.finRange trace.nodes.length).flatMap (trainedTokens trace) := by
    rw [(layout_spans forked).1, List.flatMap_assoc, ← List.map_coe_finRange_eq_range,
      List.flatMap_map, List.flatMap_def, List.flatMap_def]
    congr 1
    apply List.map_congr_left
    intro node _
    exact node_spans forked node
  have ownNode : ∀ node, ∀ token ∈ trainedTokens trace node, token.1 = node.val := by
    intro node token member
    rw [trainedTokens] at member
    split_ifs at member with onBranch
    · obtain ⟨offset, -, rfl⟩ := List.mem_map.mp member
      rfl
    · exact absurd member List.not_mem_nil
  rw [closed]
  refine ⟨?_, ?_⟩
  · rw [List.pairwise_flatMap]
    refine ⟨?_, ?_⟩
    · intro node _
      rw [trainedTokens]
      split_ifs with onBranch
      · exact List.pairwise_map.mpr
          ((true_positions_increasing _ 0).imp (fun below => Or.inr ⟨rfl, below⟩))
      · exact List.Pairwise.nil
    · refine (List.pairwise_lt_finRange _).imp ?_
      intro first second below token inFirst other inSecond
      left
      rw [ownNode first token inFirst, ownNode second other inSecond]
      exact below
  · intro node offset
    rw [List.mem_flatMap]
    constructor
    · rintro ⟨owner, -, member⟩
      have same := ownNode owner _ member
      simp only at same
      subst same
      rw [trainedTokens] at member
      split_ifs at member with onBranch
      · obtain ⟨position, covered, same⟩ := List.mem_map.mp member
        obtain rfl := (Prod.mk.inj same).2
        have entry := ((mem_true_positions_iff _ 0 _).mp covered).2
        refine ⟨owner.isLt, ?_, entry, onBranch⟩
        by_contra unsampled
        have context := forked.context owner (by simpa using unsampled) true
          (List.mem_of_getElem? entry)
        exact absurd context Bool.noConfusion
      · exact absurd member List.not_mem_nil
    · rintro ⟨inside, sampled, entry, onBranch⟩
      refine ⟨⟨node, inside⟩, List.mem_finRange _, ?_⟩
      rw [trainedTokens, if_pos onBranch]
      exact List.mem_map.mpr ⟨offset,
        (mem_true_positions_iff _ 0 _).mpr ⟨Nat.zero_le _, entry⟩, rfl⟩

/-- A span names the same tokens in its node and in its sample, all trained. -/
theorem span_tokens (forked : Forked trace) (envName : String) (capturePolicyVersions : Bool)
    (span : TrainableSpan) (listed : span ∈ allSpans trace) :
    ∃ claim node, (owners trace trace.branches)[span.sampleIndex]? = some claim ∧
      node.val = span.nodeIndex ∧
      ((branchSample trace envName capturePolicyVersions
          ⟨claim.2, claim.2.nodes, claimMask trace claim⟩).tokenIds.drop span.sampleStart).take
          span.length =
        ((trace.node node).tokenIds.drop span.nodeStart).take span.length ∧
      ((branchSample trace envName capturePolicyVersions
          ⟨claim.2, claim.2.nodes, claimMask trace claim⟩).mask.drop span.sampleStart).take
          span.length = List.replicate span.length true := by
  obtain ⟨claim, before, node, after, run, position, split, isRun, same⟩ := all_spans_cases span listed
  have onBranch := owners_branch (List.mem_of_getElem? position)
  have width : (before.flatMap (ownedMask trace claim.1)).length =
      (before.flatMap (fun node => (trace.node node).tokenIds)).length := by
    rw [List.length_flatMap, List.length_flatMap]
    congr 1
    exact List.map_congr_left (fun node _ => owned_mask_length forked.flat claim.1 node)
  have within : run.1 + (run.2 - run.1) ≤ (ownedMask trace claim.1 node).length ∨
      run.2 - run.1 = 0 := by
    have slice := congrArg List.length (true_run_slice _ run isRun)
    rw [List.length_take, List.length_drop, List.length_replicate] at slice
    omega
  refine ⟨claim, node, position, by rw [same]; rfl, ?_, ?_⟩
  · have tokens : claim.2.tokenIds = before.flatMap (fun node => (trace.node node).tokenIds) ++
        ((trace.node node).tokenIds ++ after.flatMap (fun node => (trace.node node).tokenIds)) := by
      rw [forked.flat.tokens claim.2 onBranch, split, List.flatMap_append, List.flatMap_cons]
    rw [same]
    simp only [branchSample, spanOf, tokens]
    rw [width, List.drop_append, List.drop_eq_nil_of_le (Nat.le_add_right _ _), List.nil_append,
      Nat.add_sub_cancel_left]
    rcases within with inside | empty
    · rw [owned_mask_length forked.flat] at inside
      rw [List.drop_append_of_le_length (by omega), List.take_append_of_le_length]
      rw [List.length_drop]
      omega
    · rw [empty, List.take_zero, List.take_zero]
  · have masks : claimMask trace claim = before.flatMap (ownedMask trace claim.1) ++
        (ownedMask trace claim.1 node ++ after.flatMap (ownedMask trace claim.1)) := by
      rw [claimMask, split, List.flatMap_append, List.flatMap_cons]
    rw [same]
    simp only [branchSample, spanOf, masks]
    rw [List.drop_append, List.drop_eq_nil_of_le (Nat.le_add_right _ _), List.nil_append,
      Nat.add_sub_cancel_left]
    rcases within with inside | empty
    · rw [List.drop_append_of_le_length (by omega), List.take_append_of_le_length]
      · exact true_run_slice _ run isRun
      · rw [List.length_drop]
        omega
    · rw [empty, List.take_zero, List.replicate_zero]

/-- The layout of a forked trace partitions its trained tokens. Every trained
token is true in exactly one sample, the spans list the trained tokens once in
creation order, and every span names the same tokens in its node and its sample. -/
theorem layout_partitions_trained_tokens (forked : Forked trace) (envName : String)
    (captureSampledMasks capturePolicyVersions : Bool) (result : TrainingMaterialization Scalar)
    (materialized : materializeTrainingData trace envName captureSampledMasks
      capturePolicyVersions = .ok result) :
    ∃ layout, result.layout = some layout ∧
      (∀ node offset, Trained trace node offset →
        ∃ owner, Carries trace result layout owner (node.val, offset) true ∧
          ∀ other, other ≠ owner →
            ¬ Carries trace result layout other (node.val, offset) true ∧
            ∀ nodes, layout.sampleNodeIndices[other]? = some nodes → node.val ∈ nodes →
              Carries trace result layout other (node.val, offset) false) ∧
      (layout.trainableSpans.flatMap nodeTokens).Pairwise Earlier ∧
      (∀ node offset, (node, offset) ∈ layout.trainableSpans.flatMap nodeTokens ↔
        ∃ inside : node < trace.nodes.length, Trained trace ⟨node, inside⟩ offset) ∧
      (∀ span ∈ layout.trainableSpans, ∃ sample message,
        result.samples[span.sampleIndex]? = some sample ∧
        trace.nodes[span.nodeIndex]? = some message ∧
        (sample.tokenIds.drop span.sampleStart).take span.length =
          (message.tokenIds.drop span.nodeStart).take span.length ∧
        (sample.mask.drop span.sampleStart).take span.length = List.replicate span.length true) ∧
      ∀ sampleIndex sample, result.samples[sampleIndex]? = some sample →
        ∀ position, sample.mask[position]? = some true ↔
          (sampleIndex, position) ∈ layout.trainableSpans.flatMap sampleTokens := by
  obtain ⟨layoutEq, samples⟩ := materialized_eq forked envName captureSampledMasks
    capturePolicyVersions result materialized
  obtain ⟨ordered, listsTrained⟩ := node_spans_trained forked
  obtain ⟨-, covers⟩ := sample_spans_positions forked
  refine ⟨_, layoutEq, ?_, ordered, listsTrained, ?_, ?_⟩
  · exact owned_once forked result envName capturePolicyVersions samples
  · intro span listed
    obtain ⟨claim, node, position, named, tokens, masks⟩ := span_tokens forked envName
      capturePolicyVersions span ((layout_spans forked).2.mem_iff.mp listed)
    refine ⟨_, trace.node node, ?_, ?_, tokens, masks⟩
    · rw [samples, List.getElem?_map, position]
      rfl
    · rw [← named, List.getElem?_eq_getElem node.isLt]
      rfl
  · intro sampleIndex sample listed position
    rw [samples, List.getElem?_map, Option.map_eq_some_iff] at listed
    obtain ⟨claim, owned, rfl⟩ := listed
    rw [covers]
    constructor
    · intro trained
      exact ⟨claim, owned, trained⟩
    · rintro ⟨other, alsoOwned, trained⟩
      obtain rfl := Option.some.inj (owned.symm.trans alsoOwned)
      exact trained

/-- A text message. -/
def textNode (tokenIds : List Nat) (sampled : Bool) : MessageNode :=
  { tokenIds := tokenIds
    mask := tokenIds.map (fun _ => sampled)
    sampled := sampled
    semanticParents := []
    content := none
    tools := []
    toolCalls := []
    weightVersions := none
    stampedStreams := false }

/-- Two branches that share a prompt and its first answer. -/
def sharedAnswer : Trace Rat :=
  { id := "shared"
    stopCondition := none
    mmTokenTypeIdMap := []
    tools := []
    nodes := [textNode [1] false, textNode [2, 3] true, textNode [4] true, textNode [5] false,
      textNode [6] true]
    branches :=
      [{ index := 0, nodes := [0, 1, 2], tokenIds := [1, 2, 3, 4]
         sampledMask := [false, true, true, true], logprobs := [], mmTokenTypeIds := none
         trainable := true },
       { index := 1, nodes := [0, 1, 3, 4], tokenIds := [1, 2, 3, 5, 6]
         sampledMask := [false, true, true, false, true], logprobs := [], mmTokenTypeIds := none
         trainable := true }] }

theorem shared_answer_forked : Forked sharedAnswer :=
  { flat := ⟨by decide, by decide, by decide⟩
    several := by decide
    paths := by decide
    context := by decide }

/-- The shared answer is trained in the first branch and context in the second. -/
theorem layout_partitions_shared_answer :
    ∃ result layout, materializeTrainingData sharedAnswer "env" true false = .ok result ∧
      result.layout = some layout ∧
      (layout.trainableSpans.flatMap nodeTokens).Pairwise Earlier ∧
      ∃ owner, Carries sharedAnswer result layout owner (1, 0) true ∧
        ∀ other, other ≠ owner → ¬ Carries sharedAnswer result layout other (1, 0) true := by
  obtain ⟨layout, listed, once, ordered, -⟩ := layout_partitions_trained_tokens
    shared_answer_forked "env" true false _ rfl
  obtain ⟨owner, carried, others⟩ :=
    once ⟨1, by decide⟩ 0 ⟨by decide, by decide, by decide⟩
  exact ⟨_, layout, rfl, listed, ordered, owner, carried, fun other differs => (others other differs).1⟩

end

end PrimeRl.Orchestrator.TrainingLayout
