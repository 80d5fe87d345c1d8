import Mathlib.Data.List.GetD
import Mathlib.Data.List.Perm.Basic
import PrimeRl.Inference.WeightTransfer

/-!
# Which expert belongs in a slot

An expert map that places the physical experts of a worker one to one onto its
slots is inverted by sorting, and the replicas of the logical experts by
scattering, so the source index of a slot is the logical expert whose replica
the slot holds.
-/

namespace PrimeRl.Inference.WeightTransfer

open Fallible

/-- A physical expert is a replica of a logical one; without a map it is that expert itself. -/
def ReplicaOf (router : Router) (physical logical : Nat) : Prop :=
  match router.logicalToPhysicalMap with
  | none => physical = logical
  | some logicalToPhysicalMap =>
      ∃ replicas, logicalToPhysicalMap[logical]? = some replicas ∧ (physical : Int) ∈ replicas

/-- The logical experts of a layer: the rows that a received tensor has. -/
def logicalExperts (routedExperts : RoutedExperts) (router : Router) : Nat :=
  match router.logicalToPhysicalMap with
  | none => routedExperts.globalNumExperts
  | some logicalToPhysicalMap => logicalToPhysicalMap.length

/-- The physical experts of a worker fill its slots, each slot with one expert. -/
structure Placement (expertMap : List Int) (slots : Nat) : Prop where
  filled : ∀ slot < slots, ∃! physical : Nat, expertMap[physical]? = some (slot : Int)
  inside : ∀ (physical : Nat) (slot : Int),
    expertMap[physical]? = some slot → 0 ≤ slot → slot < slots

/-- A slot holds a replica of a logical expert. -/
def Serves (expertMap : List Int) (router : Router) (slot logical : Nat) : Prop :=
  ∃ physical : Nat, expertMap[physical]? = some (slot : Int) ∧ ReplicaOf router physical logical

/-- Every expert in a slot is a replica of exactly one logical expert. -/
def EachServesOne (expertMap : List Int) (router : Router) : Prop :=
  ∀ (physical slot : Nat), expertMap[physical]? = some (slot : Int) →
    ∃! logical, ReplicaOf router physical logical

/-! ## Deciding a placement -/

/-- A slot read from the map is an entry of it. -/
theorem entry_of_read {expertMap : List Int} {physical slot : Nat}
    (read : expertMap.getD physical (-1) = slot) : expertMap[physical]? = some (slot : Int) := by
  rw [List.getD_eq_getElem?_getD] at read
  cases found : expertMap[physical]? with
  | none =>
    rw [found, Option.getD_none] at read
    omega
  | some value =>
    rw [found, Option.getD_some] at read
    rw [read]

theorem placement_iff_bounded (expertMap : List Int) (slots : Nat) :
    Placement expertMap slots ↔
      (∀ slot < slots, ∃ physical < expertMap.length, expertMap[physical]? = some (slot : Int) ∧
        ∀ other < expertMap.length, expertMap[other]? = some (slot : Int) → other = physical) ∧
      ∀ slot ∈ expertMap, 0 ≤ slot → slot < slots := by
  constructor
  · rintro ⟨filled, inside⟩
    refine ⟨?_, ?_⟩
    · intro slot below
      obtain ⟨physical, placed, alone⟩ := filled slot below
      exact ⟨physical, (List.getElem?_eq_some_iff.mp placed).1, placed, fun other _ => alone other⟩
    · intro slot member
      obtain ⟨physical, placed⟩ := List.mem_iff_getElem?.mp member
      exact inside physical slot placed
  · rintro ⟨filled, inside⟩
    refine ⟨?_, fun physical slot placed => inside slot (List.mem_of_getElem? placed)⟩
    intro slot below
    obtain ⟨physical, -, placed, alone⟩ := filled slot below
    exact ⟨physical, placed, fun other otherPlaced =>
      alone other (List.getElem?_eq_some_iff.mp otherPlaced).1 otherPlaced⟩

instance (expertMap : List Int) (slots : Nat) : Decidable (Placement expertMap slots) :=
  decidable_of_iff _ (placement_iff_bounded expertMap slots).symm

theorem each_serves_one_iff_bounded (expertMap : List Int) (router : Router)
    (logicalToPhysicalMap : List (List Int))
    (known : router.logicalToPhysicalMap = some logicalToPhysicalMap) :
    EachServesOne expertMap router ↔
      ∀ physical < expertMap.length, 0 ≤ expertMap.getD physical (-1) →
        ∃ logical < logicalToPhysicalMap.length,
          (physical : Int) ∈ logicalToPhysicalMap.getD logical [] ∧
          ∀ other < logicalToPhysicalMap.length,
            (physical : Int) ∈ logicalToPhysicalMap.getD other [] → other = logical := by
  have replica : ∀ physical logical, ReplicaOf router physical logical ↔
      logical < logicalToPhysicalMap.length ∧
        (physical : Int) ∈ logicalToPhysicalMap.getD logical [] := by
    intro physical logical
    rw [ReplicaOf, known]
    constructor
    · rintro ⟨replicas, listed, member⟩
      rw [List.getD_eq_getElem?_getD, listed]
      exact ⟨(List.getElem?_eq_some_iff.mp listed).1, member⟩
    · rintro ⟨inside, member⟩
      rw [List.getD_eq_getElem _ _ inside] at member
      exact ⟨_, List.getElem?_eq_getElem inside, member⟩
  simp only [EachServesOne, ExistsUnique, replica]
  constructor
  · intro each physical inside isLocal
    have placed := entry_of_read (Int.toNat_of_nonneg isLocal).symm
    obtain ⟨logical, ⟨below, member⟩, alone⟩ := each physical _ placed
    exact ⟨logical, below, member, fun other otherBelow otherMember =>
      alone other ⟨otherBelow, otherMember⟩⟩
  · intro each physical slot placed
    have isLocal : 0 ≤ expertMap.getD physical (-1) := by
      rw [List.getD_eq_getElem?_getD, placed]
      exact Int.natCast_nonneg slot
    obtain ⟨logical, below, member, alone⟩ :=
      each physical (List.getElem?_eq_some_iff.mp placed).1 isLocal
    exact ⟨logical, ⟨below, member⟩, fun other both => alone other both.1 both.2⟩

/-! ## Local physical experts -/

/-- The slots of the local experts, listed by expert, are the slots in some order. -/
theorem local_indices_perm {expertMap : List Int} {slots : Nat}
    (placement : Placement expertMap slots) :
    (((List.range expertMap.length).filter
        (fun physical => decide (0 ≤ expertMap.getD physical (-1)))).map
      (fun physical => expertMap.getD physical (-1))).Perm
      ((List.range slots).map Int.ofNat) := by
  have entry : ∀ physical, 0 ≤ expertMap.getD physical (-1) →
      expertMap[physical]? = some ((expertMap.getD physical (-1)).toNat : Int) := by
    intro physical isLocal
    exact entry_of_read (Int.toNat_of_nonneg isLocal).symm
  have below : ∀ physical, 0 ≤ expertMap.getD physical (-1) →
      (expertMap.getD physical (-1)).toNat < slots := by
    intro physical isLocal
    have inside := placement.inside physical _ (entry physical isLocal) (by omega)
    omega
  rw [List.perm_ext_iff_of_nodup]
  · intro slot
    simp only [List.mem_map, List.mem_filter, List.mem_range, decide_eq_true_eq]
    constructor
    · rintro ⟨physical, ⟨-, isLocal⟩, rfl⟩
      exact ⟨_, below physical isLocal, Int.toNat_of_nonneg isLocal⟩
    · rintro ⟨position, inside, rfl⟩
      obtain ⟨physical, held, -⟩ := placement.filled position inside
      have read : expertMap.getD physical (-1) = (position : Int) := by
        rw [List.getD_eq_getElem?_getD, held, Option.getD_some]
      refine ⟨physical, ⟨?_, by omega⟩, read⟩
      exact (List.getElem?_eq_some_iff.mp held).1
  · refine List.Nodup.map_on ?_ (List.nodup_range.filter _)
    intro first firstMember second secondMember same
    have firstLocal := of_decide_eq_true (List.mem_filter.mp firstMember).2
    have secondLocal := of_decide_eq_true (List.mem_filter.mp secondMember).2
    have firstEntry := entry first firstLocal
    have secondEntry := entry second secondLocal
    rw [← same] at secondEntry
    exact (placement.filled _ (below first firstLocal)).unique firstEntry secondEntry
  · exact List.nodup_range.map (fun _ _ same => Int.ofNat.inj same)

/-- Read back through the map, the sorted local experts give the slots in order. -/
theorem local_experts_slots {expertMap : List Int} {slots : Nat}
    (placement : Placement expertMap slots) :
    (localPhysicalExperts expertMap).map (fun physical => expertMap.getD physical (-1)) =
      (List.range slots).map Int.ofNat := by
  rw [← Argsort.in_order_eq_range _ slots (local_indices_perm placement)]
  unfold localPhysicalExperts Argsort.inOrder
  dsimp only
  rw [List.map_map]
  apply List.map_congr_left
  intro place member
  have inMapped := List.mem_range.mp ((Argsort.argsort_perm _).mem_iff.mp member)
  have inside := inMapped
  rw [List.length_map] at inside
  rw [Function.comp_apply, List.getD_eq_getElem _ _ inside, List.getD_eq_getElem _ _ inMapped,
    List.getElem_map]

theorem local_experts_length {expertMap : List Int} {slots : Nat}
    (placement : Placement expertMap slots) : (localPhysicalExperts expertMap).length = slots := by
  simpa using congrArg List.length (local_experts_slots placement)

/-- The local expert listed for a slot is the one the map places there. -/
theorem local_expert_placed {expertMap : List Int} {slots : Nat}
    (placement : Placement expertMap slots) (slot physical : Nat)
    (listed : (localPhysicalExperts expertMap)[slot]? = some physical) :
    expertMap[physical]? = some (slot : Int) := by
  have inside : slot < slots := by
    rw [← local_experts_length placement]
    exact (List.getElem?_eq_some_iff.mp listed).1
  have read := congrArg (fun slotsRead => slotsRead[slot]?) (local_experts_slots placement)
  simp only [List.getElem?_map, listed, List.getElem?_range inside, Option.map_some,
    Option.some.injEq] at read
  exact entry_of_read read

/-! ## Replicas -/

theorem mem_replica_entries (logicalToPhysicalMap : List (List Int)) (physical : Int)
    (logical : Nat) :
    (physical, logical) ∈ replicaEntries logicalToPhysicalMap ↔
      ∃ replicas, logicalToPhysicalMap[logical]? = some replicas ∧ physical ∈ replicas := by
  simp only [replicaEntries, List.mem_flatMap, List.mem_map, Prod.mk.injEq, Prod.exists,
    List.mem_zipIdx_iff_getElem?]
  constructor
  · rintro ⟨replicas, index, listed, value, member, rfl, rfl⟩
    exact ⟨replicas, listed, member⟩
  · rintro ⟨replicas, listed, member⟩
    exact ⟨replicas, logical, listed, physical, member, rfl, rfl⟩

/-- What stands in a scattered table was there before or was written for a replica. -/
theorem scatter_source (entries : List (Int × Nat)) (table : List Int) (physical : Nat)
    (value : Int) (found : (scatterReplicas table entries)[physical]? = some value) :
    table[physical]? = some value ∨ ∃ logical : Nat, value = logical ∧
      ((physical : Int), logical) ∈ entries := by
  induction entries generalizing table with
  | nil => exact .inl found
  | cons entry rest inductionHypothesis =>
    obtain ⟨replica, expert⟩ := entry
    rcases inductionHypothesis _ found with before | ⟨logical, same, later⟩
    · split at before
      · rename_i present
        by_cases here : replica.toNat = physical
        · have written : ((physical : Int), expert) ∈ (replica, expert) :: rest := by
            rw [← here, Int.toNat_of_nonneg present]
            exact List.mem_cons_self
          rw [here, List.getElem?_set] at before
          simp only [↓reduceIte] at before
          split at before
          · exact .inr ⟨expert, (Option.some.inj before).symm, written⟩
          · cases before
        · rw [List.getElem?_set_ne here] at before
          exact .inl before
      · exact .inl before
    · exact .inr ⟨logical, same, List.mem_cons_of_mem _ later⟩

/-- A logical expert read from the inverted map is one the physical expert is a replica of. -/
theorem inverted_replica {logicalToPhysicalMap : List (List Int)} {numPhysicalExperts : Nat}
    {physicalToLogical : List Int}
    (inverted : invertLogicalToPhysicalMap logicalToPhysicalMap numPhysicalExperts =
      .ok physicalToLogical)
    (physical : Nat) (value : Int) (read : physicalToLogical[physical]? = some value)
    (present : 0 ≤ value) :
    ∃ replicas, logicalToPhysicalMap[value.toNat]? = some replicas ∧
      (physical : Int) ∈ replicas := by
  have finished := (check_passed inverted).2
  cases finished
  rcases scatter_source _ _ physical value read with before | ⟨logical, rfl, listed⟩
  · have unset := List.eq_of_mem_replicate (List.mem_of_getElem? before)
    omega
  · exact (mem_replica_entries logicalToPhysicalMap physical logical).mp listed

/-! ## Source indices -/

/-- Source indices name for each slot a logical expert whose replica the slot holds. -/
theorem source_indices_serve {routedExperts : RoutedExperts} {router : Router}
    {expertMap : List Int} {slots : Nat} {sourceIndices : List Nat}
    (mapped : routedExperts.expertMap = some expertMap) (placement : Placement expertMap slots)
    (built : buildExpertSourceIndices routedExperts router = .ok (some sourceIndices)) :
    sourceIndices.length = slots ∧
      ∀ slot logical, sourceIndices[slot]? = some logical →
        Serves expertMap router slot logical := by
  have count := local_experts_length placement
  unfold buildExpertSourceIndices at built
  rw [mapped] at built
  dsimp only at built
  cases known : router.logicalToPhysicalMap with
  | none =>
    rw [known] at built
    dsimp only at built
    cases built
    refine ⟨count, ?_⟩
    intro slot logical listed
    refine ⟨logical, local_expert_placed placement slot logical listed, ?_⟩
    simp [ReplicaOf, known]
  | some logicalToPhysicalMap =>
    rw [known] at built
    dsimp only at built
    obtain ⟨physicalToLogical, inverted, reading⟩ := bind_ok built
    obtain ⟨logicalIndices, collected, checking⟩ := bind_ok reading
    obtain ⟨complete, finished⟩ := check_passed checking
    cases finished
    have reads := (collect_ok_iff _ _ _).mp collected
    have noneMissing := not_not.mp complete
    rw [List.length_map, ← reads.length_eq]
    refine ⟨count, ?_⟩
    intro slot logical listed
    rw [List.getElem?_map, Option.map_eq_some_iff] at listed
    obtain ⟨value, valueListed, rfl⟩ := listed
    obtain ⟨physical, physicalListed, reading⟩ := collected_at collected slot value valueListed
    refine ⟨physical, local_expert_placed placement slot physical physicalListed, ?_⟩
    have present : 0 ≤ value := by
      by_contra absent
      have pair : (physical, value) ∈ (localPhysicalExperts expertMap).zip logicalIndices :=
        List.mem_of_getElem? (List.getElem?_zip_eq_some.mpr ⟨physicalListed, valueListed⟩)
      have nonNegative := List.filter_eq_nil_iff.mp (List.map_eq_nil_iff.mp noneMissing) _ pair
      exact nonNegative (decide_eq_true (Int.not_le.mp absent))
    have read : physicalToLogical[physical]? = some value := by
      unfold readIndex at reading
      split at reading
      · rename_i found
        rw [found, Except.ok.inj reading]
      · cases reading
    rw [ReplicaOf, known]
    exact inverted_replica inverted physical value read present

end PrimeRl.Inference.WeightTransfer
