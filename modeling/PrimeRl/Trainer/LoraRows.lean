import Mathlib.Algebra.Order.BigOperators.Group.List
import PrimeRl.Trainer.LoraShards

/-!
# Rows of one run and their padding

A row holds the tokens of one run and then its padding, which is counted for the
last slot. Intervals always give a token to the slot it was counted for. The
vote of a shard follows the run unless the shard holds more padding than tokens
of the run, which happens in no shard but the one where the tokens end.
-/

namespace PrimeRl.Trainer.Lora

open PrimeRl.Transport PrimeRl.Owners

variable {Scalar Factor : Type}

/-- The counts of a row with tokens of one slot, padded for the last slot. -/
def slotCounts (maxRuns slot real padding : Nat) : List Nat :=
  ((List.replicate maxRuns 0).modify slot (· + real)).modify (maxRuns - 1) (· + padding)

theorem slot_counts_length (maxRuns slot real padding : Nat) :
    (slotCounts maxRuns slot real padding).length = maxRuns := by
  rw [slotCounts, List.length_modify, List.length_modify, List.length_replicate]

theorem slot_counts_owners (maxRuns slot real padding : Nat) (inside : slot < maxRuns) :
    expand 0 (slotCounts maxRuns slot real padding) =
      List.replicate real slot ++ List.replicate padding (maxRuns - 1) := by
  have length : ((List.replicate maxRuns 0).modify slot (· + real)).length = maxRuns := by
    rw [List.length_modify, List.length_replicate]
  have nonempty : (List.replicate maxRuns 0).modify slot (· + real) ≠ [] := by
    apply List.ne_nil_of_length_pos
    omega
  have padded := expand_modify_last 0 padding _ nonempty
  rw [length, expand_single 0 slot maxRuns real inside, Nat.zero_add, Nat.zero_add] at padded
  exact padded

theorem slot_counts_sum (maxRuns slot real padding : Nat) (inside : slot < maxRuns) :
    (slotCounts maxRuns slot real padding).sum = real + padding := by
  rw [← expand_length 0, slot_counts_owners maxRuns slot real padding inside, List.length_append,
    List.length_replicate, List.length_replicate]

/-- Number of tokens of the run among `size` tokens behind the first `skip`. -/
def realInside (real skip size : Nat) : Nat := min (real - skip) size

/-- The owners in a window of a row. -/
theorem window_owners (maxRuns slot real padding skip size : Nat) (inside : slot < maxRuns)
    (window : skip + size ≤ real + padding) :
    expand 0 (cut skip size (slotCounts maxRuns slot real padding)) =
      List.replicate (realInside real skip size) slot ++
        List.replicate (size - realInside real skip size) (maxRuns - 1) := by
  have rest : min (size - (real - skip)) (padding - (skip - real)) =
      size - realInside real skip size := by
    rw [realInside]
    omega
  rw [expand_cut, slot_counts_owners maxRuns slot real padding inside, List.drop_append,
    List.take_append, List.drop_replicate, List.drop_replicate, List.take_replicate,
    List.take_replicate, List.length_replicate, List.length_replicate, rest, Nat.min_comm,
    realInside]

/-- The counts of a window, slot by slot. -/
theorem window_counts (maxRuns slot real padding skip size idx : Nat) (inside : slot < maxRuns)
    (window : skip + size ≤ real + padding) (present : idx < maxRuns) :
    (cut skip size (slotCounts maxRuns slot real padding))[idx]? =
      some ((if slot = idx then realInside real skip size else 0) +
        if maxRuns - 1 = idx then size - realInside real skip size else 0) := by
  obtain ⟨counts, isCounts⟩ : ∃ counts, counts =
    cut skip size (slotCounts maxRuns slot real padding) := ⟨_, rfl⟩
  have length : counts.length = maxRuns := by rw [isCounts, cut_length, slot_counts_length]
  have counted := count_expand 0 idx counts
  rw [isCounts, window_owners maxRuns slot real padding skip size inside window, ← isCounts,
    Nat.zero_add, List.count_append, List.count_replicate, List.count_replicate,
    List.getD_eq_getElem?_getD, List.getElem?_eq_getElem (length ▸ present)] at counted
  simp only [beq_iff_eq, Option.getD_some] at counted
  rw [← isCounts, List.getElem?_eq_getElem (length ▸ present), counted]

/-! ## The vote of a window -/

theorem window_vote (maxRuns slot real padding skip size : Nat) (inside : slot < maxRuns)
    (window : skip + size ≤ real + padding) (occupied : 0 < realInside real skip size) :
    argmax ((cut skip size (slotCounts maxRuns slot real padding)).map Int.ofNat) = some slot ↔
      slot + 1 = maxRuns ∨ size ≤ 2 * realInside real skip size := by
  have counted := fun idx => window_counts maxRuns slot real padding skip size idx inside window
  obtain ⟨here, isHere⟩ : ∃ here, here = realInside real skip size := ⟨_, rfl⟩
  have bounded : here ≤ size := isHere ▸ Nat.min_le_right _ _
  rw [← isHere] at occupied counted ⊢
  obtain ⟨counts, isCounts⟩ : ∃ counts, counts =
    cut skip size (slotCounts maxRuns slot real padding) := ⟨_, rfl⟩
  have length : counts.length = maxRuns := by rw [isCounts, cut_length, slot_counts_length]
  rw [← isCounts] at counted ⊢
  have slotCount := counted slot inside
  rw [argmax_eq_some_iff]
  constructor
  · rintro ⟨greatest, found, above, -⟩
    rw [List.getElem?_map, slotCount, Option.map_some, Option.some_inj] at found
    by_cases last : slot + 1 = maxRuns
    · exact Or.inl last
    · right
      have lastCount := counted (maxRuns - 1) (by omega)
      rw [if_neg (by omega), if_pos rfl] at lastCount
      rw [if_pos rfl, if_neg (by omega)] at found
      have other := above (Int.ofNat (0 + (size - here)))
        (List.mem_map_of_mem (List.mem_of_getElem? lastCount))
      rw [← found] at other
      simp only [Int.ofNat_eq_natCast] at other
      omega
  · intro outvotes
    refine ⟨_, by rw [List.getElem?_map, slotCount, Option.map_some], ?_, ?_⟩
    · intro other member
      obtain ⟨count, listed, rfl⟩ := List.mem_map.mp member
      obtain ⟨idx, bound, isCount⟩ := List.getElem_of_mem listed
      have value := counted idx (length ▸ bound)
      rw [List.getElem?_eq_getElem bound, isCount, Option.some_inj] at value
      have present : idx < maxRuns := length ▸ bound
      rw [value, if_pos rfl]
      apply Int.ofNat_le.mpr
      split <;> split <;> split <;> omega
    · intro earlier before other found
      have value := counted earlier (by omega)
      rw [List.getElem?_map, value, Option.map_some, Option.some_inj] at found
      rw [← found, if_neg (by omega), if_neg (by omega), if_pos rfl]
      simp only [Int.ofNat_eq_natCast]
      omega

/-! ## What the layers do to a shard -/

/-- Every token of the run in a shard uses the adapter and the factor of its
slot in both kinds of layer, and the counts of the shard are those of its tokens. -/
def ShardAssigned (factors : List Factor) (maxRuns : Nat) (row : MicroBatch Scalar)
    (slot real cpSize cpRank : Nat) : Prop :=
  ∃ shard tokens factor, loraShard maxRuns row cpSize cpRank = .ok shard ∧
    shard.loraNumTokens.sum = (shard.inputIds.length : Int) ∧
    multiLoraLinear factors shard.inputIds.length shard.loraNumTokens = .ok tokens ∧
    factors[slot]? = some factor ∧
    ∀ position < shard.inputIds.length, cpRank * shard.inputIds.length + position < real →
      tokens[position]? = some ⟨position, slot, factor⟩ ∧
        multiLoraGroupedExperts factors shard.loraNumTokens = .ok (slot, factor)

/-- A row of one run, its padding behind it, that the trainer cuts into shards. -/
structure SlotRow (maxRuns : Nat) (row : MicroBatch Scalar) (slot real padding : Nat) : Prop where
  counts : row.loraNumTokens = some (slotCounts maxRuns slot real padding)
  tokens : row.inputIds.length = real + padding
  inside : slot < maxRuns

/-- A size of the context-parallel group that the trainer accepts for a row. -/
structure Shards (row : MicroBatch Scalar) (cpSize : Nat) : Prop where
  positive : 0 < cpSize
  divides : cpSize ∣ row.inputIds.length
  text : 1 < cpSize → hasImages row = false

theorem shard_for_cp_length (values : List Nat) (cpRank cpSize : Nat) (positive : 0 < cpSize)
    (divides : cpSize ∣ values.length) (rank : cpRank < cpSize) :
    ∃ shard, shardForCp values cpRank cpSize = .ok shard ∧ shard.length = values.length / cpSize := by
  obtain ⟨size, total⟩ := divides
  have chunk : (values.length + cpSize - 1) / cpSize = size := by
    have rounding : values.length + cpSize - 1 = (cpSize - 1) + cpSize * size := by omega
    rw [rounding, Nat.add_mul_div_left _ _ positive, Nat.div_eq_of_lt (by omega), Nat.zero_add]
  have quotient : values.length / cpSize = size := by
    rw [total, Nat.mul_div_cancel_left _ positive]
  have window : cpRank * size + size ≤ values.length := by
    calc
      cpRank * size + size = (cpRank + 1) * size := (Nat.succ_mul cpRank size).symm
      _ ≤ cpSize * size := Nat.mul_le_mul_right size rank
      _ = values.length := total.symm
  refine ⟨(values.drop (cpRank * size)).take size, ?_, ?_⟩
  · rw [shardForCp, chunk]
    refine if_neg ?_
    rintro ⟨nonempty, beyond⟩
    have some := List.length_pos_iff.mpr nonempty
    have positiveSize : size ≠ 0 := by
      rintro rfl
      omega
    omega
  · rw [List.length_take, List.length_drop, quotient]
    omega

section Shard
variable {maxRuns slot real padding cpSize cpRank : Nat} {row : MicroBatch Scalar}

/-- Below the capacity, a rank gets its chunk with the counts cut to it. -/
theorem lora_shard_cut (listed : SlotRow maxRuns row slot real padding) (shards : Shards row cpSize)
    (rank : cpRank < cpSize) (capacity : real + padding < 2 ^ 31) :
    ∃ inputIds, loraShard maxRuns row cpSize cpRank = .ok ⟨inputIds,
        (cut (cpRank * ((real + padding) / cpSize)) ((real + padding) / cpSize)
          (slotCounts maxRuns slot real padding)).map Int.ofNat⟩ ∧
      inputIds.length = (real + padding) / cpSize := by
  have sum := slot_counts_sum maxRuns slot real padding listed.inside
  have small : ∀ count ∈ slotCounts maxRuns slot real padding, count < 2 ^ 31 := by
    intro count member
    exact Nat.lt_of_le_of_lt (List.single_le_sum (by simp) count member) (sum ▸ capacity)
  have counts : rowCounts maxRuns row = .ok (slotCounts maxRuns slot real padding) := by
    rw [rowCounts, listed.counts]
  have tensor := int32_tensor_small _ small
  by_cases several : 1 < cpSize
  · obtain ⟨inputIds, sharded, length⟩ := shard_for_cp_length row.inputIds cpRank cpSize
      shards.positive shards.divides rank
    rw [listed.tokens] at length
    have chunkSmall : (real + padding) / cpSize ≤ real + padding := Nat.div_le_self _ _
    have skipSmall : (real + padding) / cpSize * cpRank ≤ real + padding := by
      calc
        (real + padding) / cpSize * cpRank ≤ (real + padding) / cpSize * cpSize :=
          Nat.mul_le_mul_left _ (Nat.le_of_lt rank)
        _ ≤ real + padding := Nat.div_mul_le_self _ _
    have cuts := adjust_cuts (slotCounts maxRuns slot real padding) ((real + padding) / cpSize)
      cpRank (by omega) (by omega) (by omega)
    refine ⟨inputIds, ?_, length⟩
    simp only [loraShard, counts, tensor, bind, Except.bind, if_pos several, shards.text several,
      Bool.false_eq_true, if_false, sharded, length, cuts, Nat.mul_comm cpRank]
    rfl
  · obtain rfl : cpSize = 1 := Nat.le_antisymm (Nat.not_lt.mp several) shards.positive
    obtain rfl : cpRank = 0 := Nat.lt_one_iff.mp rank
    refine ⟨row.inputIds, ?_, by rw [listed.tokens, Nat.div_one]⟩
    have whole := cut_whole (slotCounts maxRuns slot real padding) (real + padding) sum.le
    simp only [loraShard, counts, tensor, bind, Except.bind, if_neg several, Nat.zero_mul,
      Nat.div_one, whole]
    rfl

/-- Below the capacity, a shard is assigned its run's slot unless its vote goes
to the padding. -/
theorem shard_assigned_iff (factors : List Factor) (sized : factors.length = maxRuns)
    (listed : SlotRow maxRuns row slot real padding) (shards : Shards row cpSize)
    (rank : cpRank < cpSize) (capacity : real + padding < 2 ^ 31) :
    ShardAssigned factors maxRuns row slot real cpSize cpRank ↔
      (0 < realInside real (cpRank * ((real + padding) / cpSize)) ((real + padding) / cpSize) →
        slot + 1 = maxRuns ∨ (real + padding) / cpSize ≤
          2 * realInside real (cpRank * ((real + padding) / cpSize)) ((real + padding) / cpSize)) := by
  obtain ⟨inputIds, sharded, length⟩ := lora_shard_cut listed shards rank capacity
  obtain ⟨size, isSize⟩ : ∃ size, size = (real + padding) / cpSize := ⟨_, rfl⟩
  rw [← isSize] at sharded length ⊢
  have window : cpRank * size + size ≤ real + padding := by
    calc
      cpRank * size + size = (cpRank + 1) * size := (Nat.succ_mul cpRank size).symm
      _ ≤ cpSize * size := Nat.mul_le_mul_right size rank
      _ ≤ real + padding := isSize ▸ Nat.mul_div_le _ _
  have owners := window_owners maxRuns slot real padding (cpRank * size) size listed.inside window
  have vote := window_vote maxRuns slot real padding (cpRank * size) size listed.inside window
  obtain ⟨counts, isCounts⟩ : ∃ counts, counts =
    cut (cpRank * size) size (slotCounts maxRuns slot real padding) := ⟨_, rfl⟩
  rw [← isCounts] at sharded owners vote
  have countsLength : counts.length = maxRuns := by rw [isCounts, cut_length, slot_counts_length]
  have sum : counts.sum = size := by
    have bounded : realInside real (cpRank * size) size ≤ size := Nat.min_le_right _ _
    rw [← expand_length 0, owners, List.length_append, List.length_replicate,
      List.length_replicate]
    omega
  have nonempty : counts ≠ [] := by
    apply List.ne_nil_of_length_pos
    have inside := listed.inside
    omega
  have chunkSmall : size ≤ real + padding := isSize ▸ Nat.div_le_self _ _
  obtain ⟨tokens, linear, assigned⟩ := multi_lora_linear_owners factors counts
    (sized.trans countsLength.symm) nonempty (by omega)
  have known : factors[slot]? = some (factors.get ⟨slot, sized ▸ listed.inside⟩) :=
    List.getElem?_eq_getElem _
  have castSum : (counts.map Int.ofNat).sum = (inputIds.length : Int) := by
    rw [length, ← sum]
    exact (Nat.cast_list_sum counts).symm
  have chosen (factor : Factor) (isFactor : factors[slot]? = some factor) :
      multiLoraGroupedExperts factors (counts.map Int.ofNat) = .ok (slot, factor) ↔
        argmax (counts.map Int.ofNat) = some slot := by
    rw [multiLoraGroupedExperts]
    constructor
    · intro accepted
      split at accepted
      · cases accepted
      · split at accepted
        · obtain ⟨rfl, -⟩ := Prod.mk.inj (Except.ok.inj accepted)
          assumption
        · cases accepted
    · intro voted
      simp only [voted, isFactor]
  constructor
  · rintro ⟨shard, tokens, factor, isShard, -, -, isFactor, each⟩ some
    obtain rfl := Except.ok.inj (sharded.symm.trans isShard)
    have position : cpRank * size < real ∧ 0 < size := by
      rw [realInside] at some
      omega
    obtain ⟨-, voted⟩ := each 0 (by simpa only [length] using position.2)
      (by simpa only [length, Nat.add_zero] using position.1)
    exact (vote some).mp ((chosen factor isFactor).mp voted)
  · intro outvotes
    refine ⟨⟨inputIds, counts.map Int.ofNat⟩, tokens, _, sharded, castSum, ?_, known, ?_⟩
    · rw [length, ← sum]
      exact linear
    · intro position bound isReal
      simp only [length] at bound isReal
      have some : position < realInside real (cpRank * size) size := by
        rw [realInside]
        omega
      refine ⟨assigned position slot _ ?_ known, (chosen _ known).mpr ?_⟩
      · rw [owners, List.getElem?_append_left (by rwa [List.length_replicate]),
          List.getElem?_replicate, if_pos some]
      · exact (vote (by omega)).mpr (outvotes (by omega))

end Shard

/-! ## Overflow -/

/-- Running sums of differences are the values again. -/
theorem cumsum_diff (values : List Int) (previous : Int) :
    cumsum (int32 previous) (diff previous values) = values.map int32 := by
  induction values generalizing previous with
  | nil => rfl
  | cons value rest inductionHypothesis =>
    have difference : int32 (int32 previous + int32 (value - previous)) = int32 value := by
      rw [int32_add_int32, Int.add_comm, int32_add_int32, Int.sub_add_cancel]
    rw [diff, cumsum, difference, inductionHypothesis, List.map_cons]

theorem int32_tensor_ok {values : List Nat} {tensor : List Int}
    (converts : int32Tensor values = .ok tensor) :
    (∀ value ∈ values, value < 2 ^ 31) ∧ tensor = values.map Int.ofNat := by
  rw [int32Tensor] at converts
  split at converts
  · cases converts
  · rename_i fits
    refine ⟨?_, (Except.ok.inj converts).symm⟩
    intro value member
    by_contra exceeds
    exact fits (List.any_eq_true.mpr ⟨value, member, decide_eq_true (Nat.not_lt.mp exceeds)⟩)

/-- The linear layer accepts a shard only when the last offset is its size. -/
theorem multi_lora_linear_total {factors : List Factor} {size : Nat} {counts : List Int}
    {tokens : List (TokenUse Factor)} (accepted : multiLoraLinear factors size counts = .ok tokens) :
    (cumsum 0 counts).getLast? = some (size : Int) := by
  simp only [multiLoraLinear] at accepted
  split at accepted
  · cases accepted
  · rename_i last isLast
    by_cases same : last = size
    · rw [isLast, same]
    · rw [if_pos same] at accepted
      cases accepted

section Row
variable {maxRuns slot real padding cpSize : Nat} {row : MicroBatch Scalar}

/-- A row of two counts that 32 bits hold one by one but not together. -/
theorem slot_counts_wrap (inside : slot < maxRuns) (exceeds : 2 ^ 31 ≤ real + padding)
    (small : ∀ count ∈ slotCounts maxRuns slot real padding, count < 2 ^ 31) :
    real + padding < 2 ^ 32 ∧ int32 ((slotCounts maxRuns slot real padding).map Int.ofNat).sum =
      (real + padding : Int) - 2 ^ 32 := by
  have counted := fun idx => window_counts maxRuns slot real padding 0 (real + padding) idx inside
    (by omega)
  have cutWhole := cut_whole (slotCounts maxRuns slot real padding) (real + padding)
    (slot_counts_sum maxRuns slot real padding inside).le
  have allInside : realInside real 0 (real + padding) = real := by
    rw [realInside]
    omega
  rw [cutWhole, allInside, Nat.add_sub_cancel_left] at counted
  have slotSmall := small _ (List.mem_of_getElem? (counted slot inside))
  have lastSmall := small _ (List.mem_of_getElem? (counted (maxRuns - 1) (by omega)))
  rw [if_pos rfl] at slotSmall lastSmall
  have realSmall : real < 2 ^ 31 := by omega
  have paddingSmall : padding < 2 ^ 31 := by omega
  have sum : ((slotCounts maxRuns slot real padding).map Int.ofNat).sum =
      ((real + padding : Nat) : Int) := by
    rw [← slot_counts_sum maxRuns slot real padding inside]
    exact (Nat.cast_list_sum _).symm
  refine ⟨by omega, ?_⟩
  rw [sum, int32, Int.bmod_def]
  omega

/-- From the capacity on, the first rank is refused. -/
theorem overflowing_refused (factors : List Factor) (listed : SlotRow maxRuns row slot real padding)
    (shards : Shards row cpSize) (exceeds : 2 ^ 31 ≤ real + padding) :
    ¬ ShardAssigned factors maxRuns row slot real cpSize 0 := by
  rintro ⟨shard, tokens, factor, sharded, -, accepted, -⟩
  have total := multi_lora_linear_total accepted
  have counts : rowCounts maxRuns row = .ok (slotCounts maxRuns slot real padding) := by
    rw [rowCounts, listed.counts]
  cases converts : int32Tensor (slotCounts maxRuns slot real padding) with
  | error message => simp [loraShard, counts, converts, bind, Except.bind] at sharded
  | ok tensor =>
    obtain ⟨small, rfl⟩ := int32_tensor_ok converts
    obtain ⟨below, wraps⟩ := slot_counts_wrap listed.inside exceeds small
    have nonempty : (slotCounts maxRuns slot real padding).map Int.ofNat ≠ [] := by
      apply List.ne_nil_of_length_pos
      rw [List.length_map, slot_counts_length]
      exact Nat.zero_lt_of_lt listed.inside
    have lastOffset := cumsum_last _ 0 nonempty
    rw [Int.zero_add, wraps] at lastOffset
    by_cases several : 1 < cpSize
    · obtain ⟨inputIds, sharding, length⟩ := shard_for_cp_length row.inputIds 0 cpSize
        shards.positive shards.divides shards.positive
      simp only [loraShard, counts, converts, bind, Except.bind, if_pos several,
        shards.text several, Bool.false_eq_true, if_false, sharding, pure, Except.pure,
        Except.ok.injEq] at sharded
      obtain rfl := sharded
      have same : (cumsum 0 (adjustLoraNumTokens ((slotCounts maxRuns slot real padding).map
          Int.ofNat) inputIds.length 0)).getLast? = some 0 := by
        have values := cumsum_diff ((cumsum 0 ((slotCounts maxRuns slot real padding).map
          Int.ofNat)).map (fun offset => clip 0 inputIds.length
            (int32 (offset - inputIds.length * (0 : Nat))))) 0
        rw [int32_small 0 (by omega) (by omega)] at values
        rw [adjustLoraNumTokens, values, List.getLast?_map, List.getLast?_map, lastOffset,
          Option.map_some, Option.map_some, Option.some_inj]
        -- a negative total is clipped to the start of the chunk
        have unshifted : (real + padding : Int) - 2 ^ 32 - inputIds.length * ((0 : Nat) : Int) =
            real + padding - 2 ^ 32 := by
          rw [Int.natCast_zero, Int.mul_zero, Int.sub_zero]
        have clipped : clip 0 inputIds.length (real + padding - 2 ^ 32 : Int) = 0 := by
          rw [clip]
          omega
        rw [unshifted, int32_small (_ - _) (by omega) (by omega), clipped]
        rfl
      rw [same] at total
      have size : (0 : Int) = inputIds.length := Option.some.inj total
      obtain ⟨chunk, isChunk⟩ := shards.divides
      rw [isChunk, Nat.mul_div_cancel_left _ shards.positive] at length
      have noTokens : row.inputIds.length = 0 := by
        rw [isChunk, ← length, ← Int.natCast_inj.mp size, Nat.mul_zero]
      have tokens := listed.tokens
      omega
    · simp only [loraShard, counts, converts, bind, Except.bind, if_neg several, pure, Except.pure,
        Except.ok.injEq] at sharded
      obtain rfl := sharded
      rw [lastOffset, Option.some_inj, listed.tokens] at total
      omega

/-- Every rank is assigned its run's slot exactly when the row fits the offsets
and the shard in which the tokens of the run end, if it ends in padding, holds
at least as many of them. -/
theorem ranks_assigned_iff (factors : List Factor) (sized : factors.length = maxRuns)
    (listed : SlotRow maxRuns row slot real padding) (shards : Shards row cpSize) :
    (∀ cpRank < cpSize, ShardAssigned factors maxRuns row slot real cpSize cpRank) ↔
      row.inputIds.length < 2 ^ 31 ∧ (slot + 1 = maxRuns ∨
        real % (row.inputIds.length / cpSize) = 0 ∨
        row.inputIds.length / cpSize ≤ 2 * (real % (row.inputIds.length / cpSize))) := by
  rw [listed.tokens]
  by_cases capacity : real + padding < 2 ^ 31
  · have chunked := shards.divides
    rw [listed.tokens] at chunked
    obtain ⟨size, total⟩ := chunked
    have quotient : (real + padding) / cpSize = size := by
      rw [total, Nat.mul_div_cancel_left _ shards.positive]
    have each := fun cpRank (rank : cpRank < cpSize) =>
      shard_assigned_iff factors sized listed shards rank capacity
    rw [quotient] at each ⊢
    constructor
    · intro assigned
      refine ⟨capacity, ?_⟩
      by_cases whole : real % size = 0
      · exact Or.inr (Or.inl whole)
      -- the rank of the shard in which the tokens of the run end
      have sizePositive : 0 < size := by
        apply Nat.pos_of_ne_zero
        rintro rfl
        rw [Nat.mul_zero] at total
        omega
      have position := Nat.div_add_mod real size
      have below := Nat.mod_lt real sizePositive
      have rank : real / size < cpSize := by
        by_contra beyond
        have spanned := Nat.mul_le_mul_left size (Nat.not_lt.mp beyond)
        rw [Nat.mul_comm size cpSize] at spanned
        omega
      have here : realInside real (real / size * size) size = real % size := by
        rw [realInside, Nat.mul_comm]
        omega
      have vote := (each (real / size) rank).mp (assigned (real / size) rank)
      rw [here] at vote
      rcases vote (Nat.pos_of_ne_zero whole) with last | outvotes
      · exact Or.inl last
      · exact Or.inr (Or.inr outvotes)
    · rintro ⟨-, condition⟩ cpRank rank
      refine (each cpRank rank).mpr ?_
      intro occupied
      rcases condition with last | condition
      · exact Or.inl last
      right
      rw [realInside] at occupied ⊢
      by_cases full : cpRank * size + size ≤ real
      · omega
      have isRest : real % size = real - cpRank * size := by
        have inside : real - cpRank * size < size := by omega
        have split : real - cpRank * size + size * cpRank = real := by
          rw [Nat.mul_comm size cpRank]
          omega
        calc
          real % size = (real - cpRank * size + size * cpRank) % size := by rw [split]
          _ = real - cpRank * size := by rw [Nat.add_mul_mod_self_left, Nat.mod_eq_of_lt inside]
      rw [isRest] at condition
      omega
  · constructor
    · intro assigned
      exact absurd (assigned 0 shards.positive)
        (overflowing_refused factors listed shards (Nat.not_lt.mp capacity))
    · exact fun condition => absurd condition.1 capacity

end Row

end PrimeRl.Trainer.Lora
