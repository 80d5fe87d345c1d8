import Mathlib.Algebra.Order.Ring.Rat
import Mathlib.Data.List.Dedup
import Mathlib.Data.Rat.Sqrt
import PrimeRl.Trainer.TensorSummaries

/-!
# Streaming statistics are batch statistics

A summary stands for a population: summarizing a call gives the summary of the
values its mask keeps, merging gives that of both populations, and reducing over
ranks that of all of them. What is computed at the end are therefore the
statistics of all values of a key, however they were split.
-/

namespace PrimeRl.Trainer.Summaries

open Moments

variable {Scalar : Type}

/-- The values that a mask keeps. -/
def keep {Value : Type} (mask : Option (List Bool)) (values : List Value) : List Value :=
  match mask with
  | none => values
  | some mask => ((mask.zip values).filter Prod.fst).map Prod.snd

/-- The values of a call that count. -/
def Call.observed (call : Call Scalar) : List Scalar := keep call.mask call.values

/-- The mask of a call has a mark for each value. -/
def Call.Valid (call : Call Scalar) : Prop :=
  ∀ mask, call.mask = some mask → mask.length = call.values.length

/-- All values of a key, in the order of the calls. -/
def observed (key : String) (calls : List (Call Scalar)) : List Scalar :=
  (calls.filter (fun call => decide (call.key = key))).flatMap Call.observed

section Populations
variable [Field Scalar] [LinearOrder Scalar]

/-- The summary of a population. -/
def ofPopulation (includeStd : Bool) (values : List Scalar) : Summary Scalar where
  count := values.length
  total := values.sum
  minimum := values.minimum
  maximum := values.maximum
  squares := if includeStd then some (spread values) else none

theorem empty_population (includeStd : Bool) :
    (ofPopulation includeStd [] : Summary Scalar) = empty includeStd := rfl

/-- A fold that ignores the fill only sees the values that the mask keeps. -/
theorem masked_foldr {Value Result : Type} (change : Value → Result) (fill start : Result)
    (combine : Result → Result → Result) (neutral : ∀ result, combine fill result = result)
    (mask : Option (List Bool)) (values : List Value) :
    (whereMask mask (values.map change) fill).foldr combine start =
      ((keep mask values).map change).foldr combine start := by
  cases mask with
  | none => rfl
  | some mask =>
    dsimp only [whereMask, keep]
    induction mask generalizing values with
    | nil => rfl
    | cons mark mask inductionHypothesis =>
      cases values with
      | nil => rfl
      | cons value values =>
        rw [List.map_cons, List.zipWith_cons_cons, List.foldr_cons, inductionHypothesis values,
          List.zip_cons_cons]
        cases mark with
        | false => exact neutral _
        | true => rfl

omit [LinearOrder Scalar] in
theorem masked_sum (change : Scalar → Scalar) (mask : Option (List Bool)) (values : List Scalar) :
    (whereMask mask (values.map change) 0).sum = ((keep mask values).map change).sum := by
  rw [List.sum_eq_foldr, List.sum_eq_foldr]
  exact masked_foldr change 0 0 (· + ·) zero_add mask values

omit [Field Scalar] [LinearOrder Scalar] in
theorem masked_count (mask : List Bool) (values : List Scalar) (fits : mask.length = values.length) :
    mask.count true = (keep (some mask) values).length := by
  have marks : (mask.zip values).map Prod.fst = mask := List.map_fst_zip fits.le
  calc mask.count true = ((mask.zip values).map Prod.fst).countP (· == true) := by rw [marks]; rfl
    _ = (mask.zip values).countP Prod.fst := by
      rw [List.countP_map]
      congr 1
      funext entry
      simp
    _ = (keep (some mask) values).length := by
      rw [keep, List.length_map, List.countP_eq_length_filter]

omit [Field Scalar] in
theorem minimum_foldr (values : List Scalar) :
    (values.map WithTop.some).foldr min ⊤ = values.minimum := by
  induction values with
  | nil => rfl
  | cons value rest inductionHypothesis =>
    rw [List.map_cons, List.foldr_cons, inductionHypothesis, List.minimum_cons]

omit [Field Scalar] in
theorem maximum_foldr (values : List Scalar) :
    (values.map WithBot.some).foldr max ⊥ = values.maximum := by
  induction values with
  | nil => rfl
  | cons value rest inductionHypothesis =>
    rw [List.map_cons, List.foldr_cons, inductionHypothesis, List.maximum_cons]

omit [LinearOrder Scalar] in
/-- Values that were zeroed under the mask are left out of the squared deviations. -/
theorem masked_squares (center : Scalar) (mask : Option (List Bool)) (values : List Scalar) :
    ((whereMask mask ((whereMask mask values 0).map (· - center)) 0).map (· ^ 2)) =
      whereMask mask (values.map (fun value => (value - center) ^ 2)) 0 := by
  cases mask with
  | none => exact List.map_map
  | some mask =>
    dsimp only [whereMask]
    induction mask generalizing values with
    | nil => rfl
    | cons mark mask inductionHypothesis =>
      cases values with
      | nil => rfl
      | cons value values =>
        simp only [List.zipWith_cons_cons, List.map_cons, inductionHypothesis values]
        cases mark with
        | false => simp
        | true => simp

/-- A call is summarized as the values that its mask keeps. -/
theorem summarize_population (includeStd : Bool) (call : Call Scalar) (valid : call.Valid) :
    summarize includeStd call.values call.mask = ofPopulation includeStd call.observed := by
  obtain ⟨key, values, mask⟩ := call
  have count : keptCount mask values = (keep mask values).length := by
    cases mask with
    | none => rfl
    | some mask => exact masked_count mask values (valid mask rfl)
  have total : (whereMask mask values 0).sum = (keep mask values).sum := by
    have folded := masked_sum id mask values
    rwa [List.map_id, List.map_id] at folded
  have least : (whereMask mask (values.map WithTop.some) ⊤).foldr min ⊤ =
      (keep mask values).minimum :=
    (masked_foldr WithTop.some ⊤ ⊤ min (fun _ => top_inf_eq _) mask values).trans (minimum_foldr _)
  have greatest : (whereMask mask (values.map WithBot.some) ⊥).foldr max ⊥ =
      (keep mask values).maximum :=
    (masked_foldr WithBot.some ⊥ ⊥ max (fun _ => bot_sup_eq _) mask values).trans (maximum_foldr _)
  simp only [summarize, ofPopulation, Call.observed]
  rw [count, total, least, greatest, masked_squares, masked_sum]
  rfl

variable [IsStrictOrderedRing Scalar]

/-- The term for the distance of the means vanishes where a part is empty. -/
theorem between_empty (previous current : Summary Scalar)
    (oneEmpty : ¬ (0 < previous.count ∧ 0 < current.count)) : between previous current = 0 := by
  simp only [between]
  rw [if_neg oneEmpty, if_neg oneEmpty]
  simp

omit [IsStrictOrderedRing Scalar] in
theorem between_means (includeStd : Bool) (first second : List Scalar) (some : 0 < first.length)
    (other : 0 < second.length) :
    between (ofPopulation includeStd first) (ofPopulation includeStd second) =
      (mean second - mean first) ^ 2 * first.length * second.length /
        (first.length + second.length : Scalar) := by
  simp only [between, ofPopulation]
  simp only [some, other, and_self, if_true]
  rw [Nat.max_eq_left (Nat.le_add_right_of_le some), Nat.cast_add]
  rfl

/-- Merging two summaries gives the summary of both populations. -/
theorem merge_population (includeStd : Bool) (first second : List Scalar) :
    merge (ofPopulation includeStd first) (ofPopulation includeStd second) =
      ofPopulation includeStd (first ++ second) := by
  have squares : spread second +
      (spread first + between (ofPopulation includeStd first) (ofPopulation includeStd second)) =
        spread (first ++ second) := by
    rcases Nat.eq_zero_or_pos first.length with noFirst | some
    · rw [between_empty _ _ (fun both => absurd both.1 (Nat.not_lt.mpr noFirst.le)),
        List.length_eq_zero_iff.mp noFirst]
      simp [spread, deviation]
    · rcases Nat.eq_zero_or_pos second.length with noSecond | other
      · rw [between_empty _ _ (fun both => absurd both.2 (Nat.not_lt.mpr noSecond.le)),
          List.length_eq_zero_iff.mp noSecond]
        simp [spread, deviation]
      · rw [between_means includeStd first second some other, spread_append first second some other]
        ring
  simp only [merge, ofPopulation, List.length_append, List.sum_append, List.minimum_append,
    List.maximum_append]
  rw [Nat.add_comm first.length, add_comm first.sum, min_comm first.minimum, max_comm first.maximum]
  cases includeStd with
  | false => rfl
  | true => exact congrArg _ (congrArg some squares)

/-- Reducing the summaries of several populations gives that of all of them. -/
theorem reduce_populations (includeStd : Bool) (populations : List (List Scalar)) :
    reduceRows includeStd (populations.map (ofPopulation includeStd)) =
      ofPopulation includeStd populations.flatten := by
  have count : ((populations.map (ofPopulation includeStd)).map Summary.count).sum =
      populations.flatten.length := by
    rw [List.map_map, List.length_flatten]
    rfl
  have total : ((populations.map (ofPopulation includeStd)).map Summary.total).sum =
      populations.flatten.sum := by
    rw [List.map_map, List.sum_flatten]
    rfl
  have least : ((populations.map (ofPopulation includeStd)).map Summary.minimum).foldr min ⊤ =
      populations.flatten.minimum := by
    rw [List.map_map, Extremes.minimum_flatten]
    rfl
  have greatest : ((populations.map (ofPopulation includeStd)).map Summary.maximum).foldr max ⊥ =
      populations.flatten.maximum := by
    rw [List.map_map, Extremes.maximum_flatten]
    rfl
  simp only [reduceRows]
  rw [count, total, least, greatest, ofPopulation]
  cases includeStd with
  | false => rfl
  | true =>
    simp only [if_true, spread_flatten, List.map_map]
    congr 3
    apply List.map_congr_left
    intro population _
    simp only [Function.comp_apply, ofPopulation, if_true, Option.getD_some]
    rcases Nat.eq_zero_or_pos population.length with none | some
    · rw [none, Nat.cast_zero, zero_mul, zero_mul]
    · rw [if_pos some, if_pos some]
      rfl

omit [IsStrictOrderedRing Scalar] in
theorem population_perm (includeStd : Bool) {first second : List Scalar}
    (same : first.Perm second) : ofPopulation includeStd first = ofPopulation includeStd second := by
  rw [ofPopulation, ofPopulation, same.length_eq, same.sum_eq, same.minimum_eq, same.maximum_eq,
    spread_perm same]

end Populations

/-! ## Runs of calls -/

section Runs
variable [Field Scalar] [LinearOrder Scalar]

/-- Calls in order; the first refused call ends them. -/
def addAll (self : TensorSummaries Scalar) (calls : List (Call Scalar)) :
    Except String (TensorSummaries Scalar) := calls.foldlM TensorSummaries.add self

/-- What is kept after some calls: for each key that was called, the summary of its values. -/
structure Keeps (includeStd : Bool) (calls : List (Call Scalar)) (rank : TensorSummaries Scalar) :
    Prop where
  flag : rank.includeStd = includeStd
  keys : ∀ key, key ∈ rank.summaries.keys ↔ key ∈ calls.map Call.key
  kept : ∀ key, rank.summaries.get? key =
    if key ∈ calls.map Call.key then some (ofPopulation includeStd (observed key calls)) else none

theorem new_keeps (includeStd : Bool) :
    Keeps includeStd [] (TensorSummaries.new includeStd : TensorSummaries Scalar) where
  flag := rfl
  keys := fun _ => iff_of_false List.not_mem_nil List.not_mem_nil
  kept := fun _ => rfl

omit [Field Scalar] [LinearOrder Scalar] in
theorem observed_append (key : String) (calls : List (Call Scalar)) (call : Call Scalar) :
    observed key (calls ++ [call]) =
      observed key calls ++ if call.key = key then call.observed else [] := by
  rw [observed, List.filter_append, List.flatMap_append, ← observed]
  congr 1
  by_cases same : call.key = key <;> simp [same]

omit [Field Scalar] [LinearOrder Scalar] in
theorem observed_absent (key : String) (calls : List (Call Scalar))
    (absent : key ∉ calls.map Call.key) : observed key calls = [] := by
  rw [observed, List.filter_eq_nil_iff.mpr, List.flatMap_nil]
  intro call member
  have different : call.key ≠ key := fun same => absent (same ▸ List.mem_map_of_mem member)
  simpa using different

variable [IsStrictOrderedRing Scalar]

/-- A valid call is added to the population of its key. -/
theorem add_keeps (includeStd : Bool) (calls : List (Call Scalar)) (self : TensorSummaries Scalar)
    (call : Call Scalar) (keeps : Keeps includeStd calls self) (valid : call.Valid) :
    ∃ next, self.add call = .ok next ∧ Keeps includeStd (calls ++ [call]) next := by
  have fits : ¬ call.mask.any (fun mask => decide (mask.length ≠ call.values.length)) = true := by
    cases masked : call.mask with
    | none => exact Bool.false_ne_true
    | some mask => simp [valid mask masked]
  refine ⟨_, if_neg fits, keeps.flag, ?_, ?_⟩
  · intro key
    rw [OrderedDict.mem_keys_set, keeps.keys, List.map_append, List.mem_append, List.map_singleton,
      List.mem_singleton, or_comm]
  · intro key
    rw [OrderedDict.get?_set, observed_append, keeps.flag, summarize_population includeStd call valid,
      keeps.kept]
    by_cases same : key = call.key
    · subst same
      have listed : call.key ∈ (calls ++ [call]).map Call.key :=
        List.mem_map_of_mem (List.mem_append_right calls List.mem_cons_self)
      rw [if_pos rfl, if_pos listed, if_pos rfl]
      by_cases seen : call.key ∈ calls.map Call.key
      · rw [if_pos seen]
        exact congrArg some (merge_population includeStd _ _)
      · rw [if_neg seen, observed_absent call.key calls seen, List.nil_append]
    · rw [if_neg same, if_neg (Ne.symm same), List.append_nil]
      have unchanged : key ∈ (calls ++ [call]).map Call.key ↔ key ∈ calls.map Call.key := by
        rw [List.map_append, List.mem_append, List.map_singleton, List.mem_singleton]
        exact or_iff_left same
      simp only [unchanged]
      exact keeps.kept key

/-- After any valid calls a rank keeps the summaries of its populations. -/
theorem add_all_keeps (includeStd : Bool) (earlier calls : List (Call Scalar))
    (self : TensorSummaries Scalar) (keeps : Keeps includeStd earlier self)
    (valid : ∀ call ∈ calls, call.Valid) :
    ∃ final, addAll self calls = .ok final ∧ Keeps includeStd (earlier ++ calls) final := by
  induction calls generalizing earlier self with
  | nil => exact ⟨self, rfl, by rwa [List.append_nil]⟩
  | cons call rest inductionHypothesis =>
    obtain ⟨next, added, keepsNext⟩ :=
      add_keeps includeStd earlier self call keeps (valid call List.mem_cons_self)
    obtain ⟨final, run, keepsFinal⟩ := inductionHypothesis (earlier ++ [call]) next keepsNext
      (fun other member => valid other (List.mem_cons_of_mem call member))
    refine ⟨final, ?_, by rwa [List.append_assoc] at keepsFinal⟩
    rw [addAll, List.foldlM_cons, added]
    exact run

/-- Every rank gets through its calls. -/
theorem ranks_keep (includeStd : Bool) (ranks : List (List (Call Scalar)))
    (valid : ∀ calls ∈ ranks, ∀ call ∈ calls, call.Valid) :
    ∃ summaries, List.Forall₂ (fun calls rank => addAll (TensorSummaries.new includeStd) calls = .ok rank)
        ranks summaries ∧
      List.Forall₂ (Keeps includeStd) ranks summaries := by
  induction ranks with
  | nil => exact ⟨[], .nil, .nil⟩
  | cons calls rest inductionHypothesis =>
    obtain ⟨rank, run, keeps⟩ := add_all_keeps includeStd [] calls (TensorSummaries.new includeStd)
      (new_keeps includeStd) (valid calls List.mem_cons_self)
    obtain ⟨summaries, runs, all⟩ :=
      inductionHypothesis (fun other member => valid other (List.mem_cons_of_mem calls member))
    exact ⟨rank :: summaries, .cons run runs, .cons keeps all⟩

/-- The rows of a key reduce to the summary of its values on all ranks. -/
theorem key_reduced (includeStd : Bool) (key : String) (ranks : List (List (Call Scalar)))
    (summaries : List (TensorSummaries Scalar))
    (all : List.Forall₂ (Keeps includeStd) ranks summaries) :
    reduceRows includeStd
        (summaries.map (fun rank => (rank.summaries.get? key).getD (empty includeStd))) =
      ofPopulation includeStd (ranks.flatMap (observed key)) := by
  have rows : summaries.map (fun rank => (rank.summaries.get? key).getD (empty includeStd)) =
      (ranks.map (observed key)).map (ofPopulation includeStd) := by
    induction all with
    | nil => rfl
    | @cons calls rank ranks summaries keeps _ inductionHypothesis =>
      rw [List.map_cons, List.map_cons, List.map_cons, inductionHypothesis, keeps.kept]
      by_cases seen : key ∈ calls.map Call.key
      · rw [if_pos seen, Option.getD_some]
      · rw [if_neg seen, Option.getD_none, observed_absent key calls seen, empty_population]
  rw [rows, reduce_populations, List.flatMap_def]

omit [IsStrictOrderedRing Scalar] in
/-- The keys of the ranks, sorted, are any strictly increasing list of the keys called. -/
theorem sorted_keys_eq (includeStd : Bool) (ranks : List (List (Call Scalar)))
    (summaries : List (TensorSummaries Scalar))
    (all : List.Forall₂ (Keeps includeStd) ranks summaries) (keys : List String)
    (sorted : keys.Pairwise (· < ·))
    (listed : ∀ key, key ∈ keys ↔ ∃ calls ∈ ranks, key ∈ calls.map Call.key) :
    sortedKeys summaries = keys := by
  have seen (key : String) : key ∈ summaries.flatMap (fun rank => rank.summaries.keys) ↔
      ∃ calls ∈ ranks, key ∈ calls.map Call.key := by
    clear listed
    induction all with
    | nil => simp
    | cons keeps _ inductionHypothesis =>
      rw [List.flatMap_cons, List.mem_append, inductionHypothesis, keeps.keys]
      simp only [List.mem_cons, exists_eq_or_imp]
  have strict : keys.Nodup := sorted.imp (fun below => ne_of_lt below)
  have same : (summaries.flatMap (fun rank => rank.summaries.keys)).dedup.Perm keys := by
    rw [List.perm_ext_iff_of_nodup (List.nodup_dedup _) strict]
    intro key
    rw [List.mem_dedup, seen, listed]
  rw [sortedKeys]
  exact ((List.perm_insertionSort _ _).trans same).eq_of_pairwise'
    (List.pairwise_insertionSort _ _) (sorted.imp le_of_lt)

end Runs

/-! ## Names of the metrics -/

def suffixes : List String := ["/count", "/mean", "/min", "/max", "/std"]

/-- A name tells its key and its suffix. -/
theorem name_injective (key other suffix ending : String) (isSuffix : suffix ∈ suffixes)
    (isEnding : ending ∈ suffixes) (same : key ++ suffix = other ++ ending) :
    key = other ∧ suffix = ending := by
  have lists : key.toList ++ suffix.toList = other.toList ++ ending.toList := by
    rw [← String.toList_append, same, String.toList_append]
  have ends : suffix.toList <:+ ending.toList ∨ ending.toList <:+ suffix.toList :=
    List.suffix_or_suffix_of_suffix ⟨key.toList, rfl⟩ ⟨other.toList, lists.symm⟩
  have unique : ∀ first ∈ suffixes, ∀ second ∈ suffixes, first.toList <:+ second.toList →
      first = second := by
    decide +kernel
  have equal : suffix = ending := by
    rcases ends with shorter | longer
    · exact unique suffix isSuffix ending isEnding shorter
    · exact (unique ending isEnding suffix isSuffix longer).symm
  subst equal
  exact ⟨String.toList_inj.mp (List.append_cancel_right lists), rfl⟩

/-! ## Batch statistics -/

section Batch
variable [Field Scalar] [LinearOrder Scalar]

/-- The metrics of all values of a key taken at once: count, mean and extremes and, when it
is wanted, the sample standard deviation. -/
def batchMetrics (root : Scalar → Scalar) (includeStd : Bool) (key : String) (values : List Scalar) :
    List (String × Metric Scalar) :=
  let size := values.length
  let average : Scalar := values.sum / size
  let variance : Scalar := (values.map (fun value => (value - average) ^ 2)).sum / (size - 1)
  [(key ++ "/count", .int size),
    (key ++ "/mean", if values = [] then .nan else .number average),
    (key ++ "/min", (values.min?.map Metric.number).getD .nan),
    (key ++ "/max", (values.max?.map Metric.number).getD .nan)] ++
  if includeStd then [(key ++ "/std", if size ≤ 1 then .nan else .number (root variance))] else []

omit [Field Scalar] in
theorem minimum_metric (values : List Scalar) (some : values ≠ []) :
    Metric.ofMinimum values.minimum = (values.min?.map Metric.number).getD .nan := by
  obtain ⟨least, isLeast⟩ := WithTop.ne_top_iff_exists.mp (List.minimum_ne_top_of_ne_nil some)
  have listed := List.minimum_eq_coe_iff.mp isLeast.symm
  have found : values.min? = Option.some least :=
    List.min?_eq_some_iff.mpr ⟨listed.1, listed.2⟩
  rw [← isLeast, found]
  rfl

omit [Field Scalar] in
theorem maximum_metric (values : List Scalar) (some : values ≠ []) :
    Metric.ofMaximum values.maximum = (values.max?.map Metric.number).getD .nan := by
  obtain ⟨greatest, isGreatest⟩ := WithBot.ne_bot_iff_exists.mp (List.maximum_ne_bot_of_ne_nil some)
  have listed := List.maximum_eq_coe_iff.mp isGreatest.symm
  have found : values.max? = Option.some greatest :=
    List.max?_eq_some_iff.mpr ⟨listed.1, listed.2⟩
  rw [← isGreatest, found]
  rfl

/-- The metrics of the summary of a population are its batch metrics. -/
theorem population_metrics (root : Scalar → Scalar) (includeStd : Bool) (key : String)
    (values : List Scalar) :
    rowMetrics root key (ofPopulation includeStd values) =
      batchMetrics root includeStd key values := by
  by_cases none : values = []
  · subst none
    cases includeStd <;> simp [rowMetrics, batchMetrics, ofPopulation]
  · have counted : values.length ≠ 0 := fun zero => none (List.length_eq_zero_iff.mp zero)
    have average : mean values = values.sum / values.length := by
      rw [mean, Nat.max_eq_left (Nat.pos_of_ne_zero counted)]
    rw [ofPopulation]
    dsimp only [rowMetrics, batchMetrics]
    rw [if_pos counted, if_pos counted, if_pos counted, if_neg none, minimum_metric values none,
      maximum_metric values none]
    congr 1
    cases includeStd with
    | false => rfl
    | true =>
      simp only [if_true, spread, deviation, average]
      rcases Nat.lt_or_ge 1 values.length with several | single
      · rw [if_pos several, if_neg (Nat.not_le.mpr several)]
      · rw [if_neg (Nat.not_lt.mpr single), if_pos single]

omit [LinearOrder Scalar] in
/-- The names of the metrics of a key are the key with different suffixes. -/
theorem row_names (root : Scalar → Scalar) (key : String) (row : Summary Scalar) :
    ∃ used : List String, used.Sublist suffixes ∧
      (rowMetrics root key row).map Prod.fst = used.map (key ++ ·) := by
  rw [rowMetrics]
  cases row.squares with
  | none => exact ⟨["/count", "/mean", "/min", "/max"], by decide, rfl⟩
  | some squares => exact ⟨suffixes, List.Sublist.refl _, rfl⟩

omit [LinearOrder Scalar] in
/-- The names of the metrics of distinct keys are distinct. -/
theorem metric_names_distinct (root : Scalar → Scalar) (rows : List (String × Summary Scalar))
    (unique : (rows.map Prod.fst).Nodup) :
    ((rows.flatMap (fun row => rowMetrics root row.1 row.2)).map Prod.fst).Nodup := by
  rw [List.map_flatMap, List.nodup_flatMap]
  constructor
  · intro row _
    obtain ⟨used, sub, named⟩ := row_names root row.1 row.2
    rw [named]
    apply (sub.nodup (by decide)).map_on
    intro suffix isSuffix ending isEnding same
    exact (name_injective row.1 row.1 suffix ending (sub.subset isSuffix) (sub.subset isEnding) same).2
  · refine (List.pairwise_map.mp unique).imp ?_
    intro row other different name named otherNamed
    obtain ⟨used, sub, names⟩ := row_names root row.1 row.2
    obtain ⟨otherUsed, otherSub, otherNames⟩ := row_names root other.1 other.2
    dsimp only at named otherNamed
    rw [names] at named
    rw [otherNames] at otherNamed
    obtain ⟨suffix, isSuffix, rfl⟩ := List.mem_map.mp named
    obtain ⟨ending, isEnding, same⟩ := List.mem_map.mp otherNamed
    exact different (name_injective row.1 other.1 suffix ending (sub.subset isSuffix)
      (otherSub.subset isEnding) same.symm).1

variable [IsStrictOrderedRing Scalar]

omit [IsStrictOrderedRing Scalar] in
/-- Clearing leaves each rank as it started. -/
theorem ranks_cleared (includeStd : Bool) (ranks : List (List (Call Scalar)))
    (summaries : List (TensorSummaries Scalar))
    (all : List.Forall₂ (Keeps includeStd) ranks summaries) :
    summaries.map (fun rank => { rank with summaries := .empty }) =
      ranks.map (fun _ => (TensorSummaries.new includeStd : TensorSummaries Scalar)) := by
  induction all with
  | nil => rfl
  | cons keeps _ inductionHypothesis =>
    rw [List.map_cons, List.map_cons, inductionHypothesis, keeps.flag]
    rfl

omit [IsStrictOrderedRing Scalar] in
/-- Ranks without calls are as they started. -/
theorem ranks_untouched (includeStd : Bool) (ranks : List (List (Call Scalar)))
    (summaries : List (TensorSummaries Scalar))
    (runs : List.Forall₂ (fun calls rank => addAll (TensorSummaries.new includeStd) calls = .ok rank)
      ranks summaries)
    (silent : ∀ calls ∈ ranks, calls = []) :
    summaries = ranks.map (fun _ => TensorSummaries.new includeStd) := by
  induction runs with
  | nil => rfl
  | @cons calls rank ranks summaries run _ inductionHypothesis =>
    obtain rfl := silent calls List.mem_cons_self
    obtain rfl := Except.ok.inj run
    rw [List.map_cons, inductionHypothesis
      (fun other member => silent other (List.mem_cons_of_mem _ member))]

/-- Streaming statistics equal batch statistics. However the values of each key are split
into calls and the calls over ranks, every rank computes the statistics of all values of
each key that was called, in any order, and forgets them. -/
theorem streaming_statistics_eq_batch (root : Scalar → Scalar) (includeStd : Bool)
    (ranks : List (List (Call Scalar)))
    (valid : ∀ calls ∈ ranks, ∀ call ∈ calls, call.Valid)
    (keys : List String) (sorted : keys.Pairwise (· < ·))
    (listed : ∀ key, key ∈ keys ↔ ∃ calls ∈ ranks, key ∈ calls.map Call.key)
    (population : String → List Scalar)
    (same : ∀ key, (population key).Perm (ranks.flatMap (observed key))) :
    ∃ summaries,
      List.Forall₂ (fun calls rank => addAll (TensorSummaries.new includeStd) calls = .ok rank)
        ranks summaries ∧
      (computeStats root includeStd summaries).1.entries =
        keys.flatMap (fun key => batchMetrics root includeStd key (population key)) ∧
      (computeStats root includeStd summaries).2 =
        ranks.map (fun _ => TensorSummaries.new includeStd) := by
  obtain ⟨summaries, runs, all⟩ := ranks_keep includeStd ranks valid
  have keysEq := sorted_keys_eq includeStd ranks summaries all keys sorted listed
  refine ⟨summaries, runs, ?_⟩
  rw [computeStats, keysEq]
  cases keys with
  | nil =>
    refine ⟨rfl, ranks_untouched includeStd ranks summaries runs ?_⟩
    intro calls member
    apply List.eq_nil_iff_forall_not_mem.mpr
    intro call called
    exact List.not_mem_nil
      ((listed call.key).mpr ⟨calls, member, List.mem_map_of_mem called⟩)
  | cons first rest =>
    obtain ⟨keys, isKeys⟩ : ∃ keys, keys = first :: rest := ⟨_, rfl⟩
    rw [← isKeys] at sorted ⊢
    have some : keys.isEmpty = false := by rw [isKeys]; rfl
    have strict : keys.Nodup := sorted.imp (fun below => ne_of_lt below)
    dsimp only
    rw [some, if_neg Bool.false_ne_true]
    refine ⟨?_, ranks_cleared includeStd ranks summaries all⟩
    rw [OrderedDict.set_all_entries]
    · rw [List.flatMap_map]
      refine (List.nil_append _).trans (List.flatMap_congr ?_)
      intro key _
      dsimp only
      rw [key_reduced includeStd key ranks summaries all, ← population_perm includeStd (same key),
        population_metrics]
    · apply metric_names_distinct
      rw [List.map_map]
      exact (List.map_id keys).symm ▸ strict
    · exact fun _ _ => List.not_mem_nil

end Batch

/-- Three ranks: the first masks a value and adds an empty call, the second adds a key of
which no value counts, and the third adds nothing. -/
def threeRanks : List (List (Call Rat)) :=
  [[⟨"kl", [1, 9], some [true, false]⟩, ⟨"kl", [], none⟩],
    [⟨"kl", [5, 3], none⟩, ⟨"clipped", [7], some [false]⟩], []]

theorem streaming_statistics_eq_batch_three_ranks :
    ∃ summaries,
      List.Forall₂ (fun calls rank => addAll (TensorSummaries.new true) calls = .ok rank)
        threeRanks summaries ∧
      (computeStats Rat.sqrt true summaries).1.entries =
        [("clipped/count", .int 0), ("clipped/mean", .nan), ("clipped/min", .nan),
          ("clipped/max", .nan), ("clipped/std", .nan), ("kl/count", .int 3), ("kl/mean", .number 3),
          ("kl/min", .number 1), ("kl/max", .number 5), ("kl/std", .number 2)] := by
  obtain ⟨summaries, runs, entries, -⟩ := streaming_statistics_eq_batch Rat.sqrt true threeRanks
    (by
      intro calls member call called mask masked
      simp only [threeRanks, List.mem_cons, List.not_mem_nil, or_false] at member
      rcases member with rfl | rfl | rfl
      · rcases List.mem_cons.mp called with rfl | later
        · obtain rfl := Option.some.inj masked
          rfl
        · obtain rfl := List.mem_singleton.mp later
          cases masked
      · rcases List.mem_cons.mp called with rfl | later
        · cases masked
        · obtain rfl := List.mem_singleton.mp later
          obtain rfl := Option.some.inj masked
          rfl
      · cases called)
    ["clipped", "kl"] (by decide +kernel)
    (by
      intro key
      simp only [threeRanks, List.mem_cons, List.not_mem_nil, or_false, List.map_cons, List.map_nil,
        exists_eq_or_imp, exists_eq_left]
      tauto)
    (fun key => if key = "kl" then [5, 1, 3] else [])
    (by
      intro key
      by_cases kl : key = "kl"
      · subst kl
        rw [if_pos rfl]
        decide +kernel
      · rw [if_neg kl]
        by_cases clipped : "clipped" = key <;>
          simp [threeRanks, observed, Ne.symm kl, clipped, Call.observed, keep])
  exact ⟨summaries, runs, entries.trans (by decide +kernel)⟩

end PrimeRl.Trainer.Summaries
